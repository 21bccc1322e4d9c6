import Qml.Proofs.Comparison.Expression

/-! # Comparing statements

No statement ends with an expression before a brace on the same line: where one
may end there is a semicolon, a closing mark, or another statement. All
statements are therefore compared without exception. -/

namespace Qml.Comparison

open Qml.Parser Qml.Grammar

variable {comparison : Comparison} {deeper deeper' : Deeper}
  (levels : comparison.Levels deeper deeper')

include levels

/-! ## Variables -/

theorem declarator_related (noIn : Bool) :
    comparison.Loosely (declarator ⟨comparison.first, deeper⟩ noIn)
      (declarator ⟨comparison.second, deeper'⟩ noIn) := by
  refine expectName_related.bind_eq fun name => ?_
  refine (atOperator_related .assign).bind_eq fun _ => .ite ?_ (.pure rfl)
  refine advance_related.bind fun _ => ?_
  exact (expression_related levels false noIn).bind_pure fun init => by simp_all

theorem declaratorStep_related (noIn : Bool) :
    comparison.RelatedUpTo Continues (declaratorStep ⟨comparison.first, deeper⟩ noIn)
      (declaratorStep ⟨comparison.second, deeper'⟩ noIn) := by
  refine (atPunctuation_related ',').bind_eq fun _ => .ite ?_ (.pure rfl)
  refine advance_related.bind fun _ => ?_
  refine (declarator_related levels noIn).bind_loose (fun same => .pure (by simpa using same)) ?_
  intro value state result after _ atBrace ok
  cases ok
  exact ⟨nofun, atBrace⟩

omit levels in
theorem AtBrace.declaratorStep_eq_none {noIn : Bool} {state after : State}
    {result : Option Declarator} (atBrace : comparison.AtBrace state)
    (ok : declaratorStep ⟨comparison.first, deeper⟩ noIn state = .ok result after) :
    True ∧ result = none ∧ comparison.AtBrace after := by
  simp only [declaratorStep, run_atPunctuation, atBrace.isPunctuation_eq (by decide : ',' ≠ '{'),
    Bool.false_eq_true, if_false] at ok
  cases ok
  exact ⟨trivial, rfl, atBrace⟩

theorem declarators_related (noIn : Bool) :
    comparison.Loosely (declarators ⟨comparison.first, deeper⟩ noIn)
      (declarators ⟨comparison.second, deeper'⟩ noIn) := by
  have onward := levels.onward
  have more := (declaratorStep_related levels noIn).collect_loose fun atBrace ok =>
    atBrace.declaratorStep_eq_none ok
  refine (declarator_related levels noIn).bind_loose (fun first => more.bind_pure fun rest => ?_) ?_
  · simp_all
  · intro first state result after _ atBrace ok
    obtain ⟨rest, between, collected, ok⟩ := bind_eq_ok.mp ok
    cases ok
    exact ⟨trivial, (RelatedUpTo.collectWithin_atBrace
      (fun atBrace ok => atBrace.declaratorStep_eq_none ok) atBrace collected).2⟩

theorem declareTail_related (kind : VariableKind) :
    comparison.Related (declareTail ⟨comparison.first, deeper⟩ kind)
      (declareTail ⟨comparison.second, deeper'⟩ kind) :=
  (declarators_related levels false).bind_semicolon fun same => .pure (by simp_all)

/-! ## Jumps -/

omit levels in
theorem checkJump_related (keyword : Keyword) (label : Option String) :
    comparison.Related (checkJump keyword label) (checkJump keyword label) := by
  refine .bind_scope fun agrees => ?_
  rw [agrees.labels_eq, agrees.loops_eq]
  split
  · exact .ite (.pure rfl) (refuse_related _)
  · exact .ite (refuse_related _) (.pure rfl)

/-- Only the end of the text comes after a line break here, where a relaxed parse
could leave out what a strict one reads. -/
def Joined (comparison : Comparison) (state : State) : Prop :=
  comparison.Relaxing → state.cursor.current.afterLineBreak = true →
    state.cursor.current.isEnd = true

section

variable {state other : State} (alike : comparison.Alike state other)
  (joined : comparison.Joined state)

include alike joined

omit levels in
/-- Where a semicolon may be left out only in the second text, the block or the
text ends. -/
theorem Joined.ends (relaxing : comparison.Relaxing)
    (omitted : (!comparison.second.strict && (other.cursor.current.afterLineBreak ||
      other.cursor.current.isEnd || other.cursor.current.isPunctuation '}')) = true) :
    state.cursor.current.isEnd = true ∨ state.cursor.current.isPunctuation '}' = true := by
  rw [← alike.current.afterLineBreak_eq, ← alike.current.isEnd_eq,
    ← alike.current.isPunctuation_eq] at omitted
  simp only [relaxing.2, Bool.not_false, Bool.true_and, Bool.or_eq_true] at omitted
  rcases omitted with (behind | ends) | closes
  · exact .inl (joined relaxing behind)
  · exact .inl ends
  · exact .inr closes

omit levels in
theorem jumpLabel_agrees :
    comparison.Agrees (fun _ => False) (jumpLabel ⟨comparison.first, deeper⟩ state)
      (jumpLabel ⟨comparison.second, deeper'⟩ other) := by
  have label : comparison.Related (functionName false) (functionName false) :=
    functionName_related false
  rcases comparison.strict_eq_or_relaxing with strict | relaxing
  · exact RelatedUpTo.agrees ((canOmitSemicolon_related strict).bind_eq fun _ =>
      .ite (.pure (by rfl)) label) alike
  · simp only [jumpLabel, canOmitSemicolon, run_token, bind_assoc, pure_bind, relaxing.1,
      Bool.not_true, Bool.false_and, Bool.false_eq_true, if_false]
    rw [run_ite]
    split
    case isTrue omitted =>
        have none : state.cursor.current.kind.name? = none := by
          rcases joined.ends alike relaxing omitted with ends | closes
          · rw [of_decide_eq_true ends]
            rfl
          · rw [of_decide_eq_true closes]
            rfl
        rw [none]
        exact .ok rfl alike
    case isFalse => exact label.agrees alike

omit levels in
theorem jump_agrees (keyword : Keyword) :
    comparison.Agrees (fun _ => False) (jump ⟨comparison.first, deeper⟩ keyword state)
      (jump ⟨comparison.second, deeper'⟩ keyword other) := by
  have rest : ∀ label, comparison.Related
      (semicolon ⟨comparison.first, deeper⟩ >>= fun _ => checkJump keyword label >>= fun _ =>
        pure label)
      (semicolon ⟨comparison.second, deeper'⟩ >>= fun _ => checkJump keyword label >>= fun _ =>
        pure label) := fun label =>
    semicolon_related.bind fun _ => (checkJump_related keyword label).bind fun _ => .pure rfl
  refine (jumpLabel_agrees alike joined).bind (fun label => (rest label).onward) ?_ nofun
  intro label label' after after' _ same alike'
  rw [same.eq]
  exact (rest label').agrees alike'

theorem returnTail_agrees {start start' : Span} (same : comparison.labels.Same start start') :
    comparison.Agrees (fun _ => False) (returnTail ⟨comparison.first, deeper⟩ start state)
      (returnTail ⟨comparison.second, deeper'⟩ start' other) := by
  have value : comparison.Related
      (expression ⟨comparison.first, deeper⟩ true false >>= fun value =>
        semicolon ⟨comparison.first, deeper⟩ >>= fun _ => pure (StatementKind.return_ (some value)))
      (expression ⟨comparison.second, deeper'⟩ true false >>= fun value =>
        semicolon ⟨comparison.second, deeper'⟩ >>= fun _ =>
          pure (StatementKind.return_ (some value))) :=
    (expression_related levels true false).bind_semicolon fun value => .pure (by simp_all)
  have bare : comparison.Related
      (advance >>= fun _ => pure (StatementKind.return_ none))
      (advance >>= fun _ => pure (StatementKind.return_ none)) :=
    advance_related.bind fun _ => .pure rfl
  rcases comparison.strict_eq_or_relaxing with strict | relaxing
  · refine RelatedUpTo.agrees (.bind_scope fun agrees => ?_) alike
    rw [agrees.functions_eq]
    refine .ite (refuseAt_related same _) ?_
    refine (atPunctuation_related ';').bind_eq fun _ => .ite bare ?_
    exact (canOmitSemicolon_related strict).bind_eq fun _ => .ite (.pure rfl) value
  · simp only [returnTail, run_scope, alike.scope.functions_eq]
    rw [run_ite, run_ite]
    split
    · exact (refuseAt_related same _).agrees alike
    simp only [run_atPunctuation, alike.current.isPunctuation_eq]
    rw [run_ite, run_ite]
    split
    · exact bare.agrees alike
    simp only [canOmitSemicolon, run_token, bind_assoc, pure_bind, relaxing.1, Bool.not_true,
      Bool.false_and, Bool.false_eq_true, if_false]
    rw [run_ite]
    split
    case isTrue omitted =>
        refine .of_ne_ok (excused_of_relaxing relaxing) ?_
        intro kind after ok
        obtain ⟨expr, between, passed, -⟩ := bind_eq_ok.mp ok
        have begins := expression_firstToken levels.assignment_firstToken passed
        rcases joined.ends alike relaxing omitted with ends | closes
        · rw [begins.1] at ends
          cases ends
        · rw [begins.2.1 '}' (by simp)] at closes
          cases closes
    case isFalse => exact value.agrees alike

end

theorem throwTail_related :
    comparison.Related (throwTail ⟨comparison.first, deeper⟩)
      (throwTail ⟨comparison.second, deeper'⟩) := by
  refine token_related.bind fun same => ?_
  rw [same.afterLineBreak_eq]
  refine .ite (refuse_related _) ?_
  exact (expression_related levels true false).bind_semicolon fun value => .pure (by simp_all)

/-! ## Loops -/

theorem loopBody_related :
    comparison.Related (loopBody ⟨comparison.first, deeper⟩)
      (loopBody ⟨comparison.second, deeper'⟩) :=
  .inScope Scope.uniform_inLoop (statement_related levels)

theorem doTail_related :
    comparison.Related (doTail ⟨comparison.first, deeper⟩)
      (doTail ⟨comparison.second, deeper'⟩) := by
  refine (loopBody_related levels).bind fun body => ?_
  refine (expectKeyword_related .while_).bind fun _ => ?_
  exact (parenthesized_related levels).bind_semicolon fun test => .pure (by simp_all)

theorem whileTail_related :
    comparison.Related (whileTail ⟨comparison.first, deeper⟩)
      (whileTail ⟨comparison.second, deeper'⟩) :=
  (parenthesized_related levels).bind fun test =>
    (loopBody_related levels).bind fun body => .pure (by simp_all)

theorem forInit_related :
    comparison.Loosely (forInit ⟨comparison.first, deeper⟩)
      (forInit ⟨comparison.second, deeper'⟩) := by
  refine token_related.bind fun start => ?_
  rw [start.isKeyword_eq]
  refine .ite (advance_related.bind fun _ => ?_) ?_
  · refine (declarators_related levels true).bind_loose
      (fun declarators => (spanFrom_related start.span).bind fun span => .pure (by simp_all)) ?_
    intro declarators state result after _ atBrace ok
    cases ok
    exact ⟨trivial, atBrace⟩
  · refine (expression_related levels true true).bind_loose
      (fun value => (spanFrom_related start.span).bind fun span => .pure (by simp_all)) ?_
    intro value state result after _ atBrace ok
    cases ok
    exact ⟨trivial, atBrace⟩

theorem forInTail_related {start start' : Span} {left left' : Statement}
    (same : comparison.labels.Same start start')
    (sameLeft : comparison.labels.Same left left') :
    comparison.Related (forInTail ⟨comparison.first, deeper⟩ start left)
      (forInTail ⟨comparison.second, deeper'⟩ start' left') := by
  unfold forInTail
  rw [sameLeft.declaresSeveral_eq]
  refine .ite (refuseAt_related same _) (advance_related.bind fun _ => ?_)
  refine (expression_related levels true false).bind_expect (by decide) fun right => ?_
  exact (loopBody_related levels).bind fun body => .pure (by simp_all)

theorem optionalExpression_related (mark : Char) :
    comparison.Loosely (optionalExpression ⟨comparison.first, deeper⟩ mark)
      (optionalExpression ⟨comparison.second, deeper'⟩ mark) :=
  (atPunctuation_related mark).bind_eq fun _ => .ite (.pure rfl)
    ((expression_related levels true false).bind_pure fun same => by simpa using same)

theorem forClauses_related {init init' : Option Statement}
    (same : comparison.labels.Same init init') :
    comparison.Related (forClauses ⟨comparison.first, deeper⟩ init)
      (forClauses ⟨comparison.second, deeper'⟩ init') := by
  refine (expectPunctuation_related ';').bind fun _ => ?_
  refine (optionalExpression_related levels ';').bind_expect (by decide) fun test => ?_
  refine (optionalExpression_related levels ')').bind_expect (by decide) fun update => ?_
  exact (loopBody_related levels).bind fun body => .pure (by simp_all)

theorem forTail_related :
    comparison.Related (forTail ⟨comparison.first, deeper⟩)
      (forTail ⟨comparison.second, deeper'⟩) := by
  refine (expectPunctuation_related '(').bind fun _ => token_related.bind fun start => ?_
  rw [start.isPunctuation_eq]
  refine .ite (forClauses_related levels rfl) ?_
  refine (forInit_related levels).bind_loose (fun init => ?_) ?_
  · refine (atOperator_related .in_).bind_eq fun _ => .ite ?_ ?_
    · exact forInTail_related levels start.span init
    · exact forClauses_related levels (by simpa using init)
  · intro init state result after _ atBrace ok
    have notIn : state.cursor.current.isOperator .in_ = false := by
      simp [Token.isOperator, atBrace.kind_eq]
    simp only [run_atOperator, notIn, Bool.false_eq_true, if_false] at ok
    exact absurd ok (atBrace.expectPunctuation_ne_ok (by decide))

/-! ## Branches -/

theorem ifTail_related :
    comparison.Related (ifTail ⟨comparison.first, deeper⟩)
      (ifTail ⟨comparison.second, deeper'⟩) := by
  refine (parenthesized_related levels).bind fun test => ?_
  refine (statement_related levels).bind fun consequent => ?_
  refine (atKeyword_related .else_).bind_eq fun _ => .ite (advance_related.bind fun _ => ?_) ?_
  · exact (statement_related levels).bind fun alternate => .pure (by simp_all)
  · exact .pure (by simp_all)

theorem caseLabel_related :
    comparison.Related (caseLabel ⟨comparison.first, deeper⟩)
      (caseLabel ⟨comparison.second, deeper'⟩) := by
  refine token_related.bind fun current => ?_
  rw [current.isPunctuation_eq, current.isKeyword_eq .case_, current.isKeyword_eq .default]
  refine .ite (.pure rfl) (.ite (advance_related.bind fun _ => ?_) (.ite ?_ unexpected_related))
  · exact (expression_related levels true false).bind_expect (by decide) fun test =>
      .pure (by simp_all)
  · exact advance_related.bind fun _ => (expectPunctuation_related ':').bind fun _ => .pure rfl

theorem caseItem_related :
    comparison.Related (caseItem ⟨comparison.first, deeper⟩)
      (caseItem ⟨comparison.second, deeper'⟩) := by
  refine token_related.bind fun {found found'} current => ?_
  have ends : endsCase found = endsCase found' := by
    simp only [endsCase, current.isPunctuation_eq, current.isEnd_eq, current.isKeyword_eq]
  rw [ends]
  exact .ite (.pure rfl) ((statement_related levels).bind fun same => .pure (by simpa using same))

theorem switchCase_related :
    comparison.Related (switchCase ⟨comparison.first, deeper⟩)
      (switchCase ⟨comparison.second, deeper'⟩) := by
  have onward := levels.onward
  have consumes := levels.consumes
  refine (caseLabel_related levels).bind fun {label label'} same => ?_
  cases label with
  | none =>
      have ended : label' = none := by simpa using same.symm
      subst ended
      exact .pure rfl
  | some test =>
      cases label' with
      | none => simp at same
      | some test' =>
          exact (caseItem_related levels).collect.bind fun body => .pure (by simp_all)

theorem switchBlock_related :
    comparison.Related (switchBlock ⟨comparison.first, deeper⟩)
      (switchBlock ⟨comparison.second, deeper'⟩) := by
  have onward := levels.onward
  have consumes := levels.consumes
  refine (expectPunctuation_related '{').bind fun _ => ?_
  refine (RelatedUpTo.inScope Scope.uniform_inLoop (switchCase_related levels).collect).bind
    fun cases => ?_
  exact advance_related.bind fun _ => .pure cases

theorem switchTail_related :
    comparison.Related (switchTail ⟨comparison.first, deeper⟩)
      (switchTail ⟨comparison.second, deeper'⟩) :=
  (parenthesized_related levels).bind fun discriminant =>
    (switchBlock_related levels).bind fun cases => .pure (by simp_all)

theorem catchClause_related :
    comparison.Related (catchClause ⟨comparison.first, deeper⟩)
      (catchClause ⟨comparison.second, deeper'⟩) := by
  refine (atKeyword_related .catch_).bind_eq fun _ => .ite ?_ (.pure rfl)
  refine advance_related.bind fun _ => (expectPunctuation_related '(').bind fun _ => ?_
  refine expectName_related.bind_eq fun parameter => ?_
  refine (expectPunctuation_related ')').bind fun _ => ?_
  exact (block_related levels).bind fun body => .pure (by simp_all)

theorem finallyClause_related :
    comparison.Related (finallyClause ⟨comparison.first, deeper⟩)
      (finallyClause ⟨comparison.second, deeper'⟩) := by
  refine (atKeyword_related .finally_).bind_eq fun _ => .ite ?_ (.pure rfl)
  refine advance_related.bind fun _ => ?_
  exact (block_related levels).bind fun body => .pure (by simp_all)

theorem tryTail_related :
    comparison.Related (tryTail ⟨comparison.first, deeper⟩)
      (tryTail ⟨comparison.second, deeper'⟩) := by
  refine (block_related levels).bind fun block => ?_
  refine (catchClause_related levels).bind fun handler => ?_
  refine (finallyClause_related levels).bind fun finalizer => ?_
  rw [handler.isNone_eq, finalizer.isNone_eq]
  exact .ite (refuse_related _) (.pure (by simp_all))

theorem withTail_related :
    comparison.Related (withTail ⟨comparison.first, deeper⟩)
      (withTail ⟨comparison.second, deeper'⟩) :=
  (parenthesized_related levels).bind fun object =>
    (statement_related levels).bind fun body => .pure (by simp_all)

/-! ## All statements -/

theorem keywordStatement_agrees (keyword : Keyword) {start start' : Span}
    (same : comparison.labels.Same start start') {state other : State}
    (alike : comparison.Alike state other)
    (joined : keyword.isJump = true → comparison.Joined state) :
    comparison.Agrees (fun _ => False)
      (keywordStatement ⟨comparison.first, deeper⟩ keyword start state)
      (keywordStatement ⟨comparison.second, deeper'⟩ keyword start' other) := by
  have jumps : ∀ kind : Option String → StatementKind,
      (∀ label, comparison.labels.Same (kind label) (kind label)) → keyword.isJump = true →
      comparison.Agrees (fun _ => False)
        ((jump ⟨comparison.first, deeper⟩ keyword >>= fun label => pure (kind label)) state)
        ((jump ⟨comparison.second, deeper'⟩ keyword >>= fun label => pure (kind label)) other) := by
    intro kind unlabeled isJump
    refine (jump_agrees alike (joined isJump) keyword).bind inferInstance ?_ nofun
    intro label label' after after' _ same alike'
    rw [same.eq]
    exact .ok (unlabeled label') alike'
  cases keyword with
  | break_ => exact jumps .break_ (fun _ => rfl) rfl
  | continue_ => exact jumps .continue_ (fun _ => rfl) rfl
  | debugger => exact (semicolon_related.bind fun _ => .pure (by rfl)).agrees alike
  | do_ => exact (doTail_related levels).agrees alike
  | for_ => exact (forTail_related levels).agrees alike
  | function =>
      exact ((function_related levels true same).bind fun function =>
        .pure (by simp_all)).agrees alike
  | if_ => exact (ifTail_related levels).agrees alike
  | return_ => exact returnTail_agrees levels alike (joined rfl) same
  | switch => exact (switchTail_related levels).agrees alike
  | throw => exact (throwTail_related levels).agrees alike
  | try_ => exact (tryTail_related levels).agrees alike
  | var => exact (declareTail_related levels .var).agrees alike
  | const => exact (declareTail_related levels .const).agrees alike
  | while_ => exact (whileTail_related levels).agrees alike
  | with_ => exact (withTail_related levels).agrees alike
  | case_ | catch_ | default | else_ | finally_ => exact (refuseAt_related same _).agrees alike

theorem simpleStatement_related :
    comparison.Related (simpleStatement ⟨comparison.first, deeper⟩)
      (simpleStatement ⟨comparison.second, deeper'⟩) := by
  refine token_related.bind fun start => ?_
  refine (expression_related levels true false).bind_semicolon fun value => ?_
  exact (spanFrom_related start.span).bind fun span => .pure (by simp_all)

theorem labeledStatement_related (label : String) {start start' : Span}
    (same : comparison.labels.Same start start') :
    comparison.Related (labeledStatement ⟨comparison.first, deeper⟩ label start)
      (labeledStatement ⟨comparison.second, deeper'⟩ label start') := by
  refine (RelatedUpTo.inScope (Scope.uniform_inLabel label) (statement_related levels)).bind
    fun body => ?_
  exact (spanFrom_related same).bind fun span => .pure (by simp_all)

omit levels in
theorem Alike.joined {state other : State} (alike : comparison.Alike state other)
    (isJump : state.cursor.current.isJump = true) : comparison.Joined state.advanced := by
  intro relaxing behind
  have joins := alike.fits.jumps relaxing
  cases ahead : state.cursor.upcoming with
  | nil => simp [Cursor.advance, Cursor.peek, ahead] at behind
  | cons next rest =>
      have current : state.advanced.cursor.current = next := by
        simp [Cursor.advance, Cursor.peek, ahead]
      rw [Cursor.remaining, ahead] at joins
      rw [current] at behind ⊢
      exact (List.isChain_cons_cons.mp joins).1 isJump behind

theorem keywordTail_agrees (keyword : Keyword) {start start' : Span}
    (same : comparison.labels.Same start start') {state other : State}
    (alike : comparison.Alike state other) (kind : state.cursor.current.kind = .keyword keyword) :
    comparison.Agrees (fun _ => False)
      ((advance >>= fun _ => keywordStatement ⟨comparison.first, deeper⟩ keyword start >>=
        fun kind => spanFrom start >>= fun span => pure (⟨kind, span⟩ : Statement)) state)
      ((advance >>= fun _ => keywordStatement ⟨comparison.second, deeper'⟩ keyword start' >>=
        fun kind => spanFrom start' >>= fun span => pure (⟨kind, span⟩ : Statement)) other) := by
  have onward := levels.onward
  refine (advance_related.agrees alike).bind inferInstance ?_ nofun
  intro found found' after after' consumed _ alike'
  cases consumed
  refine (keywordStatement_agrees levels keyword same alike' ?_).bind inferInstance ?_ nofun
  · intro isJump
    exact alike.joined (by simpa [Token.isJump, kind] using isJump)
  · intro kind kind' last last' _ kinds alike''
    exact ((spanFrom_related same).bind fun span => .pure (by simp_all)).agrees alike''

theorem anyStatement_related :
    comparison.Related (anyStatement ⟨comparison.first, deeper⟩)
      (anyStatement ⟨comparison.second, deeper'⟩) := by
  have onward := levels.onward
  refine ⟨inferInstance, fun {state other} alike => ?_⟩
  have start := alike.current
  simp only [anyStatement, run_token, ← start.kind_eq]
  generalize kindEq : state.cursor.current.kind = kind
  split
  case h_1 label =>
      have notSemicolon : state.cursor.current.isPunctuation ';' = false := by
        simp [Token.isPunctuation, kindEq]
      simp only [run_peek, (alike.peek_looksLike notSemicolon).2.1]
      refine RelatedUpTo.agrees (.ite ?_ (simpleStatement_related levels)) alike
      exact advance_related.bind fun _ => advance_related.bind fun _ =>
        labeledStatement_related levels label start.span
  case h_2 keyword => exact keywordTail_agrees levels keyword start.span alike kindEq
  case h_3 =>
      refine ((block_related levels).bind fun body => ?_).agrees alike
      exact (spanFrom_related start.span).bind fun span => .pure (by simp_all)
  case h_4 => exact (advance_related.bind fun _ => .pure (by simpa using start.span)).agrees alike
  all_goals first
    | exact (simpleStatement_related levels).agrees alike
    | exact unexpected_related.agrees alike

omit levels in
theorem anyStatement_ne_ok_of_dot {grammar : Grammar} {state after : State} {value : Statement}
    (dot : state.cursor.current.isPunctuation '.' = true) :
    grammar.anyStatement state ≠ .ok value after := by
  have kind : state.cursor.current.kind = .punctuation '.' := by
    simpa [Token.isPunctuation] using dot
  intro ok
  simp only [anyStatement, run_token, kind] at ok
  exact unexpected_ne_ok ok

theorem scriptItem_related :
    comparison.Related (scriptItem ⟨comparison.first, deeper⟩)
      (scriptItem ⟨comparison.second, deeper'⟩) :=
  atEnd_related.bind_eq fun _ => .ite (.pure rfl)
    ((statement_related levels).bind fun same => .pure (by simpa using same))

theorem script_related :
    comparison.Related (script ⟨comparison.first, deeper⟩)
      (script ⟨comparison.second, deeper'⟩) := by
  have consumes := levels.consumes
  exact (scriptItem_related levels).collect

end Qml.Comparison
