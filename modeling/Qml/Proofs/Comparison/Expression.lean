import Qml.Proofs.Comparison.Loops

/-! # Comparing expressions

Functions, blocks and expressions, from what the nesting productions have in
common. A production that ends with an expression of a sequence is compared
loosely: where the two dialects part, the first parse ends before a brace. -/

namespace Qml.Comparison

open Qml.Parser Qml.Grammar

variable {comparison : Comparison}

/-- Nesting productions that make the same of the same tokens. Members are not
compared where only one text is declarative. -/
structure Levels (comparison : Comparison) (deeper deeper' : Deeper) : Prop where
  onward : deeper.Follows State.Onward
  consumes : deeper.Consumes
  statement : comparison.Related deeper.statement deeper'.statement
  assignment : ∀ noIn, comparison.Loosely (deeper.assignment noIn) (deeper'.assignment noIn)
  unary : ∀ calls, comparison.Related (deeper.unary calls) (deeper'.unary calls)
  atom : ∀ calls, comparison.Related (deeper.atom calls) (deeper'.atom calls)
  members : comparison.first.dialect ≠ .script →
    comparison.Related deeper.members deeper'.members
  statement_ne_ok : comparison.Crossing → ∀ {state value after},
    state.cursor.current.isPunctuation '.' = true → deeper.statement state ≠ .ok value after
  assignment_firstToken : ∀ {noIn state value after},
    deeper.assignment noIn state = .ok value after → state.cursor.current.BeginsOperand

theorem dialects_cases (comparison : Comparison) :
    (comparison.first.dialect = .script ∧ comparison.second.dialect = .script) ∨
    (∃ helper component helper' component',
      comparison.first.dialect = .declarative helper component ∧
      comparison.second.dialect = .declarative helper' component') ∨
    (comparison.first.dialect = .script ∧ ∃ helper component,
      comparison.second.dialect = .declarative helper component) := by
  cases one : comparison.first.dialect with
  | script =>
      cases two : comparison.second.dialect with
      | script => exact .inl ⟨rfl, rfl⟩
      | declarative helper component => exact .inr (.inr ⟨rfl, helper, component, rfl⟩)
  | declarative helper component =>
      cases two : comparison.second.dialect with
      | script =>
          rw [comparison.script_of_script two] at one
          cases one
      | declarative helper' component' =>
          exact .inr (.inl ⟨helper, component, helper', component', rfl, rfl⟩)

theorem crossing_of_eq {helper component : String} (one : comparison.first.dialect = .script)
    (two : comparison.second.dialect = .declarative helper component) : comparison.Crossing :=
  ⟨one, by simp [two]⟩

theorem not_crossing (declarative : comparison.first.dialect ≠ .script) :
    ¬ comparison.Crossing := fun crossing => declarative crossing.1

/-! ## Semicolons -/

variable {deeper deeper' : Deeper}

theorem canOmitSemicolon_related (strict : comparison.first.strict = comparison.second.strict) :
    comparison.Related (canOmitSemicolon ⟨comparison.first, deeper⟩)
      (canOmitSemicolon ⟨comparison.second, deeper'⟩) := by
  refine token_related.bind fun same => .pure ?_
  simp [same.isPunctuation_eq, same.isEnd_eq, same.afterLineBreak_eq, strict]

/-- Where a relaxed parse leaves a semicolon out, a strict one fails. -/
theorem semicolon_related :
    comparison.Related (semicolon ⟨comparison.first, deeper⟩)
      (semicolon ⟨comparison.second, deeper'⟩) := by
  refine (atPunctuation_related ';').bind_eq fun _ => .ite (advance_related.bind fun _ => .pure rfl)
    ?_
  rcases comparison.strict_eq_or_relaxing with same | relaxing
  · exact (canOmitSemicolon_related same).bind_eq fun _ => .ite (.pure rfl) unexpected_related
  · refine ⟨inferInstance, fun _ => .of_ne_ok (excused_of_relaxing relaxing) ?_⟩
    intro value after ok
    simp only [canOmitSemicolon, run_token, bind_assoc, pure_bind, relaxing.1, Bool.not_true,
      Bool.false_and, Bool.false_eq_true, if_false] at ok
    exact unexpected_ne_ok ok

theorem AtBrace.semicolon_ne_ok {state after : State} {value : Unit}
    (atBrace : comparison.AtBrace state) :
    semicolon ⟨comparison.first, deeper⟩ state ≠ .ok value after := by
  have notOmitted : (!comparison.first.strict && (state.cursor.current.afterLineBreak ||
      state.cursor.current.isEnd || state.cursor.current.isPunctuation '}')) = false := by
    cases strict : comparison.first.strict with
    | true => rfl
    | false => simp [atBrace.sameLine strict, Token.isEnd, Token.isPunctuation, atBrace.kind_eq]
  intro ok
  simp only [semicolon, run_atPunctuation, atBrace.isPunctuation_eq (by decide : ';' ≠ '{'),
    Bool.false_eq_true, if_false, canOmitSemicolon, run_token, bind_assoc, pure_bind,
    notOmitted] at ok
  exact unexpected_ne_ok ok

namespace RelatedUpTo

variable {α β : Type} [Labeled α] [Labeled β] {loose : α → Prop} {loose' : β → Prop}
  {parser other : Parser α} {next next' : α → Parser β}

theorem bind_expect {mark : Char} (one : comparison.RelatedUpTo loose parser other)
    (notBrace : mark ≠ '{')
    (two : ∀ {value value'}, comparison.labels.Same value value' →
      comparison.RelatedUpTo loose' (next value) (next' value')) :
    comparison.RelatedUpTo loose'
      (parser >>= fun value => expectPunctuation mark >>= fun _ => next value)
      (other >>= fun value => expectPunctuation mark >>= fun _ => next' value) :=
  one.bind_loose (fun same => (expectPunctuation_related mark).bind fun _ => two same)
    fun _ atBrace ok => absurd ok (atBrace.expectPunctuation_ne_ok notBrace)

theorem bind_semicolon (one : comparison.RelatedUpTo loose parser other)
    (two : ∀ {value value'}, comparison.labels.Same value value' →
      comparison.RelatedUpTo loose' (next value) (next' value')) :
    comparison.RelatedUpTo loose'
      (parser >>= fun value => semicolon ⟨comparison.first, deeper⟩ >>= fun _ => next value)
      (other >>= fun value =>
        semicolon ⟨comparison.second, deeper'⟩ >>= fun _ => next' value) := by
  refine one.bind_loose (fun same => semicolon_related.bind fun _ => two same) ?_
  intro value state result after _ atBrace ok
  obtain ⟨_, between, passed, -⟩ := bind_eq_ok.mp ok
  exact absurd passed atBrace.semicolon_ne_ok

theorem bind_pure {result result' : α → β} (one : comparison.Loosely parser other)
    (two : ∀ {value value'}, comparison.labels.Same value value' →
      comparison.labels.Same (result value) (result' value')) :
    comparison.Loosely (parser >>= fun value => Pure.pure (result value))
      (other >>= fun value => Pure.pure (result' value)) := by
  refine one.bind_loose (fun same => .pure (two same)) ?_
  intro value state made after _ atBrace ok
  cases ok
  exact ⟨trivial, atBrace⟩

end RelatedUpTo

/-! ## Functions and blocks -/

theorem pragma_related : comparison.Related pragma pragma := by
  refine advance_related.bind fun dot => advance_related.bind fun _ => ?_
  refine expectWord_related.bind_eq fun name => (skipPunctuation_related ';').bind_eq fun _ => ?_
  exact (spanFrom_related dot.span).bind fun span => .pure (by simp_all)

theorem pragmaOr_related {otherwise otherwise' : Parser Statement}
    (related : comparison.Related otherwise otherwise') :
    comparison.Related (pragmaOr otherwise) (pragmaOr otherwise') := by
  have onward := related.onward
  refine ⟨inferInstance, fun {state other} alike => ?_⟩
  simp only [pragmaOr, run_atPunctuation, ← alike.current.isPunctuation_eq]
  cases dot : state.cursor.current.isPunctuation '.' with
  | true =>
      have notSemicolon : state.cursor.current.isPunctuation ';' = false := by
        have kind : state.cursor.current.kind = .punctuation '.' := of_decide_eq_true dot
        simp [Token.isPunctuation, kind]
      have looksLike := alike.peek_looksLike notSemicolon
      simp only [if_true, run_peek, looksLike.1]
      exact RelatedUpTo.agrees (.ite pragma_related unexpected_related) alike
  | false => exact related.agrees alike

variable (levels : comparison.Levels deeper deeper')

include levels

/-- Where the dialects cross, a dot begins a pragma in the second text and
nothing in the first. -/
theorem statement_related :
    comparison.Related (statement ⟨comparison.first, deeper⟩)
      (statement ⟨comparison.second, deeper'⟩) := by
  unfold Grammar.statement
  rcases comparison.dialects_cases with ⟨one, two⟩ | ⟨_, _, _, _, one, two⟩ | ⟨one, _, _, two⟩
  · simp only [one, two]
    exact levels.statement
  · simp only [one, two]
    exact (pragmaOr_related levels.statement).bind_takeAwaited
  · simp only [one, two]
    have crossing := crossing_of_eq one two
    refine ⟨levels.statement.onward, ?_⟩
    intro state other alike
    cases dot : state.cursor.current.isPunctuation '.' with
    | true =>
        cases parsed : deeper.statement state with
        | ok value after => exact absurd parsed (levels.statement_ne_ok crossing dot)
        | error fault after => exact .excused (excused_of_crossing crossing _)
    | false =>
        have dot' : other.settled.cursor.current.isPunctuation '.' = false := by
          rw [← alike.settled_right.current.isPunctuation_eq]
          exact dot
        simp only [run_takeAwaited, pragmaOr, run_atPunctuation, dot', Bool.false_eq_true, if_false]
        exact levels.statement.agrees alike.settled_right

theorem blockItem_related :
    comparison.Related (blockItem ⟨comparison.first, deeper⟩)
      (blockItem ⟨comparison.second, deeper'⟩) := by
  refine (atPunctuation_related '}').bind_eq fun _ => .ite (.pure rfl) ?_
  refine atEnd_related.bind_eq fun _ => .ite unexpected_related ?_
  exact (statement_related levels).bind fun same => .pure (by simpa using same)

theorem block_related :
    comparison.Related (block ⟨comparison.first, deeper⟩)
      (block ⟨comparison.second, deeper'⟩) := by
  have consumes := levels.consumes
  refine (expectPunctuation_related '{').bind fun _ => ?_
  refine (blockItem_related levels).collect.bind fun same => ?_
  exact advance_related.bind fun _ => .pure same

omit levels in
theorem functionName_related (required : Bool) :
    comparison.Related (functionName required) (functionName required) := by
  refine token_related.bind fun same => ?_
  rw [same.kind_eq]
  split
  · exact advance_related.bind fun _ => .pure rfl
  · exact .ite (expected_related _) (.pure rfl)

theorem function_related (named : Bool) {start start' : Span}
    (same : comparison.labels.Same start start') :
    comparison.Related (function ⟨comparison.first, deeper⟩ named start)
      (function ⟨comparison.second, deeper'⟩ named start') := by
  refine (functionName_related named).bind_eq fun name => ?_
  refine (expectPunctuation_related '(').bind fun _ => ?_
  refine (listUntil_related (by decide) expectName_related.loosen).bind_eq fun parameters => ?_
  refine (RelatedUpTo.inScope Scope.uniform_inFunction (block_related levels)).bind fun body => ?_
  exact (spanFrom_related same).bind fun span => .pure (by simp_all)

/-! ## Sequences -/

theorem memberBlock_related (declarative : comparison.first.dialect ≠ .script) :
    comparison.Related (memberBlock ⟨comparison.first, deeper⟩)
      (memberBlock ⟨comparison.second, deeper'⟩) := by
  refine (expectPunctuation_related '{').bind fun _ => ?_
  refine (levels.members declarative).bind fun same => ?_
  exact (expectPunctuation_related '}').bind fun _ => .pure same

theorem elementOr_related (declarative : comparison.first.dialect ≠ .script)
    {start start' : Span} {expr expr' : Expr} (sameStart : comparison.labels.Same start start')
    (same : comparison.labels.Same expr expr') :
    comparison.Related (elementOr ⟨comparison.first, deeper⟩ start expr)
      (elementOr ⟨comparison.second, deeper'⟩ start' expr') := by
  refine (atPunctuation_related '{').bind_eq fun brace => ?_
  rw [same.qualifiedName?_eq]
  split
  · refine (memberBlock_related levels declarative).bind fun members => ?_
    exact (spanFrom_related sameStart).bind fun span => .pure (by simp_all)
  · exact .pure same

omit levels in
theorem elementOr_of_not_brace {grammar : Grammar} {start : Span} {expr : Expr} {state : State}
    (notBrace : state.cursor.current.isPunctuation '{' = false) :
    grammar.elementOr start expr state = .ok expr state := by
  simp only [elementOr, run_atPunctuation, notBrace]
  rfl

/-- Where the dialects cross, a brace after an expression leaves the first parse
before it. -/
theorem sequenceItem_related (noIn : Bool) :
    comparison.Loosely (sequenceItem ⟨comparison.first, deeper⟩ noIn)
      (sequenceItem ⟨comparison.second, deeper'⟩ noIn) := by
  refine token_related.bind fun start => ?_
  rcases comparison.dialects_cases with ⟨one, two⟩ | ⟨_, _, _, _, one, two⟩ | ⟨one, _, _, two⟩
  · simp only [one, two]
    exact (levels.assignment noIn).bind_pure fun same => same
  · simp only [one, two]
    have declarative : comparison.first.dialect ≠ .script := by simp [one]
    exact ((levels.assignment noIn).tighten (not_crossing declarative)).bind fun same =>
      (elementOr_related levels declarative start.span same).loosen
  · simp only [one, two]
    have crossing := crossing_of_eq one two
    refine (levels.assignment noIn).bind_loose (fun same => ⟨inferInstance, ?_⟩) ?_
    · intro state other alike
      cases brace : state.cursor.current.isPunctuation '{' with
      | true =>
          exact .atBrace trivial ⟨crossing, brace, fun relaxed =>
            alike.fits.braces crossing relaxed _ (List.mem_cons_self ..) brace⟩
      | false =>
          have brace' : other.cursor.current.isPunctuation '{' = false := by
            rw [← alike.current.isPunctuation_eq]
            exact brace
          rw [elementOr_of_not_brace brace']
          exact .ok same alike
    · intro value state result after _ atBrace ok
      cases ok
      exact ⟨trivial, atBrace⟩

omit levels in
theorem AtBrace.sequenceStep_eq_none {noIn : Bool} {state after : State} {result : Option Expr}
    (atBrace : comparison.AtBrace state)
    (ok : sequenceStep ⟨comparison.first, deeper⟩ noIn state = .ok result after) :
    True ∧ result = none ∧ comparison.AtBrace after := by
  simp only [sequenceStep, run_atPunctuation, atBrace.isPunctuation_eq (by decide : ',' ≠ '{'),
    Bool.false_eq_true, if_false] at ok
  cases ok
  exact ⟨trivial, rfl, atBrace⟩

theorem sequenceStep_related (noIn : Bool) :
    comparison.RelatedUpTo Continues (sequenceStep ⟨comparison.first, deeper⟩ noIn)
      (sequenceStep ⟨comparison.second, deeper'⟩ noIn) := by
  refine (atPunctuation_related ',').bind_eq fun _ => .ite ?_ (.pure rfl)
  refine advance_related.bind fun _ => ?_
  refine (sequenceItem_related levels noIn).bind_loose (fun same => .pure (by simpa using same)) ?_
  intro value state result after _ atBrace ok
  cases ok
  exact ⟨nofun, atBrace⟩

theorem sequenceTail_related (commas noIn : Bool) {first first' : Expr}
    (same : comparison.labels.Same first first') :
    comparison.Loosely (sequenceTail ⟨comparison.first, deeper⟩ commas noIn first)
      (sequenceTail ⟨comparison.second, deeper'⟩ commas noIn first') := by
  have onward := levels.onward
  refine .ite ?_ (.pure same)
  have more := (sequenceStep_related levels noIn).collect_loose fun atBrace ok =>
    atBrace.sequenceStep_eq_none ok
  exact more.bind_pure fun rest => same.sequenceOf rest

omit levels in
theorem AtBrace.sequenceTail_stays {commas noIn : Bool} {first expr : Expr} {state after : State}
    (atBrace : comparison.AtBrace state)
    (ok : sequenceTail ⟨comparison.first, deeper⟩ commas noIn first state = .ok expr after) :
    comparison.AtBrace after := by
  unfold sequenceTail at ok
  split at ok
  case isTrue =>
      obtain ⟨more, between, collected, ok⟩ := bind_eq_ok.mp ok
      cases ok
      exact (RelatedUpTo.collectWithin_atBrace
        (fun atBrace ok => atBrace.sequenceStep_eq_none ok) atBrace collected).2
  case isFalse =>
      cases ok
      exact atBrace

theorem expression_related (commas noIn : Bool) :
    comparison.Loosely (expression ⟨comparison.first, deeper⟩ commas noIn)
      (expression ⟨comparison.second, deeper'⟩ commas noIn) :=
  (sequenceItem_related levels noIn).bind_loose
    (fun same => sequenceTail_related levels commas noIn same)
    fun _ atBrace ok => ⟨trivial, atBrace.sequenceTail_stays ok⟩

theorem parenthesized_related :
    comparison.Related (parenthesized ⟨comparison.first, deeper⟩)
      (parenthesized ⟨comparison.second, deeper'⟩) :=
  (expectPunctuation_related '(').bind fun _ =>
    (expression_related levels true false).bind_expect (by decide) fun same => .pure same

/-! ## Lists, arrays and objects -/

theorem listedExpression_related (holes : Bool) :
    comparison.Loosely (listedExpression ⟨comparison.first, deeper⟩ holes)
      (listedExpression ⟨comparison.second, deeper'⟩ holes) :=
  (atPunctuation_related ',').bind_eq fun _ => .ite (.pure rfl)
    ((expression_related levels false false).bind_pure fun same => by simpa using same)

theorem arguments_related :
    comparison.Related (arguments ⟨comparison.first, deeper⟩)
      (arguments ⟨comparison.second, deeper'⟩) :=
  (listUntil_related (by decide) (listedExpression_related levels false)).bind fun same =>
    .pure same.filterMap_id

theorem listedExpression_trails : comparison.Trails ']'
    (listedExpression ⟨comparison.first, deeper⟩ true)
    (!comparison.first.strict) (!comparison.second.strict) := by
  rcases comparison.strict_eq_or_relaxing with same | relaxing
  · exact .inl (by rw [same])
  · refine .inr ⟨by rw [relaxing.1]; rfl, excused_of_relaxing relaxing, ?_⟩
    intro state value after closing ok
    have kind : state.cursor.current.kind = .punctuation ']' := by
      simpa [Token.isPunctuation] using closing
    have notComma : state.cursor.current.isPunctuation ',' = false := by
      simp [Token.isPunctuation, kind]
    simp only [listedExpression, run_atPunctuation, notComma, Bool.and_false, Bool.false_eq_true,
      if_false] at ok
    obtain ⟨expr, between, passed, -⟩ := bind_eq_ok.mp ok
    have begins := expression_firstToken levels.assignment_firstToken passed
    rw [begins.2.1 ']' (by simp)] at closing
    cases closing

/-- Where the dialects cross, only the second array literal gets a source. -/
theorem array_related {opening opening' : Span}
    (same : comparison.labels.Same opening opening') (begins : comparison.inside opening.stop) :
    comparison.Related (array ⟨comparison.first, deeper⟩ opening)
      (array ⟨comparison.second, deeper'⟩ opening') := by
  simp only [array, scriptArray, bind_assoc, pure_bind, expressionList]
  refine (listUntil_related_of_trails (by decide) (listedExpression_related levels true)
    (listedExpression_trails levels)).bind fun elements =>
      (spanFrom_related same).bind fun span => ?_
  rcases comparison.dialects_cases with ⟨one, two⟩ | ⟨_, _, _, _, one, two⟩ | ⟨one, _, _, two⟩
  · have none := comparison.labels.arraySource_none
    simp only [one, two]
    exact .pure (by simp_all)
  · simp only [one, two]
    refine ⟨inferInstance, ?_⟩
    intro state other alike
    have sources := comparison.arraySource_some_eq (by simp [one]) alike.patches begins
      (alike.fits.places _ (List.mem_cons_self ..)).1 same.stop_eq alike.current.span.origin_eq
    refine .ok ?_ alike
    simp_all [withArraySource, Cursor.offset, Span.start]
  · simp only [one, two]
    have crossing := crossing_of_eq one two
    refine ⟨inferInstance, ?_⟩
    intro state other alike
    refine .ok ?_ alike
    have sources := comparison.arraySource_eq crossing.1 crossing.2 none
    simp_all [withArraySource, ← sources]

omit levels in
theorem propertyName_related : comparison.Related propertyName propertyName := by
  refine token_related.bind fun {found found'} same => ?_
  cases kind : found.kind with
  | number value =>
      have kind' : found'.kind = .number value := same.kind_eq.symm.trans kind
      have texts := same.text_eq (by simp [Token.isNumber, kind])
      simp only [kind', texts]
      exact advance_related.bind fun _ => .pure rfl
  | string value =>
      have kind' : found'.kind = .string value := same.kind_eq.symm.trans kind
      simp only [kind']
      exact advance_related.bind fun _ => .pure rfl
  | _ =>
      have kind' := same.kind_eq.symm.trans kind
      simp only [kind']
      exact expectWord_related

theorem objectEntry_related :
    comparison.Loosely (objectEntry ⟨comparison.first, deeper⟩)
      (objectEntry ⟨comparison.second, deeper'⟩) := by
  refine token_related.bind fun {keyToken keyToken'} same => ?_
  have accessors : accessorKind? keyToken = accessorKind? keyToken' := by
    simp only [accessorKind?, same.isName_eq]
  rw [accessors]
  refine propertyName_related.bind_eq fun key => ?_
  refine (atPunctuation_related ':').bind_eq fun colon => ?_
  split
  · refine propertyName_related.bind_eq fun key => ?_
    refine (function_related levels false same.span).bind fun function => ?_
    exact (spanFrom_related same.span).bind fun span => .pure (by simp_all)
  · refine (expectPunctuation_related ':').bind fun _ => ?_
    exact (expression_related levels false false).bind_pure fun value => by simp_all

omit levels in
theorem objectEntry_trails : comparison.Trails '}' (objectEntry ⟨comparison.first, deeper⟩)
    (!comparison.first.strict) (!comparison.second.strict) := by
  rcases comparison.strict_eq_or_relaxing with same | relaxing
  · exact .inl (by rw [same])
  · refine .inr ⟨by rw [relaxing.1]; rfl, excused_of_relaxing relaxing, ?_⟩
    intro state value after closing ok
    have kind : state.cursor.current.kind = .punctuation '}' := by
      simpa [Token.isPunctuation] using closing
    simp only [objectEntry, run_token] at ok
    obtain ⟨key, between, passed, -⟩ := bind_eq_ok.mp ok
    simp only [propertyName, run_token, kind, expectWord_eq_ok, TokenKind.word?] at passed
    simp at passed

theorem object_related {opening opening' : Span}
    (same : comparison.labels.Same opening opening') :
    comparison.Related (object ⟨comparison.first, deeper⟩ opening)
      (object ⟨comparison.second, deeper'⟩ opening') := by
  refine (listUntil_related_of_trails (by decide) (objectEntry_related levels)
    objectEntry_trails).bind fun entries => ?_
  exact (spanFrom_related same).bind fun span => .pure (by simp_all)

/-! ## Atoms and what follows them -/

theorem subscript_related (calls : Bool) {expr expr' : Expr}
    (same : comparison.labels.Same expr expr') :
    comparison.Related (subscript ⟨comparison.first, deeper⟩ calls expr)
      (subscript ⟨comparison.second, deeper'⟩ calls expr') := by
  refine (atPunctuation_related '.').bind_eq fun _ => .ite ?_ ?_
  · refine advance_related.bind fun _ => expectWord_related.bind_eq fun property => ?_
    exact (spanFrom_related same.exprSpan).bind fun span => .pure (by simp_all)
  · refine (atPunctuation_related '[').bind_eq fun _ => .ite ?_ ?_
    · refine advance_related.bind fun _ => ?_
      refine (expression_related levels true false).bind_expect (by decide) fun index => ?_
      exact (spanFrom_related same.exprSpan).bind fun span => .pure (by simp_all)
    · refine (atPunctuation_related '(').bind_eq fun _ => .ite ?_ (.pure rfl)
      refine advance_related.bind fun _ => (arguments_related levels).bind fun arguments => ?_
      exact (spanFrom_related same.exprSpan).bind fun span => .pure (by simp_all)

theorem subscripts_related (calls : Bool) {expr expr' : Expr}
    (same : comparison.labels.Same expr expr') :
    comparison.Related (subscripts ⟨comparison.first, deeper⟩ calls expr)
      (subscripts ⟨comparison.second, deeper'⟩ calls expr') := by
  have onward := levels.onward
  exact .iterate (fun same => subscript_related levels calls same) same

theorem construction_related {start start' : Span} (same : comparison.labels.Same start start') :
    comparison.Related (construction ⟨comparison.first, deeper⟩ start)
      (construction ⟨comparison.second, deeper'⟩ start') := by
  refine (levels.atom false).bind fun callee => ?_
  refine (atPunctuation_related '(').bind_eq fun _ => .ite ?_ ?_
  · refine advance_related.bind fun _ => (arguments_related levels).bind fun arguments => ?_
    exact (spanFrom_related same).bind fun span => .pure (by simp_all)
  · exact (spanFrom_related same).bind fun span => .pure (by simp_all)

theorem parenthesizedAtom_related {start start' : Span}
    (same : comparison.labels.Same start start') :
    comparison.Related (parenthesizedAtom ⟨comparison.first, deeper⟩ start)
      (parenthesizedAtom ⟨comparison.second, deeper'⟩ start') := by
  refine (expression_related levels true false).bind_expect (by decide) fun inner => ?_
  refine (spanFrom_related same).bind fun span => .pure ?_
  simpa [inner.exprKind] using span

theorem functionAtom_related {start start' : Span} (same : comparison.labels.Same start start') :
    comparison.Related (functionAtom ⟨comparison.first, deeper⟩ start)
      (functionAtom ⟨comparison.second, deeper'⟩ start') := by
  refine (function_related levels false same).bind fun function => ?_
  exact (spanFrom_related same).bind fun span => .pure (by simp_all)

theorem bareAtom_related :
    comparison.Related (bareAtom ⟨comparison.first, deeper⟩)
      (bareAtom ⟨comparison.second, deeper'⟩) := by
  have onward := levels.onward
  have whole : Follows State.Onward (bareAtom ⟨comparison.first, deeper⟩) := inferInstance
  refine .bind_token whole fun inside same => ?_
  rw [same.kind_eq]
  split
  · exact advance_related.bind fun _ => construction_related levels same.span
  · exact advance_related.bind fun _ => parenthesizedAtom_related levels same.span
  · exact advance_related.bind fun _ => array_related levels same.span inside.2
  · exact advance_related.bind fun _ => object_related levels same.span
  · exact advance_related.bind fun _ => functionAtom_related levels same.span
  · split
    case h_1 simple =>
        have unlabeled := fun labels => relabel_of_simpleAtom? labels simple
        exact advance_related.bind fun _ => .pure (by simpa [unlabeled] using same.span)
    case h_2 => exact unexpected_related

theorem atom_related (calls : Bool) :
    comparison.Related (atom ⟨comparison.first, deeper⟩ calls)
      (atom ⟨comparison.second, deeper'⟩ calls) :=
  (bareAtom_related levels).bind fun same => subscripts_related levels calls same

/-! ## Operators -/

omit levels in
theorem applyUnary_related (operator : Operator) (fixity : Fixity) {operand operand' : Expr}
    {start start' : Span} (same : comparison.labels.Same operand operand')
    (sameStart : comparison.labels.Same start start') :
    comparison.Related (applyUnary operator fixity operand start)
      (applyUnary operator fixity operand' start') := by
  unfold applyUnary
  rw [same.isAssignable_eq]
  refine .ite (refuseAt_related sameStart _) ?_
  exact (spanFrom_related sameStart).bind fun span => .pure (by simp_all)

omit levels in
theorem stepAfter_related {expr expr' : Expr} (same : comparison.labels.Same expr expr') :
    comparison.Related (stepAfter expr) (stepAfter expr') := by
  refine token_related.bind fun found => ?_
  rw [found.kind_eq, found.afterLineBreak_eq]
  split
  · refine .ite ?_ (.pure rfl)
    refine advance_related.bind fun _ => (spanFrom_related same.exprSpan).bind fun span => ?_
    exact (applyUnary_related _ _ same span).bind fun result => .pure (by simpa using result)
  · exact .pure rfl

theorem stepped_related (calls : Bool) :
    comparison.Related (stepped ⟨comparison.first, deeper⟩ calls)
      (stepped ⟨comparison.second, deeper'⟩ calls) :=
  (atom_related levels calls).bind fun same =>
    .iterate (fun same => stepAfter_related same) same

theorem unary_related (calls : Bool) :
    comparison.Related (unary ⟨comparison.first, deeper⟩ calls)
      (unary ⟨comparison.second, deeper'⟩ calls) := by
  refine token_related.bind fun found => ?_
  rw [found.kind_eq]
  split
  · refine .ite ?_ (stepped_related levels calls)
    refine advance_related.bind fun _ => (levels.unary calls).bind fun operand => ?_
    exact applyUnary_related _ _ operand found.span
  · exact stepped_related levels calls

omit levels in
theorem applyBinary_related (operator : Operator) {left left' right right' : Expr}
    (sameLeft : comparison.labels.Same left left')
    (sameRight : comparison.labels.Same right right') :
    comparison.Related (applyBinary ⟨comparison.first, deeper⟩ operator left right)
      (applyBinary ⟨comparison.second, deeper'⟩ operator left' right') := by
  refine ⟨inferInstance, ?_⟩
  intro state other alike
  have spans := sameLeft.exprSpan.through sameRight.exprSpan
  rw [run_applyBinary, run_applyBinary]
  refine .ok (by simp_all) ⟨alike.current, alike.upcoming, alike.previousEnd, alike.scope, ?_,
    alike.skipped, alike.fits⟩
  by_cases test : operator = .instanceOf
  · simp only [test, if_true]
    exact comparison.samePatches_append alike.patches sameLeft.exprSpan sameRight.exprSpan
  · simpa [test] using alike.patches

theorem operatorRound_related (noIn : Bool) (least : Nat)
    {tighter tighter' : Nat → Expr → Parser Expr}
    (related : ∀ precedence {operand operand'}, comparison.labels.Same operand operand' →
      comparison.Related (tighter precedence operand) (tighter' precedence operand'))
    {left left' : Expr} (same : comparison.labels.Same left left') :
    comparison.Related (operatorRound ⟨comparison.first, deeper⟩ noIn least tighter left)
      (operatorRound ⟨comparison.second, deeper'⟩ noIn least tighter' left') := by
  refine token_related.bind fun {found found'} sameFound => ?_
  have operators : binaryOperator? noIn least found = binaryOperator? noIn least found' := by
    unfold binaryOperator?
    rw [sameFound.kind_eq]
  rw [operators]
  split
  · exact .pure rfl
  · refine advance_related.bind fun _ => (unary_related levels true).bind fun operand => ?_
    refine (related _ operand).bind fun right => ?_
    exact (applyBinary_related _ same right).bind fun result => .pure (by simpa using result)

theorem climb_related (noIn : Bool) (room least : Nat) {left left' : Expr}
    (same : comparison.labels.Same left left') :
    comparison.Related (climb ⟨comparison.first, deeper⟩ noIn room least left)
      (climb ⟨comparison.second, deeper'⟩ noIn room least left') := by
  have onward := levels.onward
  induction room generalizing least left left' with
  | zero => exact .pure same
  | succ room induction =>
      have tighter : ∀ precedence operand, Follows State.Onward
          (climb ⟨comparison.first, deeper⟩ noIn room precedence operand) :=
        fun precedence operand => climb_obeys _ noIn room precedence operand
      exact .iterate (fun same =>
        operatorRound_related levels noIn least (fun precedence => induction precedence) same) same

theorem operation_related (noIn : Bool) :
    comparison.Related (operation ⟨comparison.first, deeper⟩ noIn)
      (operation ⟨comparison.second, deeper'⟩ noIn) :=
  (unary_related levels true).bind fun same => climb_related levels noIn _ 0 same

theorem conditional_related (noIn : Bool) :
    comparison.Loosely (conditional ⟨comparison.first, deeper⟩ noIn)
      (conditional ⟨comparison.second, deeper'⟩ noIn) := by
  refine (operation_related levels noIn).bind fun test => ?_
  refine (atOperator_related .question).bind_eq fun _ => .ite ?_ (.pure test)
  refine advance_related.bind fun _ => ?_
  refine (expression_related levels false false).bind_expect (by decide) fun consequent => ?_
  refine (expression_related levels false noIn).bind_pure fun alternate => ?_
  have spans := test.exprSpan.through alternate.exprSpan
  simp_all

/-- A brace after the target ends the expression, since no assignment can
follow. -/
theorem assignment_related (noIn : Bool) :
    comparison.Loosely (assignment ⟨comparison.first, deeper⟩ noIn)
      (assignment ⟨comparison.second, deeper'⟩ noIn) := by
  refine token_related.bind fun start => ?_
  refine (conditional_related levels noIn).bind_loose (fun left => ?_) ?_
  · refine token_related.bind fun {found found'} same => ?_
    have operators : assignmentOperator? found = assignmentOperator? found' := by
      unfold assignmentOperator?
      rw [same.kind_eq]
    rw [operators, left.isAssignable_eq]
    split
    · exact .pure left
    · refine .ite ?_ (refuseAt_related start.span _)
      refine advance_related.bind fun _ => (levels.assignment noIn).bind_pure fun value => ?_
      have spans := left.exprSpan.through value.exprSpan
      simp_all
  · intro left state result after _ atBrace ok
    simp only [run_token, assignmentOperator?, atBrace.kind_eq] at ok
    cases ok
    exact ⟨trivial, atBrace⟩

end Qml.Comparison
