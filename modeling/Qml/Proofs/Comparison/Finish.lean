import Qml.Proofs.Comparison.Near
import Qml.Proofs.Comparison.Nesting
import Qml.Proofs.LastSemicolon

/-! # Comparing statements up to where the texts part

The first text ends behind a semicolon and the second goes on, but not with `else`.
A statement that ends there is read as the same thing in both: nothing but a
statement consumes that semicolon, and behind it a parse only looks for `else`, or
for what the end of the first text cannot be. -/

namespace Qml.Comparison

open Qml.Parser Qml.Grammar

/-- The first text ends behind a semicolon, and the second goes on with something
other than `else`. -/
structure Continued (comparison : Comparison) : Prop where
  strict_eq : comparison.first.strict = comparison.second.strict
  declarative : comparison.first.dialect ≠ .script
  closed : comparison.closed
  last : ∃ last, comparison.firstTail = [last] ∧ last.isEnd = true
  following : ∃ next rest, comparison.secondTail = next :: rest ∧ next.isKeyword .else_ = false

variable {comparison : Comparison}

namespace Continued

variable (continued : comparison.Continued)

include continued

theorem firstTail_ne_nil : comparison.firstTail ≠ [] := by
  obtain ⟨last, tail, -⟩ := continued.last
  simp [tail]

variable {state other : State}

theorem closesText (alike : comparison.Alike state other) : state.cursor.ClosesText := by
  obtain ⟨last, tail, isEnd⟩ := continued.last
  obtain ⟨shared, -, ahead, -⟩ := alike.upcoming
  obtain ⟨front, mark, split⟩ := List.eq_nil_or_concat (state.cursor.current :: shared)
    |>.resolve_left (List.cons_ne_nil _ _)
  have remaining : state.cursor.remaining = front ++ [mark, last] := by
    rw [Cursor.remaining, ahead, tail, ← List.cons_append, split]
    simp
  exact .inl ⟨front, mark, last, remaining, alike.fits.semicolon continued.closed remaining tail,
    isEnd⟩

theorem inside (alike : comparison.Alike state other) : state.cursor.Inside := by
  obtain ⟨last, tail, -⟩ := continued.last
  obtain ⟨shared, -, ahead, -⟩ := alike.upcoming
  unfold Cursor.Inside
  simp [ahead, tail]

theorem not_lost (inside : state.cursor.Inside) : ¬ comparison.Lost state := by
  obtain ⟨last, tail, -⟩ := continued.last
  have ahead := List.length_pos_iff.mpr inside
  unfold Lost State.ahead
  simp only [tail, List.length_singleton]
  omega

theorem atEnd (edge : comparison.AtEdge state other) : state.cursor.AtEnd := by
  obtain ⟨last, tail, isEnd⟩ := continued.last
  obtain ⟨current, upcoming⟩ := List.cons.inj (edge.here.trans tail)
  exact ⟨upcoming, by rw [current, isEnd]⟩

end Continued

/-- Two parsers that make the same of the same tokens, also where the first text
ends behind them. -/
structure Finishes {α : Type} [Labeled α] (comparison : Comparison) (parser other : Parser α) :
    Prop where
  exists_ok : ∀ {state state' after value}, comparison.Alike state state' →
    parser state = .ok value after → ∃ value' after', other state' = .ok value' after' ∧
      comparison.labels.Same value value' ∧ comparison.Near after after'

/-- Two parsers that make the same of what they find where the texts part, and do
not consume anything. -/
structure Rests {α : Type} [Labeled α] (comparison : Comparison) (parser other : Parser α) :
    Prop where
  exists_ok : ∀ {state state' after value}, comparison.AtEdge state state' →
    parser state = .ok value after → ∃ value' after', other state' = .ok value' after' ∧
      comparison.labels.Same value value' ∧ comparison.AtEdge after after'

variable {α β : Type} [Labeled α] [Labeled β]

namespace Rests

theorem pure {value other : α} (same : comparison.labels.Same value other) :
    comparison.Rests (pure value) (pure other) := by
  constructor
  intro state state' after result edge ok
  cases ok
  exact ⟨other, state', rfl, same, edge⟩

theorem spanFrom {start start' : Span} (same : comparison.labels.Same start start') :
    comparison.Rests (spanFrom start) (spanFrom start') := by
  constructor
  intro state state' after span edge ok
  cases ok
  exact ⟨_, _, rfl, same.endingAt edge.previousEnd, edge⟩

theorem bind {parser other : Parser α} {next next' : α → Parser β}
    (one : comparison.Rests parser other)
    (two : ∀ {value value'}, comparison.labels.Same value value' →
      comparison.Rests (next value) (next' value')) :
    comparison.Rests (parser >>= next) (other >>= next') := by
  constructor
  intro state state' after result edge ok
  obtain ⟨value, between, first, rest⟩ := bind_eq_ok.mp ok
  obtain ⟨value', between', first', same, edge'⟩ := one.exists_ok edge first
  obtain ⟨result', after', rest', sameResult, edge''⟩ := (two same).exists_ok edge' rest
  exact ⟨result', after', bind_eq_ok.mpr ⟨value', between', first', rest'⟩, sameResult, edge''⟩

theorem of_beginsInside (continued : comparison.Continued) {parser other : Parser α}
    [begins : BeginsInside parser] : comparison.Rests parser other :=
  ⟨fun edge ok => absurd ok (begins.ne_ok (continued.atEnd edge))⟩

theorem of_notElse (continued : comparison.Continued) {left right left' right' : Parser α}
    (rest : comparison.Rests right right') :
    comparison.Rests (atKeyword .else_ >>= fun found => if found then left else right)
      (atKeyword .else_ >>= fun found => if found then left' else right') := by
  constructor
  intro state state' after value edge ok
  obtain ⟨next, more, tail, notElse⟩ := continued.following
  have kind : state.cursor.current.kind = .endOfInput :=
    of_decide_eq_true (continued.atEnd edge).isEnd
  have here : state.cursor.current.isKeyword .else_ = false := by
    simp [Token.isKeyword, kind]
  have there : state'.cursor.current.isKeyword .else_ = false := by
    rw [(List.cons.inj (edge.there.trans tail)).1, notElse]
  simp only [run_atKeyword, here, there, Bool.false_eq_true, if_false] at ok ⊢
  exact rest.exists_ok edge ok

end Rests

namespace Finishes

/-! ## Sequences and choices -/

theorem of_related (continued : comparison.Continued) {parser other : Parser α}
    (related : comparison.Related parser other) [stays : StaysInside parser] :
    comparison.Finishes parser other := by
  constructor
  intro state state' after value alike ok
  have inside := stays.inside (continued.closesText alike) (continued.inside alike) ok
  have here := continued.not_lost inside
  obtain ⟨value', after', ok', same, alike'⟩ := related.exists_ok alike ok here
  exact ⟨value', after', ok', same, .inl alike'⟩

theorem pure {value other : α} (same : comparison.labels.Same value other) :
    comparison.Finishes (pure value) (pure other) := by
  constructor
  intro state state' after result alike ok
  cases ok
  exact ⟨other, state', rfl, same, .inl alike⟩

theorem of_ne_ok {parser other : Parser α}
    (fails : ∀ {state value after}, parser state ≠ .ok value after) :
    comparison.Finishes parser other :=
  ⟨fun _ ok => absurd ok fails⟩

theorem bind {parser other : Parser α} {next next' : α → Parser β}
    (one : comparison.Finishes parser other)
    (two : ∀ {value value'}, comparison.labels.Same value value' →
      comparison.Finishes (next value) (next' value'))
    (rest : ∀ {value value'}, comparison.labels.Same value value' →
      comparison.Rests (next value) (next' value')) :
    comparison.Finishes (parser >>= next) (other >>= next') := by
  constructor
  intro state state' after result alike ok
  obtain ⟨value, between, first, later⟩ := bind_eq_ok.mp ok
  obtain ⟨value', between', first', same, alike' | edge⟩ := one.exists_ok alike first
  · obtain ⟨result', after', later', sameResult, near⟩ := (two same).exists_ok alike' later
    exact ⟨result', after', bind_eq_ok.mpr ⟨value', between', first', later'⟩, sameResult, near⟩
  · obtain ⟨result', after', later', sameResult, edge'⟩ := (rest same).exists_ok edge later
    exact ⟨result', after', bind_eq_ok.mpr ⟨value', between', first', later'⟩, sameResult,
      .inr edge'⟩

/-- What stands before the last part of a statement does not get to the end of the
first text. -/
theorem bind_related (continued : comparison.Continued) {parser other : Parser α}
    {next next' : α → Parser β} (one : comparison.Related parser other)
    [stays : StaysInside parser]
    (two : ∀ {value value'}, comparison.labels.Same value value' →
      comparison.Finishes (next value) (next' value')) :
    comparison.Finishes (parser >>= next) (other >>= next') := by
  constructor
  intro state state' after result alike ok
  obtain ⟨value, between, first, later⟩ := bind_eq_ok.mp ok
  have here := continued.not_lost
    (stays.inside (continued.closesText alike) (continued.inside alike) first)
  obtain ⟨value', between', first', same, alike'⟩ := one.exists_ok alike first here
  obtain ⟨result', after', later', sameResult, near⟩ := (two same).exists_ok alike' later
  exact ⟨result', after', bind_eq_ok.mpr ⟨value', between', first', later'⟩, sameResult, near⟩

theorem bind_related_eq [Unlabeled α] (continued : comparison.Continued) {parser other : Parser α}
    {next next' : α → Parser β} (one : comparison.Related parser other) [StaysInside parser]
    (two : ∀ value, comparison.Finishes (next value) (next' value)) :
    comparison.Finishes (parser >>= next) (other >>= next') := by
  refine bind_related continued one ?_
  intro value value' same
  rw [same.eq]
  exact two value'

theorem ite {condition : Prop} [Decidable condition] {left right left' right' : Parser α}
    (one : comparison.Finishes left left') (two : comparison.Finishes right right') :
    comparison.Finishes (if condition then left else right)
      (if condition then left' else right') := by
  split
  case isTrue => exact one
  case isFalse => exact two

theorem inScope {visit : Visit} (uniform : visit.Uniform) {parser other : Parser α}
    (finishes : comparison.Finishes parser other) :
    comparison.Finishes (inScope visit parser) (inScope visit other) := by
  constructor
  intro state state' after value alike ok
  obtain ⟨inner, parsed, rfl⟩ := inScope_eq_ok.mp ok
  have entered : comparison.Alike { state with scope := visit.enter state.scope }
      { state' with scope := visit.enter state'.scope } :=
    ⟨alike.current, alike.upcoming, alike.previousEnd, uniform.enter alike.scope, alike.patches,
      alike.skipped, alike.fits⟩
  obtain ⟨value', inner', parsed', same, near⟩ := finishes.exists_ok entered parsed
  exact ⟨value', leave visit state' inner', inScope_eq_ok.mpr ⟨inner', parsed', rfl⟩, same,
    near.withScope (uniform.leave alike.scope near.scope)⟩

end Finishes

/-! ## Steps -/

section

variable (continued : comparison.Continued)

include continued

theorem advance_finishes : comparison.Finishes advance advance := by
  constructor
  intro state state' after found alike ok
  cases ok
  exact ⟨_, _, rfl, alike.current, alike.near_advanced continued.firstTail_ne_nil⟩

/-- A token other than a semicolon is not the last of the first text. -/
theorem Alike.advanced_of_other {state other : State} (alike : comparison.Alike state other)
    (notSemicolon : state.cursor.current.isPunctuation ';' = false) :
    comparison.Alike state.advanced other.advanced := by
  refine (alike.near_advanced continued.firstTail_ne_nil).resolve_right fun edge => ?_
  exact (continued.closesText alike).inside_advance_of_inside (continued.inside alike) notSemicolon
    (continued.atEnd edge).upcoming_eq

theorem expectPunctuation_finishes (mark : Char) :
    comparison.Finishes (expectPunctuation mark) (expectPunctuation mark) :=
  .bind_related_eq continued (atPunctuation_related mark) fun _ =>
    .ite (advance_finishes continued) (.of_ne_ok expected_ne_ok)

theorem skipPunctuation_finishes (mark : Char) :
    comparison.Finishes (skipPunctuation mark) (skipPunctuation mark) :=
  .bind_related_eq continued (atPunctuation_related mark) fun _ => .ite
    ((advance_finishes continued).bind (fun _ => .pure rfl) fun _ => .pure rfl) (.pure rfl)

variable {deeper deeper' : Deeper}

theorem semicolon_finishes :
    comparison.Finishes (semicolon ⟨comparison.first, deeper⟩)
      (semicolon ⟨comparison.second, deeper'⟩) := by
  refine .bind_related_eq continued (atPunctuation_related ';') fun _ => .ite ?_ ?_
  · exact (advance_finishes continued).bind (fun _ => .pure rfl) fun _ => .pure rfl
  · exact .of_related continued ((canOmitSemicolon_related continued.strict_eq).bind_eq fun _ =>
      .ite (.pure rfl) unexpected_related)

theorem semicolon_pure_finishes {value value' : α} (same : comparison.labels.Same value value') :
    comparison.Finishes
      (semicolon ⟨comparison.first, deeper⟩ >>= fun _ => Pure.pure value)
      (semicolon ⟨comparison.second, deeper'⟩ >>= fun _ => Pure.pure value') :=
  (semicolon_finishes continued).bind (fun _ => .pure same) fun _ => .pure same

end

/-! ## Statements -/

section

variable (continued : comparison.Continued) {deeper deeper' : Deeper}

include continued

theorem pragma_finishes {state state' after : State} {statement : Statement}
    (alike : comparison.Alike state state')
    (dot : state.cursor.current.isPunctuation ';' = false)
    (word : state.cursor.peek.isPunctuation ';' = false)
    (ok : pragma state = .ok statement after) :
    ∃ statement' after', pragma state' = .ok statement' after' ∧
      comparison.labels.Same statement statement' ∧ comparison.Near after after' := by
  have rest : ∀ {start start' : Span}, comparison.labels.Same start start' → comparison.Finishes
      (expectWord >>= fun name => skipPunctuation ';' >>= fun _ => spanFrom start >>= fun span =>
        pure (⟨.pragma name, span⟩ : Statement))
      (expectWord >>= fun name => skipPunctuation ';' >>= fun _ => spanFrom start' >>= fun span =>
        pure (⟨.pragma name, span⟩ : Statement)) := fun same =>
    .bind_related_eq continued expectWord_related fun name =>
      (skipPunctuation_finishes continued ';').bind
        (fun _ => .of_related continued ((spanFrom_related same).bind fun span =>
          .pure (by simp_all)))
        fun _ => (Rests.spanFrom same).bind fun span => .pure (by simp_all)
  have between := alike.advanced_of_other continued dot
  have behind := between.advanced_of_other continued word
  exact (rest alike.current.span).exists_ok behind ok

theorem statement_finishes (nested : comparison.Finishes deeper.statement deeper'.statement) :
    comparison.Finishes (statement ⟨comparison.first, deeper⟩)
      (statement ⟨comparison.second, deeper'⟩) := by
  rcases comparison.dialects_cases with ⟨one, -⟩ | ⟨_, _, _, _, one, two⟩ | ⟨one, -⟩
  · exact absurd one continued.declarative
  · constructor
    intro state state' after value alike ok
    simp only [statement, one, two, run_takeAwaited, pragmaOr, run_atPunctuation] at ok ⊢
    replace alike := alike.settled
    rw [← alike.current.isPunctuation_eq]
    cases dot : state.settled.cursor.current.isPunctuation '.' with
    | true =>
        have kind : state.settled.cursor.current.kind = .punctuation '.' := of_decide_eq_true dot
        have notSemicolon : state.settled.cursor.current.isPunctuation ';' = false := by
          simp [Token.isPunctuation, kind]
        simp only [dot, if_true, run_peek, (alike.peek_looksLike notSemicolon).1] at ok ⊢
        rw [run_ite] at ok ⊢
        split at ok
        case isTrue word =>
            rw [if_pos word]
            rw [← (alike.peek_looksLike notSemicolon).1] at word
            have kind : state.settled.cursor.peek.kind = .name "pragma" := of_decide_eq_true word
            exact pragma_finishes continued alike notSemicolon
              (by simp [Token.isPunctuation, kind]) ok
        case isFalse => exact absurd ok unexpected_ne_ok
    | false =>
        simp only [dot, Bool.false_eq_true, if_false] at ok ⊢
        exact nested.exists_ok alike ok
  · exact absurd one continued.declarative

end

section

variable {deeper deeper' : Deeper} [deeper.Bounded] (continued : comparison.Continued)
  (levels : comparison.Levels deeper deeper')

include continued levels

theorem value_finishes (kind kind' : Expr → StatementKind)
    (same : ∀ {value value'}, comparison.labels.Same value value' →
      comparison.labels.Same (kind value) (kind' value')) :
    comparison.Finishes
      (expression ⟨comparison.first, deeper⟩ true false >>= fun value =>
        semicolon ⟨comparison.first, deeper⟩ >>= fun _ => pure (kind value))
      (expression ⟨comparison.second, deeper'⟩ true false >>= fun value =>
        semicolon ⟨comparison.second, deeper'⟩ >>= fun _ => pure (kind' value)) :=
  .bind_related continued
    ((expression_related levels true false).tighten (not_crossing continued.declarative))
    fun value => semicolon_pure_finishes continued (same value)

theorem declareTail_finishes (kind : VariableKind) :
    comparison.Finishes (declareTail ⟨comparison.first, deeper⟩ kind)
      (declareTail ⟨comparison.second, deeper'⟩ kind) :=
  .bind_related continued
    ((declarators_related levels false).tighten (not_crossing continued.declarative))
    fun same => semicolon_pure_finishes continued (by simp_all)

/-! ### Jumps -/

omit levels [deeper.Bounded] continued in
theorem checkJump_rests (keyword : Keyword) (label : Option String) :
    comparison.Rests (checkJump keyword label) (checkJump keyword label) := by
  constructor
  intro state state' after value edge ok
  simp only [checkJump, run_scope, ← edge.scope.labels_eq, ← edge.scope.loops_eq] at ok ⊢
  cases label with
  | some name =>
      simp only [run_ite] at ok ⊢
      split at ok
      · cases ok
        exact ⟨(), state', by simp_all [run_pure], rfl, edge⟩
      · exact absurd ok refuse_ne_ok
  | none =>
      simp only [run_ite] at ok ⊢
      split at ok
      · exact absurd ok refuse_ne_ok
      · cases ok
        exact ⟨(), state', by simp_all [run_pure], rfl, edge⟩

omit levels [deeper.Bounded] in
theorem jump_finishes (keyword : Keyword) :
    comparison.Finishes (jump ⟨comparison.first, deeper⟩ keyword)
      (jump ⟨comparison.second, deeper'⟩ keyword) := by
  have label : comparison.Related (jumpLabel ⟨comparison.first, deeper⟩)
      (jumpLabel ⟨comparison.second, deeper'⟩) :=
    (canOmitSemicolon_related continued.strict_eq).bind_eq fun _ =>
      .ite (.pure rfl) (functionName_related false)
  refine .bind_related_eq continued label fun label => ?_
  refine (semicolon_finishes continued).bind (fun _ => ?_) fun _ => ?_
  · exact .of_related continued ((checkJump_related keyword label).bind fun _ => .pure rfl)
  · exact (checkJump_rests keyword label).bind fun _ => .pure rfl

theorem returnTail_finishes (start start' : Span) :
    comparison.Finishes (returnTail ⟨comparison.first, deeper⟩ start)
      (returnTail ⟨comparison.second, deeper'⟩ start') := by
  have value := value_finishes continued levels (fun value => .return_ (some value))
    (fun value => .return_ (some value)) fun value => by simp_all
  have bare : comparison.Finishes (advance >>= fun _ => pure (StatementKind.return_ none))
      (advance >>= fun _ => pure (StatementKind.return_ none)) :=
    (advance_finishes continued).bind (fun _ => .pure rfl) fun _ => .pure rfl
  have omitted : comparison.Finishes (pure (StatementKind.return_ none))
      (pure (StatementKind.return_ none)) := .pure rfl
  constructor
  intro state state' after kind alike ok
  simp only [returnTail, run_scope, ← alike.scope.functions_eq] at ok ⊢
  rw [run_ite] at ok ⊢
  split at ok
  case isTrue => exact absurd ok refuseAt_ne_ok
  case isFalse inFunction =>
      rw [if_neg inFunction]
      refine Finishes.exists_ok ?_ alike ok
      refine .bind_related_eq continued (atPunctuation_related ';') fun _ => .ite bare ?_
      exact .bind_related_eq continued (canOmitSemicolon_related continued.strict_eq) fun _ =>
        .ite omitted value

theorem throwTail_finishes :
    comparison.Finishes (throwTail ⟨comparison.first, deeper⟩)
      (throwTail ⟨comparison.second, deeper'⟩) := by
  refine .bind_related continued token_related fun same => ?_
  rw [same.afterLineBreak_eq]
  exact .ite (.of_ne_ok refuse_ne_ok)
    (value_finishes continued levels .throw .throw fun value => by simp_all)

/-! ### Statements that end with a statement -/

section

variable (nested : comparison.Finishes deeper.statement deeper'.statement)

include nested

omit levels [deeper.Bounded] in
theorem loopBody_finishes :
    comparison.Finishes (loopBody ⟨comparison.first, deeper⟩)
      (loopBody ⟨comparison.second, deeper'⟩) :=
  (statement_finishes continued nested).inScope Scope.uniform_inLoop

omit levels [deeper.Bounded] in
theorem loopBody_pure_finishes {kind kind' : Statement → StatementKind}
    (same : ∀ {body body'}, comparison.labels.Same body body' →
      comparison.labels.Same (kind body) (kind' body')) :
    comparison.Finishes
      (loopBody ⟨comparison.first, deeper⟩ >>= fun body => pure (kind body))
      (loopBody ⟨comparison.second, deeper'⟩ >>= fun body => pure (kind' body)) :=
  (loopBody_finishes continued nested).bind (fun body => .pure (same body))
    fun body => .pure (same body)

theorem doTail_finishes :
    comparison.Finishes (doTail ⟨comparison.first, deeper⟩)
      (doTail ⟨comparison.second, deeper'⟩) := by
  refine (loopBody_finishes continued nested).bind (fun body => ?_)
    fun _ => .of_beginsInside continued
  refine .bind_related continued (expectKeyword_related .while_) fun _ => ?_
  refine .bind_related continued (parenthesized_related levels) fun test => ?_
  exact semicolon_pure_finishes continued (by simp_all)

theorem whileTail_finishes :
    comparison.Finishes (whileTail ⟨comparison.first, deeper⟩)
      (whileTail ⟨comparison.second, deeper'⟩) :=
  .bind_related continued (parenthesized_related levels) fun test =>
    loopBody_pure_finishes continued nested fun body => by simp_all

theorem forInTail_finishes (start start' : Span) {left left' : Statement}
    (sameLeft : comparison.labels.Same left left') :
    comparison.Finishes (forInTail ⟨comparison.first, deeper⟩ start left)
      (forInTail ⟨comparison.second, deeper'⟩ start' left') := by
  have straight := not_crossing continued.declarative
  unfold forInTail
  rw [sameLeft.declaresSeveral_eq]
  refine .ite (.of_ne_ok refuseAt_ne_ok) ?_
  refine (advance_finishes continued).bind (fun _ => ?_) fun _ => .of_beginsInside continued
  refine .bind_related continued ((expression_related levels true false).tighten straight)
    fun right => ?_
  refine .bind_related continued (expectPunctuation_related ')') fun _ => ?_
  exact loopBody_pure_finishes continued nested fun body => by simp_all

theorem forClauses_finishes {init init' : Option Statement}
    (same : comparison.labels.Same init init') :
    comparison.Finishes (forClauses ⟨comparison.first, deeper⟩ init)
      (forClauses ⟨comparison.second, deeper'⟩ init') := by
  have straight := not_crossing continued.declarative
  have optional := fun mark => (optionalExpression_related levels mark).tighten straight
  refine (expectPunctuation_finishes continued ';').bind (fun _ => ?_)
    fun _ => .of_beginsInside continued
  refine .bind_related continued (optional ';') fun test => ?_
  refine (expectPunctuation_finishes continued ';').bind (fun _ => ?_)
    fun _ => .of_beginsInside continued
  refine .bind_related continued (optional ')') fun update => ?_
  refine .bind_related continued (expectPunctuation_related ')') fun _ => ?_
  exact loopBody_pure_finishes continued nested fun body => by simp_all

theorem forTail_finishes :
    comparison.Finishes (forTail ⟨comparison.first, deeper⟩)
      (forTail ⟨comparison.second, deeper'⟩) := by
  have straight := not_crossing continued.declarative
  refine .bind_related continued (expectPunctuation_related '(') fun _ => ?_
  refine .bind_related continued token_related fun start => ?_
  rw [start.isPunctuation_eq]
  refine .ite (forClauses_finishes continued levels nested rfl) ?_
  refine .bind_related continued ((forInit_related levels).tighten straight) fun init => ?_
  refine .bind_related_eq continued (atOperator_related .in_) fun _ => .ite ?_ ?_
  · exact forInTail_finishes continued levels nested _ _ init
  · exact forClauses_finishes continued levels nested (by simpa using init)

theorem ifTail_finishes :
    comparison.Finishes (ifTail ⟨comparison.first, deeper⟩)
      (ifTail ⟨comparison.second, deeper'⟩) := by
  have alternate := statement_finishes continued nested
  refine .bind_related continued (parenthesized_related levels) fun test => ?_
  refine (statement_finishes continued nested).bind (fun consequent => ?_) fun consequent => ?_
  · refine .bind_related_eq continued (atKeyword_related .else_) fun _ =>
      .ite ?_ (.pure (by simp_all))
    refine (advance_finishes continued).bind (fun _ => ?_) fun _ => .of_beginsInside continued
    exact alternate.bind (fun alternate => .pure (by simp_all)) fun alternate => .pure (by simp_all)
  · exact .of_notElse continued (.pure (by simp_all))

theorem withTail_finishes :
    comparison.Finishes (withTail ⟨comparison.first, deeper⟩)
      (withTail ⟨comparison.second, deeper'⟩) :=
  .bind_related continued (parenthesized_related levels) fun object =>
    (statement_finishes continued nested).bind (fun body => .pure (by simp_all))
      fun body => .pure (by simp_all)

/-! ### All statements -/

theorem keywordStatement_finishes (keyword : Keyword) {start start' : Span}
    (same : comparison.labels.Same start start') :
    comparison.Finishes (keywordStatement ⟨comparison.first, deeper⟩ keyword start)
      (keywordStatement ⟨comparison.second, deeper'⟩ keyword start') := by
  have jumps : ∀ kind : Option String → StatementKind,
      (∀ label, comparison.labels.Same (kind label) (kind label)) → comparison.Finishes
        (jump ⟨comparison.first, deeper⟩ keyword >>= fun label => pure (kind label))
        (jump ⟨comparison.second, deeper'⟩ keyword >>= fun label => pure (kind label)) := by
    intro kind unlabeled
    refine (jump_finishes continued keyword).bind (fun labels => ?_) fun labels => ?_
    · rw [labels.eq]
      exact .pure (unlabeled _)
    · rw [labels.eq]
      exact .pure (unlabeled _)
  have switch : comparison.Finishes (switchTail ⟨comparison.first, deeper⟩)
      (switchTail ⟨comparison.second, deeper'⟩) := .of_related continued (switchTail_related levels)
  have guarded : comparison.Finishes (tryTail ⟨comparison.first, deeper⟩)
      (tryTail ⟨comparison.second, deeper'⟩) := .of_related continued (tryTail_related levels)
  cases keyword with
  | break_ => exact jumps .break_ fun _ => rfl
  | continue_ => exact jumps .continue_ fun _ => rfl
  | debugger => exact semicolon_pure_finishes continued rfl
  | do_ => exact doTail_finishes continued levels nested
  | for_ => exact forTail_finishes continued levels nested
  | function =>
      exact Finishes.bind_related continued (function_related levels true same)
        fun function => .pure (by simp_all)
  | if_ => exact ifTail_finishes continued levels nested
  | return_ => exact returnTail_finishes continued levels start start'
  | switch => exact switch
  | throw => exact throwTail_finishes continued levels
  | try_ => exact guarded
  | var => exact declareTail_finishes continued levels .var
  | const => exact declareTail_finishes continued levels .const
  | while_ => exact whileTail_finishes continued levels nested
  | with_ => exact withTail_finishes continued levels nested
  | case_ | catch_ | default | else_ | finally_ => exact .of_ne_ok refuseAt_ne_ok

omit levels nested [deeper.Bounded] in
theorem spanned_finishes {parser other : Parser α} {kind kind' : α → StatementKind}
    {start start' : Span} (finishes : comparison.Finishes parser other)
    (same : comparison.labels.Same start start')
    (kinds : ∀ {value value'}, comparison.labels.Same value value' →
      comparison.labels.Same (kind value) (kind' value')) :
    comparison.Finishes
      (parser >>= fun value => spanFrom start >>= fun span => pure (⟨kind value, span⟩ : Statement))
      (other >>= fun value => spanFrom start' >>= fun span =>
        pure (⟨kind' value, span⟩ : Statement)) := by
  have made : ∀ {value value' span span'}, comparison.labels.Same value value' →
      comparison.labels.Same span span' → comparison.labels.Same (⟨kind value, span⟩ : Statement)
        ⟨kind' value', span'⟩ := fun values spans => by
    have kinds := kinds values
    simp_all
  refine finishes.bind (fun values => ?_) fun values => ?_
  · exact .of_related continued
      ((spanFrom_related same).bind fun spans => .pure (made values spans))
  · exact (Rests.spanFrom same).bind fun spans => .pure (made values spans)

omit nested in
theorem simpleStatement_finishes :
    comparison.Finishes (simpleStatement ⟨comparison.first, deeper⟩)
      (simpleStatement ⟨comparison.second, deeper'⟩) := by
  refine .bind_related continued token_related fun start => ?_
  refine .bind_related continued
    ((expression_related levels true false).tighten (not_crossing continued.declarative))
    fun value => ?_
  exact spanned_finishes continued (semicolon_finishes continued) start.span fun _ => by simp_all

omit levels [deeper.Bounded] in
theorem labeledStatement_finishes (label : String) {start start' : Span}
    (same : comparison.labels.Same start start') :
    comparison.Finishes (labeledStatement ⟨comparison.first, deeper⟩ label start)
      (labeledStatement ⟨comparison.second, deeper'⟩ label start') :=
  spanned_finishes continued
    ((statement_finishes continued nested).inScope (Scope.uniform_inLabel label)) same
    fun body => by simp_all

theorem anyStatement_finishes :
    comparison.Finishes (anyStatement ⟨comparison.first, deeper⟩)
      (anyStatement ⟨comparison.second, deeper'⟩) := by
  constructor
  intro state state' after value alike ok
  have start := alike.current
  simp only [anyStatement, run_token, ← start.kind_eq] at ok ⊢
  generalize kindEq : state.cursor.current.kind = kind at ok ⊢
  split at ok
  case h_1 label =>
      have notSemicolon : state.cursor.current.isPunctuation ';' = false := by
        simp [Token.isPunctuation, kindEq]
      simp only [run_peek, ← (alike.peek_looksLike notSemicolon).2.1] at ok ⊢
      by_cases colon : state.cursor.peek.isPunctuation ':' = true
      case pos =>
          rw [if_pos colon] at ok ⊢
          have colonKind : state.cursor.peek.kind = .punctuation ':' := of_decide_eq_true colon
          have onColon := alike.advanced_of_other continued notSemicolon
          have behind := onColon.advanced_of_other continued
            (by simp [Token.isPunctuation, Cursor.advance, colonKind])
          exact (labeledStatement_finishes continued nested label start.span).exists_ok behind ok
      case neg =>
          rw [if_neg colon] at ok ⊢
          exact (simpleStatement_finishes continued levels).exists_ok alike ok
  case h_2 keyword =>
      have behind := alike.advanced_of_other continued (by simp [Token.isPunctuation, kindEq])
      have kind := keywordStatement_finishes continued levels nested keyword start.span
      exact (spanned_finishes continued kind start.span fun same => same).exists_ok behind ok
  case h_3 =>
      refine Finishes.exists_ok ?_ alike ok
      exact spanned_finishes continued (.of_related continued (block_related levels)) start.span
        fun body => by simp_all
  case h_4 =>
      refine Finishes.exists_ok ?_ alike ok
      exact (advance_finishes continued).bind (fun _ => .pure (by simpa using start.span))
        fun _ => .pure (by simpa using start.span)
  all_goals first
    | exact (simpleStatement_finishes continued levels).exists_ok alike ok
    | exact absurd ok unexpected_ne_ok

end

end

theorem within_finishes (continued : comparison.Continued) (room : Nat) :
    comparison.Finishes (Deeper.within comparison.first room).statement
      (Deeper.within comparison.second room).statement := by
  induction room with
  | zero => exact .of_ne_ok refuse_ne_ok
  | succ room induction =>
      exact (anyStatement_finishes continued (levels_within (.inl rfl)) induction).inScope
        Scope.uniform_deeper

end Qml.Comparison
