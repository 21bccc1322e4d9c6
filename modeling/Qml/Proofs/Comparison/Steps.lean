import Qml.Proofs.Comparison.Basic

/-! # Comparing the steps of parsers

What two parsers have in common follows from what their steps have: sequences
and choices of parsers, the steps that look at tokens and consume them, parsing
in another context, and repetition. -/

namespace Qml.Comparison

open Qml.Parser

variable {comparison : Comparison} {α β : Type} [Labeled α] [Labeled β]

/-! ## Outcomes -/

theorem Alike.not_lost {state other : State} (alike : comparison.Alike state other) :
    ¬ comparison.Lost state := by
  obtain ⟨shared, shared', ahead, -, -⟩ := alike.upcoming
  unfold Lost State.ahead
  rw [ahead, List.length_append]
  omega

theorem excused_of_lost {state : State} (lost : comparison.Lost state) (cause : Cause) :
    comparison.excused cause := by
  apply comparison.excused_of_tail
  intro none
  unfold Lost at lost
  rw [none] at lost
  exact Nat.not_lt_zero _ lost

theorem excused_of_relaxing (relaxing : comparison.Relaxing) (cause : Cause) :
    comparison.excused cause :=
  comparison.excused_of_strict relaxing.1 relaxing.2 cause

theorem strict_eq_or_relaxing (comparison : Comparison) :
    comparison.first.strict = comparison.second.strict ∨ comparison.Relaxing := by
  have implies := comparison.strict_of_strict
  unfold Relaxing
  cases first : comparison.first.strict <;> cases second : comparison.second.strict <;> simp_all

theorem excused_of_crossing (crossing : comparison.Crossing) (cause : Cause) :
    comparison.excused cause :=
  comparison.excused_of_script crossing.1 crossing.2 cause

theorem Agrees.of_lost {loose : α → Prop} {parser : Parser α} {state : State}
    {outcome : EStateM.Result Fault State α} (onward : Follows State.Onward parser)
    (lost : comparison.Lost state) : comparison.Agrees loose (parser state) outcome := by
  cases parsed : parser state with
  | ok value after => exact .lost (Nat.lt_of_le_of_lt (onward.of_ok parsed) lost)
  | error fault after => exact .excused (excused_of_lost lost _)

theorem Agrees.of_ne_ok {loose : α → Prop} {parser : Parser α} {state : State}
    {outcome : EStateM.Result Fault State α} (excused : ∀ cause, comparison.excused cause)
    (fails : ∀ value after, parser state ≠ .ok value after) :
    comparison.Agrees loose (parser state) outcome := by
  cases parsed : parser state with
  | ok value after => exact absurd parsed (fails value after)
  | error fault after => exact .excused (excused _)

/-- Before a brace nothing is compared, provided that the first parse fails or
does not go on. -/
theorem Agrees.of_atBrace {loose : α → Prop} {parser : Parser α} {state : State}
    {outcome : EStateM.Result Fault State α} (atBrace : comparison.AtBrace state)
    (stays : ∀ {value after}, parser state = .ok value after →
      loose value ∧ comparison.AtBrace after) :
    comparison.Agrees loose (parser state) outcome := by
  cases parsed : parser state with
  | ok value after =>
      obtain ⟨isLoose, still⟩ := stays parsed
      exact .atBrace isLoose still
  | error fault after => exact .excused (excused_of_crossing atBrace.crossing _)

theorem Agrees.bind {loose : α → Prop} {loose' : β → Prop} {first second : Parser α}
    {next next' : α → Parser β} {state other : State}
    (outcomes : comparison.Agrees loose (first state) (second other))
    (onward : ∀ value, Follows State.Onward (next value))
    (same : ∀ {value value' after after'}, first state = .ok value after →
      comparison.labels.Same value value' → comparison.Alike after after' →
        comparison.Agrees loose' (next value after) (next' value' after'))
    (stays : ∀ {value after result last}, loose value → comparison.AtBrace after →
      next value after = .ok result last → loose' result ∧ comparison.AtBrace last) :
    comparison.Agrees loose' ((first >>= next) state) ((second >>= next') other) := by
  change comparison.Agrees loose' (EStateM.bind first next state) (EStateM.bind second next' other)
  unfold EStateM.bind
  generalize first state = outcome at outcomes same
  generalize second other = outcome' at outcomes
  cases outcomes with
  | ok values alike => exact same rfl values alike
  | lost lost => exact .of_lost (onward _) lost
  | atBrace isLoose atBrace => exact .of_atBrace atBrace fun ok => stays isLoose atBrace ok
  | error causes positions skipped => exact .error causes positions skipped
  | excused excused => exact .excused excused

namespace RelatedUpTo

variable {loose : α → Prop} {loose' : β → Prop}

/-! ## Sequences and choices -/

theorem pure {value other : α} (same : comparison.labels.Same value other) :
    comparison.RelatedUpTo loose (pure value) (pure other) :=
  ⟨inferInstance, fun alike => .ok same alike⟩

theorem mono {wider : α → Prop} {parser other : Parser α}
    (related : comparison.RelatedUpTo loose parser other)
    (wide : ∀ value, comparison.Crossing → loose value → wider value) :
    comparison.RelatedUpTo wider parser other := by
  refine ⟨related.onward, ?_⟩
  intro state state' alike
  have outcomes := related.agrees alike
  generalize parser state = outcome at outcomes
  generalize other state' = outcome' at outcomes
  cases outcomes with
  | ok same alike => exact .ok same alike
  | lost lost => exact .lost lost
  | atBrace isLoose atBrace => exact .atBrace (wide _ atBrace.crossing isLoose) atBrace
  | error causes positions skipped => exact .error causes positions skipped
  | excused excused => exact .excused excused

theorem loosen {parser other : Parser α} (related : comparison.Related parser other) :
    comparison.RelatedUpTo loose parser other :=
  related.mono fun _ _ => False.elim

theorem tighten {parser other : Parser α} (related : comparison.RelatedUpTo loose parser other)
    (straight : ¬ comparison.Crossing) : comparison.Related parser other :=
  related.mono fun _ crossing => absurd crossing straight

theorem exists_ok {parser other : Parser α} (related : comparison.Related parser other)
    {state state' after : State} {value : α} (alike : comparison.Alike state state')
    (ok : parser state = .ok value after) (here : ¬ comparison.Lost after) :
    ∃ value' after', other state' = .ok value' after' ∧
      comparison.labels.Same value value' ∧ comparison.Alike after after' := by
  have outcomes := related.agrees alike
  rw [ok] at outcomes
  generalize other state' = outcome at outcomes
  cases outcomes with
  | ok same alike => exact ⟨_, _, rfl, same, alike⟩
  | lost lost => exact absurd lost here
  | atBrace isLoose _ => exact isLoose.elim

/-- After a parser that may end before a brace, the first parse has to fail
there or to stay. -/
theorem bind_loose {parser other : Parser α} {next next' : α → Parser β}
    (one : comparison.RelatedUpTo loose parser other)
    (two : ∀ {value value'}, comparison.labels.Same value value' →
      comparison.RelatedUpTo loose' (next value) (next' value'))
    (stays : ∀ {value state result after}, loose value → comparison.AtBrace state →
      next value state = .ok result after → loose' result ∧ comparison.AtBrace after) :
    comparison.RelatedUpTo loose' (parser >>= next) (other >>= next') := by
  have onward : ∀ value, Follows State.Onward (next value) :=
    comparison.labels.forall_of_same fun same => (two same).onward
  refine ⟨one.onward.bind onward, ?_⟩
  intro state state' alike
  exact (one.agrees alike).bind onward (fun _ same alike => (two same).agrees alike) stays

theorem bind {parser other : Parser α} {next next' : α → Parser β}
    (one : comparison.Related parser other)
    (two : ∀ {value value'}, comparison.labels.Same value value' →
      comparison.RelatedUpTo loose' (next value) (next' value')) :
    comparison.RelatedUpTo loose' (parser >>= next) (other >>= next') :=
  one.bind_loose two fun impossible => impossible.elim

theorem bind_eq [Unlabeled α] {parser other : Parser α} {next next' : α → Parser β}
    (one : comparison.Related parser other)
    (two : ∀ value, comparison.RelatedUpTo loose' (next value) (next' value)) :
    comparison.RelatedUpTo loose' (parser >>= next) (other >>= next') := by
  apply one.bind
  intro value value' same
  rw [same.eq]
  exact two value'

theorem ite {condition : Prop} [Decidable condition] {left right left' right' : Parser α}
    (one : comparison.RelatedUpTo loose left left')
    (two : comparison.RelatedUpTo loose right right') :
    comparison.RelatedUpTo loose (if condition then left else right)
      (if condition then left' else right') := by
  split
  case isTrue => exact one
  case isFalse => exact two

end RelatedUpTo

/-! ## Looking and moving -/

/-- The tokens after the current one are shared, or the rest are the tails. -/
theorem Alike.next {state other : State} (alike : comparison.Alike state other) :
    (state.cursor.upcoming = comparison.firstTail ∧
      other.cursor.upcoming = comparison.secondTail) ∨
    ∃ token token' shared shared',
      state.cursor.upcoming = token :: (shared ++ comparison.firstTail) ∧
      other.cursor.upcoming = token' :: (shared' ++ comparison.secondTail) ∧
      comparison.labels.Same token token' ∧ comparison.labels.Same shared shared' := by
  obtain ⟨shared, shared', ahead, ahead', same⟩ := alike.upcoming
  cases shared with
  | nil =>
      have none : shared' = [] := by simpa using same.symm
      subst none
      exact .inl ⟨ahead, ahead'⟩
  | cons token rest =>
      cases shared' with
      | nil => simp at same
      | cons token' rest' =>
          obtain ⟨head, tail⟩ := List.cons.inj same.relabel_eq
          exact .inr ⟨token, token', rest, rest', ahead, ahead', head, tail⟩

theorem looksLike_of_same {labels : Labels} {token other : Token}
    (same : labels.Same token other) : token.LooksLike other :=
  ⟨same.isName_eq, same.isPunctuation_eq ':', same.isString_eq⟩

theorem same_onSameLine {labels : Labels} {token other : Token}
    (same : labels.Same token other) :
    labels.Same { token with afterLineBreak := false } { other with afterLineBreak := false } := by
  have moved := congrArg (fun token : Token => Token.mk token.kind token.span false token.text)
    same.relabel_eq
  exact moved

theorem Alike.peek_looksLike {state other : State} (alike : comparison.Alike state other)
    (notSemicolon : state.cursor.current.isPunctuation ';' = false) :
    state.cursor.peek.LooksLike other.cursor.peek := by
  rcases alike.next with ⟨ahead, ahead'⟩ | ⟨token, token', shared, shared', ahead, ahead', same, -⟩
  · unfold Cursor.peek
    rw [ahead, ahead']
    cases tail : comparison.firstTail with
    | nil =>
        rw [comparison.secondTail_eq_nil tail]
        exact looksLike_of_same (same_onSameLine alike.current)
    | cons token rest =>
        cases tail' : comparison.secondTail with
        | nil => exact absurd tail' (comparison.secondTail_ne_nil (by simp [tail]))
        | cons token' rest' =>
            refine (comparison.looksLike tail tail').resolve_left fun closed => ?_
            have remaining : state.cursor.remaining =
                [] ++ state.cursor.current :: token :: rest := by
              rw [← tail, ← ahead]
              rfl
            have isSemicolon := alike.fits.semicolon closed remaining tail
            rw [notSemicolon] at isSemicolon
            cases isSemicolon
  · unfold Cursor.peek
    rw [ahead, ahead']
    exact looksLike_of_same same

/-- The end of the text stays the current token on the same line, so that no line
break comes up that was not ahead. -/
theorem Fits.advance {cursor : Cursor} (fits : comparison.Fits cursor.remaining) :
    comparison.Fits cursor.advance.remaining := by
  cases ahead : cursor.upcoming with
  | nil =>
      have only : cursor.advance.remaining = [cursor.peek] := by
        simp [Cursor.remaining, Cursor.advance, ahead]
      rw [only]
      refine ⟨?_, fun _ => .singleton _, ?_, ?_⟩
      · intro _ _ token member _
        rw [List.mem_singleton.mp member]
        simp [Cursor.peek, ahead]
      · intro _ front last token rest long
        have lengths := congrArg List.length long
        simp only [List.length_append, List.length_cons, List.length_nil] at lengths
        omega
      · intro token member
        rw [List.mem_singleton.mp member]
        have here := fits.places cursor.current (List.mem_cons_self ..)
        simpa [Cursor.peek, ahead] using here
  | cons next rest =>
      have later : cursor.advance.remaining = cursor.upcoming := by
        simp [Cursor.remaining, Cursor.advance, Cursor.peek, ahead]
      rw [later]
      refine ⟨?_, fun relaxing => (fits.jumps relaxing).tail, ?_, ?_⟩
      · intro crossing relaxed token member
        exact fits.braces crossing relaxed token (List.mem_cons_of_mem _ member)
      · intro closed front last token rest aheadEq
        have wholeEq : cursor.remaining = (cursor.current :: front) ++ last :: token :: rest :=
          congrArg (cursor.current :: ·) aheadEq
        exact fits.semicolon closed wholeEq
      · exact fun token member => fits.places token (List.mem_cons_of_mem _ member)

theorem Alike.advanced {state other : State} (alike : comparison.Alike state other) :
    comparison.Lost state.advanced ∨ comparison.Alike state.advanced other.advanced := by
  have stops := alike.current.span.stop_eq
  rcases alike.next with
    ⟨ahead, ahead'⟩ | ⟨token, token', shared, shared', ahead, ahead', same, rest⟩
  · cases tail : comparison.firstTail with
    | nil =>
        have tail' := comparison.secondTail_eq_nil tail
        rw [tail] at ahead
        rw [tail'] at ahead'
        right
        have kept : comparison.labels.Same state.cursor.peek other.cursor.peek := by
          simp only [Cursor.peek, ahead, ahead']
          exact same_onSameLine alike.current
        refine ⟨kept, ⟨[], [], ?_, ?_, rfl⟩, stops, alike.scope, alike.patches, alike.skipped,
          alike.fits.advance⟩
        · simp [Cursor.advance, ahead, tail]
        · simp [Cursor.advance, ahead', tail']
    | cons boundary after =>
        left
        unfold Lost
        rw [State.advanced_ahead]
        unfold State.ahead
        rw [ahead, tail]
        simp
  · right
    have peeked : state.cursor.peek = token := by simp [Cursor.peek, ahead]
    have peeked' : other.cursor.peek = token' := by simp [Cursor.peek, ahead']
    refine ⟨?_, ⟨shared, shared', ?_, ?_, rest⟩, stops, alike.scope, alike.patches, alike.skipped,
      alike.fits.advance⟩
    · simp only [State.advanced_cursor, Cursor.advance, peeked, peeked']
      exact same
    · simp [Cursor.advance, ahead]
    · simp [Cursor.advance, ahead']

theorem token_related : comparison.Related token token :=
  ⟨inferInstance, fun alike => .ok alike.current alike⟩

theorem advance_related : comparison.Related advance advance := by
  refine ⟨inferInstance, ?_⟩
  intro state other alike
  rcases alike.advanced with lost | advanced
  · exact .lost lost
  · exact .ok alike.current advanced

theorem spanFrom_related {start start' : Span} (same : comparison.labels.Same start start') :
    comparison.Related (spanFrom start) (spanFrom start') :=
  ⟨inferInstance, fun alike => .ok (same.endingAt alike.previousEnd) alike⟩

namespace RelatedUpTo

variable {loose : α → Prop}

/-- What follows a look at the next token may rely on the current one. -/
theorem bind_token_peek {next next' : Token → Token → Parser α}
    (two : ∀ {start start' found found'}, comparison.labels.Same start start' →
      (start.isPunctuation ';' = false → found.LooksLike found') →
      comparison.RelatedUpTo loose (next start found) (next' start' found')) :
    comparison.RelatedUpTo loose (token >>= fun start => peek >>= next start)
      (token >>= fun start => peek >>= next' start) := by
  have onward : ∀ start found, Follows State.Onward (next start found) :=
    comparison.labels.forall_of_same fun same found => (two same fun _ => .refl found).onward
  exact ⟨inferInstance, fun alike => (two alike.current alike.peek_looksLike).agrees alike⟩

theorem bind_offset {next next' : Nat → Parser α}
    [onward : ∀ place, Follows State.Onward (next place)]
    (two : ∀ {place place' : Position}, comparison.inside place.offset →
      comparison.labels.first.position place = comparison.labels.second.position place' →
        comparison.RelatedUpTo loose (next place.offset) (next' place'.offset)) :
    comparison.RelatedUpTo loose (offset >>= next) (offset >>= next') := by
  refine ⟨inferInstance, ?_⟩
  intro state other alike
  have inside := (alike.fits.places _ (List.mem_cons_self ..)).1
  exact (two inside alike.current.span.origin_eq).agrees alike

theorem bind_token {next next' : Token → Parser α}
    (onward : Follows State.Onward (token >>= next))
    (two : ∀ {found found' : Token},
      comparison.inside found.span.start ∧ comparison.inside found.span.stop →
        comparison.labels.Same found found' →
          comparison.RelatedUpTo loose (next found) (next' found')) :
    comparison.RelatedUpTo loose (token >>= next) (token >>= next') := by
  refine ⟨onward, ?_⟩
  intro state other alike
  have inside := alike.fits.places _ (List.mem_cons_self ..)
  exact (two inside alike.current).agrees alike

/-! ## Context -/

theorem bind_scope {next next' : Scope → Parser α}
    (two : ∀ {scope scope'}, scope.Agrees scope' →
      comparison.RelatedUpTo loose (next scope) (next' scope')) :
    comparison.RelatedUpTo loose (scope >>= next) (scope >>= next') := by
  refine ⟨Obeys.bind inferInstance fun scope => (two (.refl scope)).onward, ?_⟩
  intro state other alike
  exact (two alike.scope).agrees alike

theorem inScope {visit : Visit} (uniform : visit.Uniform)
    {parser other : Parser α} (related : comparison.RelatedUpTo loose parser other) :
    comparison.RelatedUpTo loose (inScope visit parser) (inScope visit other) := by
  have onward := related.onward
  refine ⟨inferInstance, ?_⟩
  intro state state' alike
  have entered : comparison.Alike { state with scope := visit.enter state.scope }
      { state' with scope := visit.enter state'.scope } :=
    ⟨alike.current, alike.upcoming, alike.previousEnd, uniform.enter alike.scope, alike.patches,
      alike.skipped, alike.fits⟩
  have outcomes := related.agrees entered
  unfold Parser.inScope
  generalize parser { state with scope := visit.enter state.scope } = outcome at outcomes
  generalize other { state' with scope := visit.enter state'.scope } = outcome' at outcomes
  cases outcomes with
  | ok same inner =>
      exact .ok same ⟨inner.current, inner.upcoming, inner.previousEnd,
        uniform.leave alike.scope inner.scope, inner.patches, inner.skipped, inner.fits⟩
  | lost lost => exact .lost lost
  | atBrace isLoose atBrace =>
      exact .atBrace isLoose ⟨atBrace.crossing, atBrace.brace, atBrace.sameLine⟩
  | error causes positions skipped => exact .error causes positions skipped
  | excused excused => exact .excused excused

end RelatedUpTo

theorem Alike.settled {state other : State} (alike : comparison.Alike state other) :
    comparison.Alike state.settled other.settled :=
  ⟨alike.current, alike.upcoming, alike.previousEnd, alike.scope, alike.patches, alike.skipped,
    alike.fits⟩

theorem Alike.settled_right {state other : State} (alike : comparison.Alike state other) :
    comparison.Alike state other.settled :=
  ⟨alike.current, alike.upcoming, alike.previousEnd, alike.scope, alike.patches, alike.skipped,
    alike.fits⟩

theorem RelatedUpTo.bind_takeAwaited {loose : α → Prop} {parser other : Parser α}
    (related : comparison.RelatedUpTo loose parser other) :
    comparison.RelatedUpTo loose (takeAwaited >>= fun _ => parser)
      (takeAwaited >>= fun _ => other) :=
  ⟨Obeys.bind inferInstance fun _ => related.onward, fun alike => related.agrees alike.settled⟩

theorem enterStringKeys_related : comparison.Related enterStringKeys enterStringKeys :=
  ⟨inferInstance, fun alike => .ok rfl ⟨alike.current, alike.upcoming, alike.previousEnd,
    alike.scope.withStringKeys, alike.patches, alike.skipped, alike.fits⟩⟩

/-! ## Failing -/

variable {loose : α → Prop}

theorem fail_related (cause : Cause) {position position' : Position}
    (same : comparison.labels.first.position position =
      comparison.labels.second.position position') :
    comparison.RelatedUpTo loose (fail cause position : Parser α) (fail cause position') :=
  ⟨inferInstance, fun alike => .error rfl same alike.skipped⟩

theorem mismatch_eq {labels : Labels} {found found' : Token} (same : labels.Same found found')
    (expected : Option String) : mismatch found expected = mismatch found' expected := by
  unfold mismatch
  rw [same.kind_eq]

theorem unexpected_related :
    comparison.RelatedUpTo loose (unexpected : Parser α) unexpected := by
  refine token_related.bind fun same => ?_
  rw [mismatch_eq same]
  exact fail_related _ same.span.origin_eq

theorem expected_related (what : String) :
    comparison.RelatedUpTo loose (expected what : Parser α) (expected what) := by
  refine token_related.bind fun same => ?_
  rw [mismatch_eq same]
  exact fail_related _ same.span.origin_eq

theorem refuseAt_related {place place' : Span} (same : comparison.labels.Same place place')
    (rule : BrokenRule) :
    comparison.RelatedUpTo loose (refuseAt place rule : Parser α) (refuseAt place' rule) :=
  fail_related _ same.origin_eq

theorem refuse_related (rule : BrokenRule) :
    comparison.RelatedUpTo loose (refuse rule : Parser α) (refuse rule) :=
  token_related.bind fun same => refuseAt_related same.span rule

/-! ## Single tokens -/

theorem atPunctuation_related (mark : Char) :
    comparison.Related (atPunctuation mark) (atPunctuation mark) :=
  token_related.bind fun same => .pure (same.isPunctuation_eq mark)

theorem atOperator_related (operator : Operator) :
    comparison.Related (atOperator operator) (atOperator operator) :=
  token_related.bind fun same => .pure (same.isOperator_eq operator)

theorem atKeyword_related (keyword : Keyword) :
    comparison.Related (atKeyword keyword) (atKeyword keyword) :=
  token_related.bind fun same => .pure (same.isKeyword_eq keyword)

theorem atName_related (text : String) : comparison.Related (atName text) (atName text) :=
  token_related.bind fun same => .pure (same.isName_eq text)

theorem atEnd_related : comparison.Related atEnd atEnd :=
  token_related.bind fun same => .pure same.isEnd_eq

theorem expectPunctuation_related (mark : Char) :
    comparison.Related (expectPunctuation mark) (expectPunctuation mark) :=
  (atPunctuation_related mark).bind_eq fun _ => .ite advance_related (expected_related _)

theorem expectNameOf_related (text : String) :
    comparison.Related (expectNameOf text) (expectNameOf text) :=
  (atName_related text).bind_eq fun _ => .ite advance_related (expected_related _)

theorem expectKeyword_related (keyword : Keyword) :
    comparison.Related (expectKeyword keyword) (expectKeyword keyword) :=
  (atKeyword_related keyword).bind_eq fun _ => .ite advance_related (expected_related _)

theorem expectName_related : comparison.Related expectName expectName := by
  refine token_related.bind fun same => ?_
  rw [same.kind_eq]
  split
  · exact advance_related.bind fun _ => .pure rfl
  · exact expected_related _

theorem expectWord_related : comparison.Related expectWord expectWord := by
  refine token_related.bind fun same => ?_
  rw [same.kind_eq]
  split
  · exact advance_related.bind fun _ => .pure rfl
  · exact expected_related _

theorem skipPunctuation_related (mark : Char) :
    comparison.Related (skipPunctuation mark) (skipPunctuation mark) :=
  (atPunctuation_related mark).bind_eq fun _ =>
    .ite (advance_related.bind fun _ => .pure rfl) (.pure rfl)

theorem skipToken_related {place place' : Span} (same : comparison.labels.Same place place') :
    comparison.Related (skipToken place) (skipToken place') := by
  refine advance_related.bind fun found => ?_
  rw [found.kind_eq]
  refine ⟨⟨fun state => Nat.le_refl _⟩, ?_⟩
  intro state other alike
  exact .ok rfl ⟨alike.current, alike.upcoming, alike.previousEnd, alike.scope, alike.patches,
    comparison.sameSkipped_append _ alike.skipped same, alike.fits⟩

end Qml.Comparison
