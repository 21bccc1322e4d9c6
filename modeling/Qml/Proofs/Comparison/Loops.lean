import Qml.Proofs.Comparison.Steps

/-! # Comparing repetitions

Two repetitions go round for round. Their clocks may be different if only some
of the tokens are shared; but then each round consumes one of the shared tokens,
and both clocks tick once for each of these. -/

namespace Qml.Comparison

open Qml.Parser

variable {comparison : Comparison} {α β : Type} [Labeled α] [Labeled β]

/-- Clocks of two repetitions that do not run out apart from each other. -/
def Clocks (comparison : Comparison) (state : State) (clock clock' : List Token) : Prop :=
  (comparison.firstTail = [] ∧ clock.length = clock'.length) ∨
    (comparison.firstTail ≠ [] ∧ state.ahead + 1 < comparison.firstTail.length + clock'.length)

theorem clocks_remaining {state other : State} (alike : comparison.Alike state other) :
    comparison.Clocks state state.cursor.remaining other.cursor.remaining := by
  obtain ⟨shared, shared', ahead, ahead', same⟩ := alike.upcoming
  have lengths : shared.length = shared'.length := by
    simpa [Labeled.relabel] using congrArg List.length same.relabel_eq
  unfold Clocks Cursor.remaining State.ahead
  rw [ahead, ahead']
  by_cases tail : comparison.firstTail = []
  · left
    rw [comparison.secondTail_eq_nil tail]
    simp [tail, lengths]
  · refine .inr ⟨tail, ?_⟩
    have inhabited := List.length_pos_iff.mpr (comparison.secondTail_ne_nil tail)
    simp only [List.length_append, List.length_cons]
    omega

theorem Clocks.nil {loose : α → Prop} {parser : Parser α} {state other : State}
    {clock' : List Token} (clocks : comparison.Clocks state [] clock')
    (alike : comparison.Alike state other) (out : clock' = [] → parser = unexpected) :
    comparison.Agrees loose ((unexpected : Parser α) state) (parser other) := by
  rcases clocks with ⟨-, lengths⟩ | ⟨tail, -⟩
  · rw [out (List.eq_nil_of_length_eq_zero lengths.symm)]
    exact unexpected_related.agrees alike
  · exact .excused (comparison.excused_of_tail tail _)

theorem Clocks.cons {state other : State} {tick : Token} {clock clock' : List Token}
    (clocks : comparison.Clocks state (tick :: clock) clock')
    (alike : comparison.Alike state other) :
    ∃ tick' rest, clock' = tick' :: rest ∧
      ∀ {after after'}, comparison.Alike after after' → after.ahead ≤ state.ahead - 1 →
        comparison.Clocks after clock rest := by
  have here := alike.not_lost
  unfold Lost at here
  cases clock' with
  | nil =>
      rcases clocks with ⟨-, lengths⟩ | ⟨-, ahead⟩
      · simp at lengths
      · simp only [List.length_nil] at ahead
        omega
  | cons tick' rest =>
      refine ⟨tick', rest, rfl, ?_⟩
      intro after after' alike' consumed
      have there := alike'.not_lost
      unfold Lost at there
      rcases clocks with ⟨tail, lengths⟩ | ⟨tail, ahead⟩
      · exact .inl ⟨tail, by simpa using lengths⟩
      · refine .inr ⟨tail, ?_⟩
        have inhabited := List.length_pos_iff.mpr tail
        simp only [List.length_cons] at ahead
        omega

namespace RelatedUpTo

/-! ## Collecting values -/

omit [Labeled α] in
theorem collectWithin_atBrace {step : Parser (Option α)} {loose : Prop}
    (stays : ∀ {state result after}, comparison.AtBrace state →
      step state = .ok result after → loose ∧ result = none ∧ comparison.AtBrace after)
    {clock : List Token} {state after : State} {values : List α}
    (atBrace : comparison.AtBrace state)
    (ok : collectWithin step clock state = .ok values after) :
    loose ∧ comparison.AtBrace after := by
  cases clock with
  | nil => exact absurd ok unexpected_ne_ok
  | cons tick clock =>
      rcases collectWithin_cons_eq_ok.mp ok with ⟨last, -⟩ | ⟨value, between, more, round, -⟩
      · obtain ⟨isLoose, -, still⟩ := stays atBrace last
        exact ⟨isLoose, still⟩
      · obtain ⟨-, none, -⟩ := stays atBrace round
        cases none

section

variable {step step' : Parser (Option α)} {slack loose : Prop}
  (rounds : comparison.RelatedUpTo (fun result => slack ∧ Continues result) step step')
  [consumes : Consumes Continues step]
  (stays : slack → ∀ {state result after}, comparison.AtBrace state →
    step state = .ok result after → loose ∧ result = none ∧ comparison.AtBrace after)

include rounds consumes stays

theorem collectWithin_agrees {clock clock' : List Token} {state other : State}
    (alike : comparison.Alike state other) (clocks : comparison.Clocks state clock clock') :
    comparison.Agrees (fun _ => loose) (collectWithin step clock state)
      (collectWithin step' clock' other) := by
  induction clock generalizing state other clock' with
  | nil =>
      apply clocks.nil alike
      rintro rfl
      rfl
  | cons tick clock induction =>
      obtain ⟨tick', rest, rfl, next⟩ := clocks.cons alike
      have onward : Follows State.Onward (collectWithin step clock) :=
        rounds.onward.collectWithin clock
      refine (rounds.agrees alike).bind ?_ ?_ ?_
      · intro result
        split <;> infer_instance
      · intro result result' after after' round same alike'
        cases result with
        | none =>
            have ended : result' = none := by simpa using same.symm
            subst ended
            exact .ok rfl alike'
        | some value =>
            cases result' with
            | none => simp at same
            | some value' =>
                have consumed := consumes.ahead_le round nofun
                refine (induction alike' (next alike' consumed)).bind inferInstance ?_ ?_
                · intro more more' last last' _ sameMore alike''
                  refine .ok ?_ alike''
                  simp_all
                · intro more last result final isLoose atBrace ok
                  cases ok
                  exact ⟨isLoose, atBrace⟩
      · intro result after values last slackly atBrace ok
        cases result with
        | none => exact absurd rfl slackly.2
        | some value =>
            obtain ⟨more, between, rest, ok⟩ := bind_eq_ok.mp ok
            cases ok
            exact collectWithin_atBrace (stays slackly.1) atBrace rest

theorem collect_upTo : comparison.RelatedUpTo (fun _ => loose) (collect step) (collect step') := by
  have onward := rounds.onward
  refine ⟨inferInstance, ?_⟩
  intro state other alike
  exact collectWithin_agrees rounds stays alike (clocks_remaining alike)

end

section

variable {step step' : Parser (Option α)} [Consumes Continues step]

theorem collect {loose : List α → Prop} (rounds : comparison.Related step step') :
    comparison.RelatedUpTo loose (collect step) (collect step') := by
  have slackly : comparison.RelatedUpTo (fun result => False ∧ Continues result) step step' :=
    rounds.loosen
  exact (slackly.collect_upTo fun impossible => impossible.elim).loosen

/-- Rounds may be loose if the round after such a one fails or ends the
repetition. -/
theorem collect_loose {loose : Prop} (rounds : comparison.RelatedUpTo Continues step step')
    (stays : ∀ {state result after}, comparison.AtBrace state →
      step state = .ok result after → loose ∧ result = none ∧ comparison.AtBrace after) :
    comparison.RelatedUpTo (fun _ => loose) (Parser.collect step) (Parser.collect step') := by
  have slackly : comparison.RelatedUpTo (fun result => True ∧ Continues result) step step' :=
    rounds.mono fun _ _ continues => ⟨trivial, continues⟩
  exact slackly.collect_upTo fun _ => stays

end

/-! ## Iterating -/

section

variable {step step' : α → Parser (Option α)}
  (rounds : ∀ {value value'}, comparison.labels.Same value value' →
    comparison.Related (step value) (step' value'))
  [consumes : ∀ value, Consumes Continues (step value)]

include rounds consumes

theorem iterateWithin_agrees {clock clock' : List Token} {state other : State} {value value' : α}
    (same : comparison.labels.Same value value') (alike : comparison.Alike state other)
    (clocks : comparison.Clocks state clock clock') :
    comparison.Agrees (fun _ => False) (iterateWithin step clock value state)
      (iterateWithin step' clock' value' other) := by
  have onward : ∀ value, Follows State.Onward (step value) :=
    comparison.labels.forall_of_same fun same => (rounds same).onward
  induction clock generalizing state other clock' value value' with
  | nil =>
      apply clocks.nil alike
      rintro rfl
      rfl
  | cons tick clock induction =>
      obtain ⟨tick', rest, rfl, next⟩ := clocks.cons alike
      refine ((rounds same).agrees alike).bind ?_ ?_ fun impossible => impossible.elim
      · intro result
        cases result with
        | none => exact inferInstanceAs (Follows State.Onward (Pure.pure value))
        | some following =>
            exact Obeys.iterateWithin onward clock following
      · intro result result' after after' round sameResult alike'
        cases result with
        | none =>
            have ended : result' = none := by simpa using sameResult.symm
            subst ended
            exact .ok same alike'
        | some following =>
            cases result' with
            | none => simp at sameResult
            | some following' =>
                have consumed := (consumes value).ahead_le round nofun
                exact induction (by simpa using sameResult) alike' (next alike' consumed)

theorem iterate {loose : α → Prop} {value value' : α} (same : comparison.labels.Same value value') :
    comparison.RelatedUpTo loose (iterate step value) (iterate step' value') := by
  have onward : ∀ value, Follows State.Onward (step value) :=
    comparison.labels.forall_of_same fun same => (rounds same).onward
  have closed : comparison.Related (Parser.iterate step value) (Parser.iterate step' value') := by
    refine ⟨inferInstance, ?_⟩
    intro state other alike
    exact iterateWithin_agrees rounds same alike (clocks_remaining alike)
  exact closed.loosen

end

end RelatedUpTo

/-! ## Lists -/

theorem AtBrace.kind_eq {state : State} (atBrace : comparison.AtBrace state) :
    state.cursor.current.kind = .punctuation '{' := by
  simpa [Token.isPunctuation] using atBrace.brace

theorem AtBrace.isPunctuation_eq {state : State} {mark : Char}
    (atBrace : comparison.AtBrace state) (other : mark ≠ '{') :
    state.cursor.current.isPunctuation mark = false := by
  simpa [Token.isPunctuation, atBrace.kind_eq] using other.symm

omit [Labeled α] in
theorem AtBrace.expectPunctuation_ne_ok {state : State} {mark : Char}
    (atBrace : comparison.AtBrace state) (other : mark ≠ '{') {next : Token → Parser α}
    {value : α} {after : State} : (expectPunctuation mark >>= next) state ≠ .ok value after := by
  intro ok
  obtain ⟨found, between, found, -⟩ := bind_eq_ok.mp ok
  have isMark := (expectPunctuation_eq_ok.mp found).1
  rw [atBrace.isPunctuation_eq other] at isMark
  cases isMark

/-- Two lists may end in a comma, or neither may, or only the second; the first
parse then fails where that list ends, and its failures are excused. -/
def Trails (comparison : Comparison) (closing : Char) (item : Parser α)
    (trailing trailing' : Bool) : Prop :=
  trailing = trailing' ∨ (trailing = false ∧ (∀ cause, comparison.excused cause) ∧
    ∀ {state value after}, state.cursor.current.isPunctuation closing = true →
      item state ≠ .ok value after)

section

variable {closing : Char} {trailing trailing' : Bool} {item item' : Parser α}
  (items : comparison.Loosely item item')
  (trails : comparison.Trails closing item trailing trailing')

include items trails

theorem listItem_related :
    comparison.RelatedUpTo Continues (listItem closing trailing item)
      (listItem closing trailing' item') := by
  have listed : comparison.RelatedUpTo Continues (item >>= fun value => Pure.pure (some value))
      (item' >>= fun value => Pure.pure (some value)) := by
    refine items.bind_loose (fun same => .pure (by simpa using same)) ?_
    intro value state result after _ atBrace ok
    cases ok
    exact ⟨nofun, atBrace⟩
  refine (atPunctuation_related closing).bind_eq fun ends => .ite (.pure rfl) ?_
  refine (expectPunctuation_related ',').bind fun _ => ?_
  rcases trails with rfl | ⟨rfl, excused, fails⟩
  · exact (atPunctuation_related closing).bind_eq fun endsAfter => .ite (.pure rfl) listed
  · refine ⟨listed.onward, ?_⟩
    intro state other alike
    cases closes : state.cursor.current.isPunctuation closing with
    | true =>
        refine .of_ne_ok excused ?_
        intro result after ok
        simp only [run_atPunctuation, Bool.false_and, Bool.false_eq_true, if_false] at ok
        obtain ⟨value, between, passed, -⟩ := bind_eq_ok.mp ok
        exact fails closes passed
    | false =>
        have closes' : other.cursor.current.isPunctuation closing = false := by
          rw [← alike.current.isPunctuation_eq, closes]
        simp only [run_atPunctuation, closes', Bool.and_false]
        exact listed.agrees alike

end

omit [Labeled α] in
theorem AtBrace.listItem_ne_ok {closing : Char} {trailing : Bool} {item : Parser α}
    {state after : State} {result : Option α} (atBrace : comparison.AtBrace state)
    (notBrace : closing ≠ '{') : listItem closing trailing item state ≠ .ok result after := by
  intro ok
  simp only [listItem, run_atPunctuation, atBrace.isPunctuation_eq notBrace, Bool.false_eq_true,
    if_false] at ok
  exact atBrace.expectPunctuation_ne_ok (by decide) ok

theorem listUntil_related_of_trails {closing : Char} (notBrace : closing ≠ '{')
    {trailing trailing' : Bool} {item item' : Parser α} (items : comparison.Loosely item item')
    (trails : comparison.Trails closing item trailing trailing') :
    comparison.Related (listUntil closing trailing item) (listUntil closing trailing' item') := by
  have onward := items.onward
  have stops : ∀ {state result after}, comparison.AtBrace state →
      listItem closing trailing item state = .ok result after →
        False ∧ result = none ∧ comparison.AtBrace after :=
    fun atBrace ok => absurd ok (atBrace.listItem_ne_ok notBrace)
  have rest : comparison.Related (collect (listItem closing trailing item))
      (collect (listItem closing trailing' item')) :=
    (listItem_related items trails).collect_loose stops
  refine (atPunctuation_related closing).bind_eq fun ends => ?_
  refine .ite (advance_related.bind fun _ => .pure rfl) ?_
  refine items.bind_loose (fun first => rest.bind fun more =>
    advance_related.bind fun _ => .pure ?_) ?_
  · simp_all
  · intro value state result after _ atBrace ok
    obtain ⟨more, between, ok, -⟩ := bind_eq_ok.mp ok
    exact (RelatedUpTo.collectWithin_atBrace stops atBrace ok).1.elim

theorem listUntil_related {closing : Char} (notBrace : closing ≠ '{')
    {trailing : Bool} {item item' : Parser α} (items : comparison.Loosely item item') :
    comparison.Related (listUntil closing trailing item) (listUntil closing trailing item') :=
  listUntil_related_of_trails notBrace items (.inl rfl)

end Qml.Comparison
