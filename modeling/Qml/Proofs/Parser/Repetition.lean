import Qml.Proofs.Progress

/-! # Rounds of a repetition

What a repetition collects is what its rounds yield, one after the other. Rounds of
one repetition and more of them are the rounds of a longer one. -/

namespace Qml.Parser

variable {α : Type} {step : Parser (Option α)}

inductive Collects (step : Parser (Option α)) : State → List α → State → Prop
  | done (state : State) : Collects step state [] state
  | round {value : α} {more : List α} {state between last : State}
      (first : step state = .ok (some value) between) (rest : Collects step between more last) :
      Collects step state (value :: more) last

theorem Collects.append {values more : List α} {state between last : State}
    (one : Collects step state values between) (two : Collects step between more last) :
    Collects step state (values ++ more) last := by
  induction one with
  | done state => exact two
  | round first rest induction => exact .round first (induction two)

theorem collectWithin_eq_ok {clock : List Token} {values : List α} {state after : State} :
    collectWithin step clock state = .ok values after ↔
      ∃ last, Collects step state values last ∧ step last = .ok none after ∧
        values.length < clock.length := by
  induction clock generalizing state values with
  | nil =>
      constructor
      · exact fun ok => absurd ok unexpected_ne_ok
      · rintro ⟨_, -, -, beyond⟩
        exact absurd beyond (Nat.not_lt_zero _)
  | cons tick clock induction =>
      rw [collectWithin_cons_eq_ok]
      constructor
      · rintro (⟨ended, rfl⟩ | ⟨value, between, more, first, rest, rfl⟩)
        · exact ⟨state, .done state, ended, Nat.succ_pos _⟩
        · obtain ⟨last, collects, ended, fewer⟩ := induction.mp rest
          exact ⟨last, .round first collects, ended, Nat.succ_lt_succ fewer⟩
      · rintro ⟨last, collects, ended, fewer⟩
        cases collects with
        | done => exact .inl ⟨ended, rfl⟩
        | round first rest =>
            exact .inr ⟨_, _, _, first,
              induction.mpr ⟨last, rest, ended, Nat.lt_of_succ_lt_succ fewer⟩, rfl⟩

/-- A repetition succeeds if its rounds lead to one that yields nothing, and there
are at most as many as tokens ahead. -/
theorem collect_eq_ok {values : List α} {state after : State} :
    collect step state = .ok values after ↔
      ∃ last, Collects step state values last ∧ step last = .ok none after ∧
        values.length ≤ state.ahead := by
  simp only [collect, run_remaining, collectWithin_eq_ok, Cursor.remaining, List.length_cons,
    Nat.lt_succ_iff, State.ahead]

end Qml.Parser
