import Qml.Proofs.Flow

/-! # Scopes are given back

Every production leaves the context in which it began, whether it succeeds or
fails. The one exception are the members of a block, where the first string key
changes the context up to the closing brace. -/

namespace Qml

open Qml.Parser

/-- The context is the same, and no value is awaited unless one was before. -/
structure State.SameContext (before after : State) : Prop where
  scope_eq : after.scope = before.scope
  awaits : before.awaitsValue = false → after.awaitsValue = false

structure State.SameButKeys (before after : State) : Prop where
  scope_eq : after.scope = before.scope ∨ after.scope = before.scope.withStringKeys
  awaits : before.awaitsValue = false → after.awaitsValue = false

instance : Flow (Steps State.SameContext) where
  refl _ := ⟨rfl, id⟩
  trans one two := ⟨two.scope_eq.trans one.scope_eq, two.awaits ∘ one.awaits⟩
  advance _ := ⟨rfl, id⟩
  skipped _ _ := ⟨rfl, id⟩
  settled _ := ⟨rfl, fun _ => rfl⟩
  visited visit state _ after same := by
    refine ⟨?_, same.awaits⟩
    simp only [leave, same.scope_eq, visit.leave_enter]
  current _ _ _ held := held ⟨fun _ => ⟨rfl, id⟩⟩

instance : Patched (Steps State.SameContext) := ⟨fun _ _ => ⟨rfl, id⟩⟩

instance : Flow (Steps State.SameButKeys) where
  refl _ := ⟨.inl rfl, id⟩
  trans {first middle last failed} one two := by
    refine ⟨?_, two.awaits ∘ one.awaits⟩
    rcases one.scope_eq with same | keyed
    · rw [← same]
      exact two.scope_eq
    · rcases two.scope_eq with same' | keyed' <;> simp_all [Scope.withStringKeys]
  advance _ := ⟨.inl rfl, id⟩
  skipped _ _ := ⟨.inl rfl, id⟩
  settled _ := ⟨.inl rfl, fun _ => rfl⟩
  visited visit state _ after same := by
    refine ⟨?_, same.awaits⟩
    rcases same.scope_eq with same | keyed
    · simp only [leave, same, visit.leave_enter, true_or]
    · simp only [leave, keyed]
      exact visit.leave_keyed state.scope
  current _ _ _ held := held ⟨fun _ => ⟨.inl rfl, id⟩⟩

instance : Patched (Steps State.SameButKeys) := ⟨fun _ _ => ⟨.inl rfl, id⟩⟩

instance : Keyed (Steps State.SameButKeys) := ⟨fun _ => ⟨.inr rfl, id⟩⟩

theorem Parser.scope_of_ok {α : Type} {parser : Parser α}
    [keeps : Follows State.SameContext parser] {state after : State} {value : α}
    (ok : parser state = .ok value after) : after.scope = state.scope :=
  (Follows.of_ok keeps ok).scope_eq

abbrev Deeper.KeepsScope (deeper : Deeper) : Prop := deeper.Follows State.SameContext

/-- Keys that have turned into strings are put back at the end of their block. -/
theorem Parser.block_keepsContext {α : Type} {parser : Parser α}
    (keeps : Follows State.SameButKeys parser) :
    Follows State.SameContext (inScope Scope.inBlock parser) := by
  constructor
  intro state
  have same : State.SameButKeys _ _ :=
    keeps.holds { state with scope := Scope.inBlock.enter state.scope }
  have back : ∀ {after : State},
      State.SameButKeys { state with scope := Scope.inBlock.enter state.scope } after →
        State.SameContext state (leave Scope.inBlock state after) := by
    rintro after ⟨same | keyed, awaits⟩
    · exact ⟨by simp [leave, same, Scope.inBlock], awaits⟩
    · exact ⟨by simp [leave, keyed, Scope.inBlock, Scope.withStringKeys], awaits⟩
  unfold ObeysAt inScope
  cases outcome : parser { state with scope := Scope.inBlock.enter state.scope } <;>
    rw [outcome] at same <;> exact back same

instance Deeper.within_keepsScope (setting : Setting) (room : Nat) :
    (Deeper.within setting room).KeepsScope := by
  refine Deeper.within_obeys_of setting room
    (fun _ _ below => Grammar.operation_obeys setting below) (fun room _ _ => ?_)
  have level : (Grammar.deeper ⟨setting, Deeper.within setting room⟩).Follows State.SameButKeys :=
    Deeper.within_obeys setting room
  exact Parser.block_keepsContext inferInstance

end Qml
