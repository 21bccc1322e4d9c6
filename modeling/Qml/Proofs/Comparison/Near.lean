import Qml.Proofs.Comparison.Steps

/-! # Comparing up to where the texts part

Two parses that have consumed all of the shared tokens, and none behind them, have
come to where the texts part. -/

namespace Qml.Comparison

open Qml.Parser

variable (comparison : Comparison)

structure AtEdge (state other : State) : Prop where
  here : state.cursor.remaining = comparison.firstTail
  there : other.cursor.remaining = comparison.secondTail
  previousEnd : comparison.labels.first.stop state.cursor.previousEnd =
    comparison.labels.second.stop other.cursor.previousEnd
  scope : state.scope.Agrees other.scope
  patches : comparison.samePatches state.patches other.patches
  skipped : comparison.sameSkipped state.skipped other.skipped

/-- Both parses are still among the shared tokens or right behind them. -/
def Near (state other : State) : Prop :=
  comparison.Alike state other ∨ comparison.AtEdge state other

variable {comparison} {state other : State}

theorem Alike.near_advanced (alike : comparison.Alike state other)
    (parted : comparison.firstTail ≠ []) : comparison.Near state.advanced other.advanced := by
  rcases alike.next with ⟨ahead, ahead'⟩ | ⟨token, token', shared, shared', ahead, -⟩
  · right
    obtain ⟨first, rest, tail⟩ := List.exists_cons_of_ne_nil parted
    obtain ⟨second, rest', tail'⟩ :=
      List.exists_cons_of_ne_nil (comparison.secondTail_ne_nil parted)
    refine ⟨?_, ?_, alike.current.span.stop_eq, alike.scope, alike.patches, alike.skipped⟩
    · rw [tail] at ahead ⊢
      simp [Cursor.remaining, Cursor.advance, Cursor.peek, ahead]
    · rw [tail'] at ahead' ⊢
      simp [Cursor.remaining, Cursor.advance, Cursor.peek, ahead']
  · left
    refine alike.advanced.resolve_left ?_
    unfold Lost State.ahead
    simp [Cursor.advance, ahead]

namespace Near

variable (near : comparison.Near state other)

include near

theorem withScope {scope scope' : Scope} (agrees : scope.Agrees scope') :
    comparison.Near { state with scope := scope } { other with scope := scope' } := by
  rcases near with alike | edge
  · exact .inl ⟨alike.current, alike.upcoming, alike.previousEnd, agrees, alike.patches,
      alike.skipped, alike.fits⟩
  · exact .inr ⟨edge.here, edge.there, edge.previousEnd, agrees, edge.patches, edge.skipped⟩

theorem withPatches {patches patches' : List Patch}
    (same : comparison.samePatches patches patches') :
    comparison.Near { state with patches := patches } { other with patches := patches' } := by
  rcases near with alike | edge
  · exact .inl ⟨alike.current, alike.upcoming, alike.previousEnd, alike.scope, same,
      alike.skipped, alike.fits⟩
  · exact .inr ⟨edge.here, edge.there, edge.previousEnd, edge.scope, same, edge.skipped⟩

theorem patches : comparison.samePatches state.patches other.patches := by
  rcases near with alike | edge
  · exact alike.patches
  · exact edge.patches

theorem scope : state.scope.Agrees other.scope := by
  rcases near with alike | edge
  · exact alike.scope
  · exact edge.scope

theorem previousEnd : comparison.labels.first.stop state.cursor.previousEnd =
    comparison.labels.second.stop other.cursor.previousEnd := by
  rcases near with alike | edge
  · exact alike.previousEnd
  · exact edge.previousEnd

end Near

end Qml.Comparison
