import Qml.Proofs.Comparison.Member

/-! # Comparing levels of nesting

With the same number of levels on both sides, or with more on the second side
where running out of levels is excused, the nesting productions make the same of
the same tokens. -/

namespace Qml.Comparison

open Qml.Parser

variable {comparison : Comparison}

def Rooms (comparison : Comparison) (room room' : Nat) : Prop :=
  room = room' ∨ (room ≤ room' ∧ comparison.excused (.broken .nestingTooDeep))

theorem Rooms.succ {room room' : Nat} (rooms : comparison.Rooms (room + 1) room') :
    ∃ rest, room' = rest + 1 ∧ comparison.Rooms room rest := by
  rcases rooms with rfl | ⟨fewer, excused⟩
  · exact ⟨room, rfl, .inl rfl⟩
  · obtain ⟨rest, rfl⟩ : ∃ rest, room' = rest + 1 := ⟨room' - 1, by omega⟩
    exact ⟨rest, rfl, .inr ⟨by omega, excused⟩⟩

theorem Rooms.zero {α : Type} [Labeled α] {loose : α → Prop} {parser : Parser α} {room' : Nat}
    (rooms : comparison.Rooms 0 room') (same : room' = 0 → parser = refuse .nestingTooDeep) :
    comparison.RelatedUpTo loose (refuse .nestingTooDeep) parser := by
  rcases rooms with none | ⟨-, excused⟩
  · rw [same none.symm]
    exact refuse_related _
  · exact ⟨inferInstance, fun _ => .excused excused⟩

theorem assignment_firstToken_within {setting : Setting} {room : Nat} {noIn : Bool}
    {state after : State} {expr : Expr}
    (ok : (Deeper.within setting room).assignment noIn state = .ok expr after) :
    state.cursor.current.BeginsOperand := by
  cases room with
  | zero => exact absurd ok refuse_ne_ok
  | succ room =>
      obtain ⟨inner, parsed, -⟩ := inScope_eq_ok.mp ok
      have begins := Grammar.assignment_firstToken parsed
      exact begins

theorem levels_within {room room' : Nat} (rooms : comparison.Rooms room room') :
    comparison.Levels (Deeper.within comparison.first room)
      (Deeper.within comparison.second room') := by
  induction room generalizing room' with
  | zero =>
      refine ⟨inferInstance, inferInstance, rooms.zero ?_, fun _ => rooms.zero ?_,
        fun _ => rooms.zero ?_, fun _ => rooms.zero ?_, fun _ => rooms.zero ?_,
        fun _ _ _ _ _ => refuse_ne_ok, assignment_firstToken_within⟩
      all_goals
        rintro rfl
        rfl
  | succ room induction =>
      obtain ⟨rest, rfl, fewer⟩ := rooms.succ
      have levels := induction fewer
      refine ⟨inferInstance, inferInstance, ?_, ?_, ?_, ?_, ?_, ?_, assignment_firstToken_within⟩
      · exact .inScope Scope.uniform_deeper (anyStatement_related levels)
      · exact fun noIn => .inScope Scope.uniform_deeper (assignment_related levels noIn)
      · exact fun calls => .inScope Scope.uniform_deeper (unary_related levels calls)
      · exact fun calls => .inScope Scope.uniform_deeper (atom_related levels calls)
      · exact fun declarative => .inScope Scope.uniform_inBlock (members_related levels declarative)
      · intro _ state value after dot ok
        obtain ⟨inner, parsed, -⟩ := inScope_eq_ok.mp ok
        refine anyStatement_ne_ok_of_dot ?_ parsed
        exact dot

end Qml.Comparison
