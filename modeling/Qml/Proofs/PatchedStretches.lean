import Qml.Proofs.Text.Slice
import Qml.Source.Patch

/-! # Stretches next to each other

A stretch of a text may be read in two halves: away from the ends of a patch, what the
halves read as makes up what the whole does. Only one half then touches the patch, and
the other is read as written. -/

namespace Qml.Patch

open Text

variable {source : List Char} {patches : List Patch} {patch : Patch}
  {first middle last start stop : Nat}

theorem touches_of_part (touched : patch.touches start stop = true) (lower : first ≤ start)
    (upper : stop ≤ last) : patch.touches first last = true := by
  simp only [touches, Bool.and_eq_true, decide_eq_true_eq] at touched ⊢
  omega

theorem find?_touches_of_alone
    (alone : patches.filter (fun patch => patch.touches first last) = [patch])
    (lower : first ≤ start) (upper : stop ≤ last) :
    patches.find? (fun patch => patch.touches start stop) =
      if patch.touches start stop then some patch else none := by
  have narrowed : patches.find? (fun patch => patch.touches start stop) =
      (patches.filter fun patch => patch.touches first last).find?
        fun patch => patch.touches start stop := by
    rw [List.find?_filter]
    congr 1
    funext other
    have wider : other.touches start stop = true → other.touches first last = true :=
      fun touched => touches_of_part touched lower upper
    simpa using wider
  rw [narrowed, alone, List.find?_singleton]

/-- How a part of a stretch reads that one patch alone touches. -/
theorem effectiveText_of_alone
    (alone : patches.filter (fun patch => patch.touches first last) = [patch])
    (lower : first ≤ start) (upper : stop ≤ last) (inside : patch.start ≤ byteLength source)
    (within : stop ≤ byteLength source) :
    effectiveText source patches start stop =
      if patch.touches start stop then
        slice source start patch.start ++ patch.replacement ++ slice source patch.stop stop
      else slice source start stop := by
  unfold effectiveText
  rw [find?_touches_of_alone alone lower upper]
  by_cases touched : patch.touches start stop = true
  case pos => simp only [if_pos touched, clippedSlice_eq_slice inside, clippedSlice_eq_slice within]
  case neg => simp only [if_neg touched, clippedSlice_eq_slice within]

theorem effectiveText_as_written (untouched : ∀ patch ∈ patches, patch.touches first last = false)
    (lower : first ≤ start) (upper : stop ≤ last) (within : stop ≤ byteLength source) :
    effectiveText source patches start stop = slice source start stop := by
  rw [effectiveText_of_untouched, clippedSlice_eq_slice within]
  intro patch member
  refine Bool.eq_false_iff.mpr fun touched => ?_
  exact Bool.eq_false_iff.mp (untouched patch member) (touches_of_part touched lower upper)

section

variable (lower : first ≤ middle) (upper : middle ≤ last) (starts : IsBoundary source first)
  (meets : IsBoundary source middle) (ends : IsBoundary source last)

include lower upper starts meets ends

theorem effectiveText_joins_of_alone
    (alone : patches.filter (fun patch => patch.touches first last) = [patch])
    (touched : patch.touches first last = true) (opens : IsBoundary source patch.start)
    (closes : IsBoundary source patch.stop) (ordered : patch.start ≤ patch.stop)
    (away : middle < patch.start ∨ patch.stop < middle) :
    effectiveText source patches first middle ++ effectiveText source patches middle last =
      effectiveText source patches first last := by
  have inside := opens.le_byteLength
  rw [effectiveText_of_alone alone (Nat.le_refl _) upper inside meets.le_byteLength,
    effectiveText_of_alone alone lower (Nat.le_refl _) inside ends.le_byteLength,
    effectiveText_of_alone alone (Nat.le_refl _) (Nat.le_refl _) inside ends.le_byteLength,
    if_pos touched]
  simp only [touches, Bool.and_eq_true, decide_eq_true_eq] at touched
  rcases away with behind | before
  · -- The first half ends before the patch, and the second holds its beginning.
    have firstHalf : patch.touches first middle = false := by simp [touches]; omega
    have secondHalf : patch.touches middle last = true := by simp [touches]; omega
    rw [firstHalf, if_neg Bool.false_ne_true, if_pos secondHalf, ← List.append_assoc,
      ← List.append_assoc, slice_append_slice starts meets opens lower (Nat.le_of_lt behind)]
  · have firstHalf : patch.touches first middle = true := by simp [touches]; omega
    have secondHalf : patch.touches middle last = false := by simp [touches]; omega
    rw [if_pos firstHalf, secondHalf, if_neg Bool.false_ne_true, List.append_assoc,
      slice_append_slice closes meets ends (Nat.le_of_lt before) upper]

theorem effectiveText_joins_of_untouched
    (untouched : ∀ patch ∈ patches, patch.touches first last = false) :
    effectiveText source patches first middle ++ effectiveText source patches middle last =
      effectiveText source patches first last := by
  have inLast := ends.le_byteLength
  rw [effectiveText_as_written untouched (Nat.le_refl _) upper meets.le_byteLength,
    effectiveText_as_written untouched lower (Nat.le_refl _) inLast,
    effectiveText_as_written untouched (Nat.le_refl _) (Nat.le_refl _) inLast]
  exact slice_append_slice starts meets ends lower upper

end

/-- Two halves of a stretch make up the whole if at most one patch touches it, and the
halves do not meet in that patch or at its ends. Untouched, the stretch reads as
written. -/
theorem effectiveText_joins (lower : first ≤ middle) (upper : middle ≤ last)
    (starts : IsBoundary source first) (meets : IsBoundary source middle)
    (ends : IsBoundary source last)
    (alone : (patches.filter fun patch => patch.touches first last).length ≤ 1)
    (away : ∀ patch ∈ patches, patch.touches first last = true →
      patch.start ≤ patch.stop ∧ IsBoundary source patch.start ∧ IsBoundary source patch.stop ∧
        (middle < patch.start ∨ patch.stop < middle)) :
    effectiveText source patches first middle ++ effectiveText source patches middle last =
        effectiveText source patches first last ∧
      ((∀ patch ∈ patches, patch.touches first last = false) →
        effectiveText source patches first last = slice source first last) := by
  refine ⟨?_, fun untouched =>
    effectiveText_as_written untouched (Nat.le_refl _) (Nat.le_refl _) ends.le_byteLength⟩
  match touchedEq : patches.filter fun patch => patch.touches first last with
  | [] =>
      have untouched : ∀ patch ∈ patches, patch.touches first last = false := by
        simpa using touchedEq
      exact effectiveText_joins_of_untouched lower upper starts meets ends untouched
  | _ :: _ :: _ => simp [touchedEq] at alone
  | [patch] =>
      obtain ⟨member, touched⟩ : patch ∈ patches ∧ patch.touches first last = true :=
        List.mem_filter.mp (touchedEq ▸ List.mem_singleton_self patch)
      obtain ⟨ordered, opens, closes, side⟩ := away patch member touched
      exact effectiveText_joins_of_alone lower upper starts meets ends touchedEq touched opens
        closes ordered side

theorem effectiveText_joins_before_patch :
    let source := "a = b instanceof C;".toList
    let patches : List Patch := [⟨4, 18, "test(b)".toList⟩, ⟨30, 31, []⟩]
    (patches.filter fun patch => patch.touches 0 19).length ≤ 1 ∧
      effectiveText source patches 0 2 = "a ".toList ∧
      effectiveText source patches 2 19 = "= test(b);".toList ∧
      effectiveText source patches 0 2 ++ effectiveText source patches 2 19 =
        effectiveText source patches 0 19 := by
  have boundary : ∀ count, IsBoundary "a = b instanceof C;".toList
      (byteLength ("a = b instanceof C;".toList.take count)) :=
    fun count => ⟨_, _, (List.take_append_drop count _).symm, rfl⟩
  refine ⟨by decide, by decide, by decide, (effectiveText_joins (by decide) (by decide)
    (boundary 0) (boundary 2) (boundary 19) (by decide) fun patch member touched => ?_).1⟩
  rcases List.mem_cons.mp member with rfl | later
  · exact ⟨by decide, boundary 4, boundary 18, by decide⟩
  · rw [List.mem_singleton.mp later] at touched
    exact absurd touched (by decide)

/-- Where halves meet at the end of a patch, its replacement is read twice. -/
example : effectiveText "abc".toList [⟨1, 2, ['x']⟩] 0 1 ++
    effectiveText "abc".toList [⟨1, 2, ['x']⟩] 1 3 = "axxc".toList := by decide

end Qml.Patch
