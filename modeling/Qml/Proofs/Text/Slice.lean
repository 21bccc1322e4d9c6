import Qml.Text.Bytes

/-! # Slices between boundaries

An offset is a boundary of a text if a character begins there, or the text ends
there. Between boundaries slices behave as one expects: they are what stands
between two parts of the text, and adjacent ones make up the whole. And slices of
one of two joined texts are slices of both. -/

namespace Qml.Text

/-- A place where a text can be cut. -/
def IsBoundary (text : List Char) (offset : Nat) : Prop :=
  ∃ before after, text = before ++ after ∧ offset = byteLength before

theorem IsBoundary.le_byteLength {text : List Char} {offset : Nat}
    (boundary : IsBoundary text offset) : offset ≤ byteLength text := by
  obtain ⟨before, after, rfl, rfl⟩ := boundary
  rw [byteLength_append]
  exact Nat.le_add_right _ _

theorem byteLength_eq_zero {text : List Char} : byteLength text = 0 ↔ text = [] := by
  cases text with
  | nil => simp
  | cons c rest =>
      have positive := c.utf8Size_pos
      simp only [byteLength_cons, reduceCtorEq, iff_false]
      omega

theorem byteLength_pos {text : List Char} (inhabited : text ≠ []) : 0 < byteLength text :=
  Nat.pos_of_ne_zero fun nothing => inhabited (byteLength_eq_zero.mp nothing)

theorem exists_append_of_byteLength_le {first second rest tail : List Char}
    (same : first ++ rest = second ++ tail) (order : byteLength first ≤ byteLength second) :
    ∃ inside, second = first ++ inside ∧ rest = inside ++ tail := by
  rcases List.append_eq_append_iff.mp same with
    ⟨inside, secondEq, restEq⟩ | ⟨extra, firstEq, tailEq⟩
  · exact ⟨inside, secondEq, restEq⟩
  · have nothing : extra = [] := by
      rw [firstEq, byteLength_append] at order
      exact byteLength_eq_zero.mp (by omega)
    subst nothing
    exact ⟨[], by simpa using firstEq.symm, by simpa using tailEq.symm⟩

theorem IsBoundary.parts {text : List Char} {start stop : Nat} (first : IsBoundary text start)
    (second : IsBoundary text stop) (order : start ≤ stop) :
    ∃ before inside after, text = before ++ (inside ++ after) ∧ start = byteLength before ∧
      stop = byteLength before + byteLength inside := by
  obtain ⟨before, rest, textEq, rfl⟩ := first
  obtain ⟨longer, after, otherEq, rfl⟩ := second
  obtain ⟨inside, rfl, rfl⟩ :=
    exists_append_of_byteLength_le (textEq.symm.trans otherEq) order
  exact ⟨before, inside, after, textEq, rfl, byteLength_append _ _⟩

theorem slice_append_slice {text : List Char} {first second third : Nat}
    (one : IsBoundary text first) (two : IsBoundary text second) (three : IsBoundary text third)
    (lower : first ≤ second) (upper : second ≤ third) :
    slice text first second ++ slice text second third = slice text first third := by
  obtain ⟨before, inside, after, textEq, rfl, rfl⟩ := one.parts two lower
  obtain ⟨longer, tail, otherEq, rfl⟩ := three
  have order : byteLength (before ++ inside) ≤ byteLength longer := by
    rw [byteLength_append]
    exact upper
  obtain ⟨more, rfl, rfl⟩ := exists_append_of_byteLength_le
    ((List.append_assoc before inside after).trans (textEq.symm.trans otherEq)) order
  have left := slice_append before inside (more ++ tail)
  have right := slice_append (before ++ inside) more tail
  have whole := slice_append before (inside ++ more) tail
  simp only [List.append_assoc, byteLength_append, Nat.add_assoc] at left right whole textEq ⊢
  rw [textEq, left, right, whole]

theorem clippedSlice_eq_slice {text : List Char} {start stop : Nat}
    (inside : stop ≤ byteLength text) : clippedSlice text start stop = slice text start stop := by
  unfold clippedSlice
  rw [Nat.min_eq_left inside]

/-! ## Slices of joined texts -/

theorem dropBytes?_append {count : Nat} {text : List Char} (within : count ≤ byteLength text)
    (rest : List Char) :
    dropBytes? count (text ++ rest) = (dropBytes? count text).map (· ++ rest) := by
  fun_induction dropBytes? count text with
  | case1 => simp
  | case2 count => simp at within
  | case3 count c text fits induction =>
      rw [byteLength_cons] at within
      rw [List.cons_append, dropBytes?, if_pos fits, induction (by omega)]
  | case4 count c text exceeds => rw [List.cons_append, dropBytes?, if_neg exceeds]; rfl

theorem takeBytes?_append {count : Nat} {text : List Char} (within : count ≤ byteLength text)
    (rest : List Char) : takeBytes? count (text ++ rest) = takeBytes? count text := by
  fun_induction takeBytes? count text with
  | case1 => simp
  | case2 count => simp at within
  | case3 count c text fits induction =>
      rw [byteLength_cons] at within
      rw [List.cons_append, takeBytes?, if_pos fits, induction (by omega)]
  | case4 count c text exceeds => rw [List.cons_append, takeBytes?, if_neg exceeds]

theorem byteLength_of_dropBytes? {count : Nat} {text left : List Char}
    (dropped : dropBytes? count text = some left) : byteLength text = count + byteLength left := by
  fun_induction dropBytes? count text with
  | case1 => simp_all
  | case2 count => cases dropped
  | case3 count c text fits induction =>
      rw [byteLength_cons, induction dropped]
      omega
  | case4 => cases dropped

theorem takeBytes?_of_lt {count : Nat} {text : List Char} (beyond : byteLength text < count) :
    takeBytes? count text = none := by
  fun_induction takeBytes? count text with
  | case1 => exact absurd beyond (Nat.not_lt_zero _)
  | case2 count => rfl
  | case3 count c text fits induction =>
      rw [byteLength_cons] at beyond
      rw [induction (by omega)]
      rfl
  | case4 => rfl

theorem dropBytes?_append_right (before text : List Char) (count : Nat) :
    dropBytes? (byteLength before + count) (before ++ text) = dropBytes? count text := by
  induction before with
  | nil => simp
  | cons c rest induction =>
      have positive := c.utf8Size_pos
      obtain ⟨more, size⟩ : ∃ more, byteLength (c :: rest) + count = more + 1 :=
        ⟨byteLength (c :: rest) + count - 1, by rw [byteLength_cons]; omega⟩
      have left : more + 1 - c.utf8Size = byteLength rest + count := by
        rw [← size, byteLength_cons]
        omega
      have fits : c.utf8Size ≤ more + 1 := by
        rw [← size, byteLength_cons]
        omega
      rw [size, List.cons_append, dropBytes?, if_pos fits, left, induction]

theorem slice_append_left {text : List Char} {stop : Nat} (within : stop ≤ byteLength text)
    (start : Nat) (rest : List Char) : slice (text ++ rest) start stop = slice text start stop := by
  unfold slice
  split
  case isTrue order =>
      rw [dropBytes?_append (Nat.le_trans order within)]
      cases dropped : dropBytes? start text with
      | none => rfl
      | some left =>
          have length := byteLength_of_dropBytes? dropped
          exact congrArg (Option.getD · []) (takeBytes?_append (by omega) rest)
  case isFalse => rfl

theorem slice_append_right (before text : List Char) (start stop : Nat) :
    slice (before ++ text) (byteLength before + start) (byteLength before + stop) =
      slice text start stop := by
  unfold slice
  rw [dropBytes?_append_right, Nat.add_sub_add_left]
  simp only [Nat.add_le_add_iff_left]

theorem slice_of_lt {text : List Char} {stop : Nat} (beyond : byteLength text < stop)
    (start : Nat) : slice text start stop = [] := by
  unfold slice
  split
  case isTrue order =>
      cases dropped : dropBytes? start text with
      | none => rfl
      | some left =>
          have length := byteLength_of_dropBytes? dropped
          exact congrArg (Option.getD · []) (takeBytes?_of_lt (by omega))
  case isFalse => rfl

theorem slice_of_inverted {start stop : Nat} (inverted : stop < start) (text : List Char) :
    slice text start stop = [] := if_neg (Nat.not_le_of_gt inverted)

end Qml.Text
