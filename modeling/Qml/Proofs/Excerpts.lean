import Mathlib.Algebra.Group.Nat.Defs
import Mathlib.Data.List.Basic
import Qml.Source.Excerpt

/-! # Rows of an excerpt

An excerpt shows the lines from three before the marked one up to three behind it, as
far as the text has them, and nothing else. Line numbers of 32 bits are enough for
that: one that would leave their range stays at its limit instead. -/

namespace Qml.Excerpt

/-! ## The window -/

/-- The numbers of the lines that are shown of a text with `count` lines. -/
def window (count marked : Nat) : List Nat :=
  let first := max 1 (marked - context)
  List.range' first (min count (marked + context) + 1 - first)

/-- The rows of the window, from the top down. -/
def rows (text : List Char) (marked : Nat) : List String :=
  (window (Text.lines text).length marked).map fun number =>
    row marked number ((Text.lines text).getD (number - 1) [])

def isMarked (row : String) : Bool := row.toList.take 2 = ['>', '>']

theorem mem_window {count marked number : Nat} :
    number ∈ window count marked ↔
      1 ≤ number ∧ number ≤ count ∧ marked ≤ number + context ∧ number ≤ marked + context := by
  simp only [window, List.mem_range'_1]
  omega

theorem window_eq_nil {count marked : Nat} (inhabited : 1 ≤ count) :
    window count marked = [] ↔ count + context < marked := by
  simp only [window, context, List.range'_eq_nil_iff]
  omega

theorem isMarked_row (marked number : Nat) (line : List Char) :
    isMarked (row marked number line) = decide (number = marked) := by
  by_cases same : number = marked <;> simp [isMarked, row, same]

theorem row_ne_empty (marked number : Nat) (line : List Char) : row marked number line ≠ "" := by
  intro empty
  have nothing := congrArg String.toList empty
  simp [row] at nothing

theorem filter_shows (count marked : Nat) :
    (List.range' 1 count).filter (shows marked) = window count marked := by
  induction count with
  | zero =>
      rw [window, Nat.zero_min, Nat.sub_eq_zero_of_le (Nat.le_max_left ..)]
      rfl
  | succ count induction =>
      rw [List.range'_concat, List.filter_append, induction, List.filter_singleton]
      simp only [window, shows, Nat.one_mul, cond_eq_ite, Bool.and_eq_true, decide_eq_true_eq]
      split
      case isTrue shown =>
          obtain ⟨more, moreEq⟩ : ∃ more, count + 1 = max 1 (marked - context) + more :=
            Nat.exists_eq_add_of_le (by omega)
          rw [show min (count + 1) (marked + context) + 1 - max 1 (marked - context) = more + 1
              by omega,
            show min count (marked + context) + 1 - max 1 (marked - context) = more by omega,
            List.range'_concat, Nat.one_mul, ← moreEq, Nat.add_comm 1 count]
      case isFalse hidden =>
          rw [List.append_nil]
          congr 1
          omega

theorem numberedLines_eq (text : List Char) :
    numberedLines text = (List.range' 1 (Text.lines text).length).map fun number =>
      (number, (Text.lines text).getD (number - 1) []) := by
  refine List.ext_getElem (by simp [numberedLines]) fun index inside _ => ?_
  have within : index < (Text.lines text).length := by simpa [numberedLines] using inside
  simp [numberedLines, Nat.add_comm 1 index, List.getElem?_eq_getElem within]

theorem around_eq_join_rows (text : List Char) (marked : Nat) :
    around text marked = String.join (rows text marked) := by
  unfold around rows
  rw [numberedLines_eq, List.filter_map, List.map_map, ← filter_shows]
  rfl

theorem join_rows_eq_empty {text : List Char} {marked : Nat} :
    String.join (rows text marked) = "" ↔ (Text.lines text).length + context < marked := by
  have inhabited : 1 ≤ (Text.lines text).length :=
    List.length_pos_iff.mpr (Text.splitOn_ne_nil '\n' text)
  rw [← window_eq_nil inhabited, rows]
  cases window (Text.lines text).length marked with
  | nil => simp [String.join]
  | cons number more =>
      refine ⟨fun empty => ?_, nofun⟩
      rw [List.map_cons, String.join_cons] at empty
      exact absurd (String.append_eq_empty_iff.mp empty).1 (row_ne_empty _ _ _)

/-- The mark stands before one row if the text has the line, and else before none. -/
theorem countP_isMarked (text : List Char) (marked : Nat) :
    (rows text marked).countP isMarked =
      if 1 ≤ marked ∧ marked ≤ (Text.lines text).length then 1 else 0 := by
  have counted : (rows text marked).countP isMarked =
      (window (Text.lines text).length marked).count marked := by
    rw [rows, List.countP_map, List.count]
    congr 1
    funext number
    exact isMarked_row _ _ _
  have single : (window (Text.lines text).length marked).Nodup := List.nodup_range'
  rw [counted, single.count]
  refine if_congr (mem_window.trans ?_) rfl rfl
  omega

/-! ## Numbers of 32 bits -/

def saturatingAdd (number other : UInt32) : UInt32 :=
  if number + other < number then 0xffffffff else number + other

def saturatingSub (number other : UInt32) : UInt32 :=
  if number < other then 0 else number - other

theorem toNat_saturatingAdd (number other : UInt32) :
    (saturatingAdd number other).toNat = min (number.toNat + other.toNat) (2 ^ 32 - 1) := by
  have bound := number.toNat_lt
  have bound' := other.toNat_lt
  unfold saturatingAdd
  split
  case isTrue wraps =>
      rw [UInt32.lt_iff_toNat_lt, UInt32.toNat_add] at wraps
      change 2 ^ 32 - 1 = _
      omega
  case isFalse fits =>
      rw [UInt32.lt_iff_toNat_lt, UInt32.toNat_add] at fits
      rw [UInt32.toNat_add]
      omega

theorem toNat_saturatingSub (number other : UInt32) :
    (saturatingSub number other).toNat = number.toNat - other.toNat := by
  unfold saturatingSub
  split
  case isTrue less =>
      rw [UInt32.lt_iff_toNat_lt] at less
      exact (Nat.sub_eq_zero_of_le (Nat.le_of_lt less)).symm
  case isFalse notLess => exact UInt32.toNat_sub_of_le _ _ (UInt32.not_lt.mp notLess)

def firstShown (marked : UInt32) : UInt32 := max (saturatingSub marked (.ofNat context)) 1

def lastShown (marked : UInt32) : UInt32 := saturatingAdd marked (.ofNat context)

theorem toNat_succ_of_lt {number last : UInt32} (less : number < last) :
    (number + 1).toNat = number.toNat + 1 := by
  rw [UInt32.lt_iff_toNat_lt] at less
  have bound := last.toNat_lt
  rw [UInt32.toNat_add, UInt32.toNat_one]
  omega

def rowsThrough (lines : List (List Char)) (marked last number : UInt32) : List String :=
  if number ≤ last then
    match lines[number.toNat - 1]? with
    | none => []
    | some line =>
      row marked.toNat number.toNat line ::
        if number < last then rowsThrough lines marked last (number + 1) else []
  else []
termination_by last.toNat - number.toNat
decreasing_by
  rename_i less
  have next := toNat_succ_of_lt less
  rw [UInt32.lt_iff_toNat_lt] at less
  omega

/-- The lines around the line `marked`, counted in numbers of 32 bits. -/
def aroundWord (text : List Char) (marked : UInt32) : String :=
  String.join (rowsThrough (Text.lines text) marked (lastShown marked) (firstShown marked))

theorem toNat_firstShown (marked : UInt32) :
    (firstShown marked).toNat = max 1 (marked.toNat - context) := by
  have less : (saturatingSub marked (.ofNat context)).toNat = marked.toNat - context :=
    toNat_saturatingSub _ _
  rw [firstShown, UInt32.toNat_max, less, Nat.max_comm]
  rfl

theorem toNat_lastShown (marked : UInt32) :
    (lastShown marked).toNat = min (marked.toNat + context) (2 ^ 32 - 1) :=
  toNat_saturatingAdd _ _

theorem rowsThrough_eq {lines : List (List Char)} {marked last number : UInt32}
    (counted : 1 ≤ number.toNat) :
    rowsThrough lines marked last number =
      (List.range' number.toNat (min lines.length last.toNat + 1 - number.toNat)).map
        fun number => row marked.toNat number (lines.getD (number - 1) []) := by
  fun_induction rowsThrough lines marked last number with
  | case1 number _ missing =>
      have beyond := List.getElem?_eq_none_iff.mp missing
      rw [Nat.sub_eq_zero_of_le (by omega)]
      rfl
  | case2 number inside line found induction =>
      obtain ⟨within, -⟩ := List.getElem?_eq_some_iff.mp found
      rw [UInt32.le_iff_toNat_le] at inside
      rw [show min lines.length last.toNat + 1 - number.toNat =
          (min lines.length last.toNat - number.toNat) + 1 by omega, List.range'_succ,
        List.map_cons, List.getD_eq_getElem?_getD, found, Option.getD_some]
      congr 1
      split
      case isTrue less =>
          have next := toNat_succ_of_lt less
          rw [induction less (by omega), next, Nat.add_sub_add_right]
      case isFalse notLess =>
          rw [UInt32.lt_iff_toNat_lt] at notLess
          rw [Nat.sub_eq_zero_of_le (by omega)]
          rfl
  | case3 number behind =>
      rw [UInt32.le_iff_toNat_le] at behind
      rw [Nat.sub_eq_zero_of_le (by omega)]
      rfl

/-- An excerpt consists of the rows of its window, at most one of them marked, and has
none only if the marked line lies further behind the text than an excerpt reaches.
Numbers of 32 bits are enough to count the lines, up to the greatest of them. -/
theorem excerpt_is_window {text : List Char} (marked : UInt32)
    (few : (Text.lines text).length < 2 ^ 32) :
    around text marked.toNat = String.join (rows text marked.toNat) ∧
      (around text marked.toNat = "" ↔ (Text.lines text).length + context < marked.toNat) ∧
      (rows text marked.toNat).countP isMarked =
        (if 1 ≤ marked.toNat ∧ marked.toNat ≤ (Text.lines text).length then 1 else 0) ∧
      aroundWord text marked = around text marked.toNat ∧
      (firstShown marked).toNat = max 1 (marked.toNat - context) ∧
      (lastShown marked).toNat = min (marked.toNat + context) (2 ^ 32 - 1) := by
  have joined := around_eq_join_rows text marked.toNat
  refine ⟨joined, joined ▸ join_rows_eq_empty, countP_isMarked _ _, ?_, toNat_firstShown marked,
    toNat_lastShown marked⟩
  have counted : 1 ≤ (firstShown marked).toNat := toNat_firstShown marked ▸ Nat.le_max_left ..
  -- A window that is cut off at the greatest number ends with the text before that.
  have ends : min (Text.lines text).length (min (marked.toNat + context) (2 ^ 32 - 1)) =
      min (Text.lines text).length (marked.toNat + context) := by omega
  rw [joined, aroundWord, rowsThrough_eq counted, toNat_firstShown, toNat_lastShown, ends]
  rfl

theorem excerpt_is_window_behind_text :
    (Text.lines "a\nb\nc".toList).length < 2 ^ 32 ∧
      aroundWord "a\nb\nc".toList 4 = "  1  a\n  2  b\n  3  c\n" ∧
      (rows "a\nb\nc".toList 4).countP isMarked = 0 ∧
      around "a\nb\nc".toList (0xffffffff : UInt32).toNat = "" := by
  have few : (Text.lines "a\nb\nc".toList).length < 2 ^ 32 := by decide
  obtain ⟨-, -, marks, word, -⟩ := excerpt_is_window 4 few
  obtain ⟨-, empty, -⟩ := excerpt_is_window 0xffffffff few
  exact ⟨few, word.trans (by decide), marks.trans (by decide), empty.mpr (by decide)⟩

end Qml.Excerpt
