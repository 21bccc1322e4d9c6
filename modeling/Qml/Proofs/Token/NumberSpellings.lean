import Mathlib.Data.List.TakeWhile
import Qml.Proofs.Token.Locality

/-! # Spellings of numbers

A number literal is spelled with decimal digits, perhaps with a point among them and with
an exponent, or with hexadecimal digits behind a mark. Since one literal may begin another,
what counts in a text is the longest one at a place. -/

namespace Qml

open Qml.Text

theorem DecimalText.isExponentMark_iff {c : Char} :
    isExponentMark c = true ↔ c = 'e' ∨ c = 'E' := by
  simp [isExponentMark]

theorem isHexadecimalMark_iff {c : Char} : isHexadecimalMark c = true ↔ c = 'x' ∨ c = 'X' := by
  simp [isHexadecimalMark]

namespace Text

/-! ## Spellings -/

def ConsistsOf (property : Char → Bool) (text : List Char) : Prop :=
  ∀ c ∈ text, property c = true

/-- A decimal literal without an exponent: digits, and at most one point somewhere
among them. -/
inductive IsMantissa : List Char → Prop
  | whole {digits : List Char} (inhabited : digits ≠ []) (all : ConsistsOf Char.isDigit digits) :
      IsMantissa digits
  | pointed {whole fraction : List Char} (inhabited : whole ++ fraction ≠ [])
      (left : ConsistsOf Char.isDigit whole) (right : ConsistsOf Char.isDigit fraction) :
      IsMantissa (whole ++ '.' :: fraction)

def exponentSigns : List (List Char) := [[], ['+'], ['-']]

inductive IsDecimal : List Char → Prop
  | plain {literal : List Char} (isMantissa : IsMantissa literal) : IsDecimal literal
  | scaled {mantissa sign digits : List Char} {mark : Char} (isMantissa : IsMantissa mantissa)
      (isMark : DecimalText.isExponentMark mark = true) (isSign : sign ∈ exponentSigns)
      (inhabited : digits ≠ []) (all : ConsistsOf Char.isDigit digits) :
      IsDecimal (mantissa ++ mark :: (sign ++ digits))

def isHexadecimalDigit (c : Char) : Bool := (hexDigit? c).isSome

inductive IsHexadecimal : List Char → Prop
  | spelled {mark : Char} {digits : List Char} (isMark : isHexadecimalMark mark = true)
      (inhabited : digits ≠ []) (all : ConsistsOf isHexadecimalDigit digits) :
      IsHexadecimal ('0' :: mark :: digits)

def IsNumber (literal : List Char) : Prop := IsDecimal literal ∨ IsHexadecimal literal

/-- A number literal that is not the beginning of a longer one, given what comes after it. -/
structure IsLongest (literal after : List Char) : Prop where
  isNumber : IsNumber literal
  ends : ∀ more, more <+: after → IsNumber (literal ++ more) → more = []

theorem mem_exponentSigns {sign : List Char} :
    sign ∈ exponentSigns ↔ sign = [] ∨ sign = ['+'] ∨ sign = ['-'] := by
  simp [exponentSigns]

variable {literal after : List Char} {c : Char}

/-! ### Texts of one kind of characters -/

section

variable {property : Char → Bool} {text : List Char}

theorem ConsistsOf.singleton (holds : property c = true) : ConsistsOf property [c] :=
  List.forall_mem_singleton.mpr holds

theorem ConsistsOf.snoc (all : ConsistsOf property text) (holds : property c = true) :
    ConsistsOf property (text ++ [c]) :=
  List.forall_mem_append.mpr ⟨all, ConsistsOf.singleton holds⟩

theorem consistsOf_takeWhile (property : Char → Bool) (text : List Char) :
    ConsistsOf property (text.takeWhile property) := fun _ => List.mem_takeWhile_imp

theorem ConsistsOf.takeWhile_append (all : ConsistsOf property text)
    (ends : after.head?.any property = false) : (text ++ after).takeWhile property = text := by
  rw [List.takeWhile_append_of_pos all, takeWhile_eq_nil.mpr ends, List.append_nil]

end

/-! ### One digit more -/

theorem IsMantissa.snoc (isMantissa : IsMantissa literal) (digit : c.isDigit = true) :
    IsMantissa (literal ++ [c]) := by
  cases isMantissa with
  | whole inhabited all =>
      exact .whole (List.append_ne_nil_of_left_ne_nil inhabited _) (all.snoc digit)
  | @pointed whole fraction inhabited left right =>
      rw [List.append_assoc, List.cons_append]
      refine .pointed ?_ left (right.snoc digit)
      rw [← List.append_assoc]
      exact List.append_ne_nil_of_left_ne_nil inhabited _

theorem IsMantissa.snoc_point (isMantissa : IsMantissa literal) (noPoint : '.' ∉ literal) :
    IsMantissa (literal ++ ['.']) := by
  cases isMantissa with
  | whole inhabited all => exact .pointed (by rwa [List.append_nil]) all (List.forall_mem_nil _)
  | pointed => exact absurd (List.mem_append_right _ (List.mem_cons_self ..)) noPoint

theorem isHexadecimalDigit_of_isDigit (digit : c.isDigit = true) :
    isHexadecimalDigit c = true := by
  unfold isHexadecimalDigit hexDigit?
  rw [if_pos digit]
  rfl

theorem IsHexadecimal.snoc (isHexadecimal : IsHexadecimal literal)
    (digit : isHexadecimalDigit c = true) : IsHexadecimal (literal ++ [c]) := by
  obtain ⟨isMark, inhabited, all⟩ := isHexadecimal
  exact .spelled isMark (List.append_ne_nil_of_left_ne_nil inhabited _) (all.snoc digit)

theorem IsNumber.snoc (isNumber : IsNumber literal) (digit : c.isDigit = true) :
    IsNumber (literal ++ [c]) := by
  rcases isNumber with isDecimal | isHexadecimal
  · refine .inl ?_
    cases isDecimal with
    | plain isMantissa => exact .plain (isMantissa.snoc digit)
    | scaled isMantissa isMark isSign inhabited all =>
        rw [List.append_assoc, List.cons_append, List.append_assoc]
        exact .scaled isMantissa isMark isSign (List.append_ne_nil_of_left_ne_nil inhabited _)
          (all.snoc digit)
  · exact .inr (isHexadecimal.snoc (isHexadecimalDigit_of_isDigit digit))

/-! ### The characters of a literal -/

theorem IsMantissa.starts (isMantissa : IsMantissa literal) (after : List Char) :
    ∃ c rest, literal ++ after = c :: rest ∧ startsNumber c rest = true := by
  cases isMantissa with
  | whole inhabited all =>
      obtain ⟨c, more, rfl⟩ := List.exists_cons_of_ne_nil inhabited
      exact ⟨c, more ++ after, rfl, by simp [startsNumber, all c (List.mem_cons_self ..)]⟩
  | @pointed whole fraction inhabited left right =>
      cases whole with
      | cons c whole =>
          refine ⟨c, whole ++ '.' :: fraction ++ after, rfl, ?_⟩
          simp [startsNumber, left c (List.mem_cons_self ..)]
      | nil =>
          obtain ⟨c, more, rfl⟩ := List.exists_cons_of_ne_nil inhabited
          refine ⟨'.', c :: more ++ after, rfl, ?_⟩
          simp [startsNumber, right c (List.mem_cons_self ..)]

theorem IsNumber.starts (isNumber : IsNumber literal) (after : List Char) :
    ∃ c rest, literal ++ after = c :: rest ∧ startsNumber c rest = true := by
  rcases isNumber with isDecimal | isHexadecimal
  · cases isDecimal with
    | plain isMantissa => exact isMantissa.starts after
    | scaled isMantissa =>
        rw [List.append_assoc]
        exact isMantissa.starts _
  · obtain ⟨-, -, -⟩ := isHexadecimal
    exact ⟨'0', _, rfl, rfl⟩

theorem IsNumber.ne_nil (isNumber : IsNumber literal) : literal ≠ [] := by
  rintro rfl
  obtain ⟨c, rest, nothing, -⟩ := isNumber.starts []
  cases nothing

theorem not_isHexadecimalMark_of_isDigit (digit : c.isDigit = true) :
    isHexadecimalMark c = false := by
  refine Bool.eq_false_iff.mpr fun isMark => ?_
  rcases isHexadecimalMark_iff.mp isMark with rfl | rfl <;> cases digit

theorem IsMantissa.not_isHexadecimalMark (isMantissa : IsMantissa literal) :
    ∀ c ∈ literal, isHexadecimalMark c = false := by
  intro c among
  cases isMantissa with
  | whole inhabited all => exact not_isHexadecimalMark_of_isDigit (all c among)
  | pointed inhabited left right =>
      rw [List.mem_append, List.mem_cons] at among
      rcases among with inside | rfl | inside
      · exact not_isHexadecimalMark_of_isDigit (left c inside)
      · rfl
      · exact not_isHexadecimalMark_of_isDigit (right c inside)

theorem IsDecimal.not_isHexadecimalMark (isDecimal : IsDecimal literal) :
    ∀ c ∈ literal, isHexadecimalMark c = false := by
  intro c among
  cases isDecimal with
  | plain isMantissa => exact isMantissa.not_isHexadecimalMark c among
  | @scaled mantissa sign digits mark isMantissa isMark isSign inhabited all =>
      rw [List.mem_append, List.mem_cons, List.mem_append] at among
      rcases among with inside | rfl | inside | inside
      · exact isMantissa.not_isHexadecimalMark c inside
      · rcases DecimalText.isExponentMark_iff.mp isMark with rfl | rfl <;> rfl
      · rcases mem_exponentSigns.mp isSign with rfl | rfl | rfl
        · cases inside
        all_goals
          rw [List.mem_singleton.mp inside]
          rfl
      · exact not_isHexadecimalMark_of_isDigit (all c inside)

theorem IsDecimal.not_isHexadecimal (isDecimal : IsDecimal literal) : ¬ IsHexadecimal literal := by
  rintro ⟨isMark, -, -⟩
  have unmarked := isDecimal.not_isHexadecimalMark _
    (List.mem_cons_of_mem _ (List.mem_cons_self ..))
  rw [isMark] at unmarked
  cases unmarked

/-! ## Longest literals -/

theorem IsLongest.any_head? (longest : IsLongest literal after) {property : Char → Bool}
    (goesOn : ∀ c, property c = true → IsNumber (literal ++ [c])) :
    after.head?.any property = false := by
  cases after with
  | nil => rfl
  | cons c rest =>
      refine Bool.eq_false_iff.mpr fun holds => ?_
      exact List.cons_ne_nil c [] (longest.ends [c] ⟨rest, rfl⟩ (goesOn c holds))

theorem IsLongest.no_digit (longest : IsLongest literal after) :
    after.head?.any Char.isDigit = false :=
  longest.any_head? fun _ => longest.isNumber.snoc

theorem IsLongest.no_point (longest : IsLongest literal after) (isMantissa : IsMantissa literal)
    (noPoint : '.' ∉ literal) : after.head?.any (· = '.') = false := by
  refine longest.any_head? fun c isPoint => ?_
  rw [of_decide_eq_true isPoint]
  exact .inl (.plain (isMantissa.snoc_point noPoint))

/-- A number literal at the front of a text begins a longest one. -/
theorem IsNumber.exists_isLongest (isNumber : IsNumber literal) (after : List Char) :
    ∃ more rest, after = more ++ rest ∧ IsLongest (literal ++ more) rest := by
  -- A longer literal leaves less of the text, so the induction is on what comes after.
  induction size : after.length using Nat.strong_induction_on generalizing literal after with
  | _ size induction =>
      by_cases goesOn : ∃ more, more ≠ [] ∧ more <+: after ∧ IsNumber (literal ++ more)
      · obtain ⟨more, inhabited, ⟨rest, rfl⟩, longer⟩ := goesOn
        have positive := List.length_pos_iff.mpr inhabited
        rw [List.length_append] at size
        obtain ⟨further, tail, rfl, longest⟩ := induction rest.length (by omega) longer rest rfl
        refine ⟨more ++ further, tail, (List.append_assoc ..).symm, ?_⟩
        rwa [← List.append_assoc]
      · refine ⟨[], after, rfl, by rwa [List.append_nil], fun more front longer => ?_⟩
        rw [List.append_nil] at longer
        by_contra inhabited
        exact goesOn ⟨more, inhabited, front, longer⟩

theorem exists_isLongest_of_startsNumber {rest : List Char} (starts : startsNumber c rest = true) :
    ∃ literal after, c :: rest = literal ++ after ∧ IsLongest literal after := by
  obtain ⟨literal, after, textEq, isNumber⟩ :
      ∃ literal after, c :: rest = literal ++ after ∧ IsNumber literal := by
    simp only [startsNumber, Bool.or_eq_true, Bool.and_eq_true, decide_eq_true_eq] at starts
    rcases starts with digit | ⟨rfl, digit⟩
    · exact ⟨[c], rest, rfl, .inl (.plain (.whole (List.cons_ne_nil _ _) (.singleton digit)))⟩
    · cases rest with
      | nil => cases digit
      | cons d rest =>
          have isMantissa : IsMantissa ([] ++ '.' :: [d]) :=
            .pointed (List.cons_ne_nil _ _) (List.forall_mem_nil _) (.singleton digit)
          exact ⟨['.', d], rest, rfl, .inl (.plain isMantissa)⟩
  obtain ⟨more, tail, rfl, longest⟩ := isNumber.exists_isLongest after
  exact ⟨literal ++ more, tail, by rw [textEq, List.append_assoc], longest⟩

end Text

end Qml
