import Mathlib.Tactic.MkIffOfInductiveProp
import Qml.Proofs.Height.Words
import Qml.Proofs.InstanceTest.Tokens
import Qml.Proofs.Token.Joining

/-! # Words of small letters

A word of small letters of ASCII is one token wherever no further letter follows, and it
names neither a type nor a handler. -/

namespace Qml

/-! ## Small letters -/

def smallCodes : List Nat := List.range' 97 26

theorem toNat_mem_smallCodes {c : Char} (small : c.isLower = true) : c.toNat ∈ smallCodes := by
  obtain ⟨low, high⟩ := Bool.and_eq_true_iff.mp small
  have above : 97 ≤ c.toNat := UInt32.le_iff_toNat_le.mp (of_decide_eq_true low)
  have below : c.toNat ≤ 122 := UInt32.le_iff_toNat_le.mp (of_decide_eq_true high)
  rw [smallCodes, List.mem_range'_1]
  exact ⟨above, Nat.lt_succ_of_le below⟩

/-- What the lexer and the grammar find of a small letter. -/
@[mk_iff]
structure IsSmall (c : Char) : Prop where
  nameStart : isNameStart c = true
  namePart : isNamePart c = true
  plain : Text.isPlain c = true
  notSpace : Gap.isSpace c = false
  notUppercase : Text.isUppercase c = false
  notUpper : c.isUpper = false
  notDigit : c.isDigit = false
  size : c.utf8Size = 1
  notSign : c ∉ ['\x22', '\x27', '.', '/', '\n', '_']
  notMark : c ∉ Lexer.marks

instance (c : Char) : Decidable (IsSmall c) := decidable_of_iff' _ (isSmall_iff c)

theorem isSmall_of_isLower {c : Char} (small : c.isLower = true) : IsSmall c := by
  have found : ∀ code ∈ smallCodes, IsSmall (Char.ofNat code) := by decide +kernel
  rw [← Char.ofNat_toNat c]
  exact found c.toNat (toNat_mem_smallCodes small)

/-! ## Words -/

variable {word : String} (small : word.toList.all Char.isLower = true)

include small

theorem isSmall_of_mem {c : Char} (member : c ∈ word.toList) : IsSmall c :=
  isSmall_of_isLower (List.all_eq_true.mp small c member)

theorem isElementWord_of_small : isElementWord word = false := by
  unfold isElementWord
  cases letters : word.toList with
  | nil => rfl
  | cons c rest =>
      have first : c ∈ word.toList := letters ▸ List.mem_cons_self
      exact (isSmall_of_mem small first).notUppercase

theorem isHandlerWord_of_small : isHandlerWord word = false := by
  have noSignal (front : List Char) {rest : List Char} (letters : word.toList = front ++ rest) :
      isSignalWord rest = false := by
    cases rest with
    | nil => rfl
    | cons c rest =>
        have first : c ∈ word.toList := by simp [letters]
        simp [isSignalWord, (isSmall_of_mem small first).notUpper]
  unfold isHandlerWord
  split
  case h_1 rest letters => exact noSignal ['o', 'n', '_'] letters
  case h_2 rest _ letters => exact noSignal ['o', 'n'] letters
  case h_3 => rfl

theorem plain_of_small : word.toList.all Text.isPlain = true :=
  List.all_eq_true.mpr fun _ member => (isSmall_of_mem small member).plain

theorem after_of_small (position : Position) : position.after word.toList =
    ⟨position.line, position.column + word.length, position.offset + word.length⟩ := by
  have moves : ∀ (letters : List Char) (position : Position), (∀ c ∈ letters, IsSmall c) →
      position.after letters = ⟨position.line, position.column + letters.length,
        position.offset + letters.length⟩ := by
    intro letters
    induction letters with
    | nil => exact fun _ _ => rfl
    | cons c rest induction =>
        intro position all
        have first := all c List.mem_cons_self
        have step : position.step c =
            ⟨position.line, position.column + 1, position.offset + 1⟩ := by
          have notFeed : c ≠ '\n' := by
            rintro rfl
            exact absurd first.notSign (by decide)
          rw [Position.step, if_neg notFeed, first.size]
        rw [Position.after_cons, step,
          induction _ fun d later => all d (List.mem_cons_of_mem c later), List.length_cons]
        simp only [Position.mk.injEq, true_and]
        omega
  exact moves word.toList position fun _ => isSmall_of_mem small

theorem takeWhile_of_small {rest : List Char} (ends : rest.head?.any isNamePart = false) :
    (word.toList ++ rest).takeWhile isNamePart = word.toList := by
  have none : rest.takeWhile isNamePart = [] := Text.takeWhile_eq_nil.mpr ends
  rw [List.takeWhile_append_of_pos fun c member => (isSmall_of_mem small member).namePart, none,
    List.append_nil]

namespace Lexer

variable (inhabited : word ≠ "")

include inhabited

theorem exists_small : ∃ c rest, word.toList = c :: rest ∧ IsSmall c := by
  obtain ⟨c, rest, letters⟩ := List.exists_cons_of_ne_nil
    (show word.toList ≠ [] by simpa using inhabited)
  exact ⟨c, rest, letters, isSmall_of_mem small (letters ▸ List.mem_cons_self)⟩

theorem gap_of_small (rest : List Char) : Gap.ofText (word.toList ++ rest) = .empty := by
  obtain ⟨c, more, letters, isSmall⟩ := exists_small small inhabited
  have notSign := isSmall.notSign
  rw [letters]
  apply ofText_eq_empty _ _ isSmall.notSpace
  · rintro rfl
    simp at notSign
  · rintro rfl
    simp at notSign

theorem lexeme_of_small {rest : List Char} (ends : rest.head?.any isNamePart = false)
    (regexpAllowed : Bool) :
    lexeme regexpAllowed (word.toList ++ rest) = ⟨.ofWord word, word.length⟩ := by
  obtain ⟨c, more, letters, isSmall⟩ := exists_small small inhabited
  have taken := takeWhile_of_small small ends
  have notSign := isSmall.notSign
  simp only [List.mem_cons, List.not_mem_nil, or_false, not_or] at notSign
  obtain ⟨notDouble, notSingle, notPoint, notSlash, -⟩ := notSign
  rw [letters] at taken ⊢
  simp only [List.cons_append] at taken ⊢
  have whole : String.ofList (c :: more) = word := by rw [← letters, String.ofList_toList]
  have length : (c :: more).length = word.length := by rw [← letters, String.length_toList]
  simp [lexeme, notDouble, notSingle, isSmall.notDigit, notPoint, isSmall.notMark,
    notSlash, isSmall.nameStart, taken, whole, length]

theorem ofWord_of_isName (isName : IsName word) : TokenKind.ofWord word = .name word := by
  have noGap : Gap.ofText (ofText word.toList).rest = .empty := by
    have alone := gap_of_small small inhabited []
    rwa [List.append_nil] at alone
  have found : lexeme true (ofText word.toList).rest = ⟨.ofWord word, word.length⟩ := by
    have nothing : ([] : List Char).head?.any isNamePart = false := rfl
    have alone := lexeme_of_small small inhabited nothing true
    rwa [List.append_nil] at alone
  obtain ⟨token, rest, tokensEq, kind, -⟩ := List.map_eq_cons_iff.mp isName
  have first : (ofText word.toList).next.1 = token := next_of_takeToEnd tokensEq
  have inside : TokenKind.ofWord word ≠ .endOfInput := by
    intro atEnd
    have lexical := TokenKind.isLexical_ofWord word
    rw [atEnd] at lexical
    cases lexical
  rw [← kind, ← first]
  exact (next_of_empty noGap found inside).1.symm

end Lexer

end Qml
