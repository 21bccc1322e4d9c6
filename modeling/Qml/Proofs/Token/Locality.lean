import Qml.Proofs.Token.Tiling

/-! # What a token depends on

The lexer reads a token without looking far beyond it: a token is the same in
every text that begins with its characters and goes on in the same way, or with
a blank or a mark that no token but itself contains. The same holds of the gap
before a token. -/

namespace Qml

/-! ## Texts that agree at the front -/

namespace Text

def separatingMarks : List Char := ['(', ',', ')']

/-- Characters that end every token before them. -/
def separators : List Char := separatingMarks ++ [' ', '\n']

/-- The second text is the same as the first one up to a separator. -/
inductive Cut : List Char → List Char → Prop
  | here {mark : Char} (separates : mark ∈ separators) (rest tail : List Char) :
      Cut rest (mark :: tail)
  | cons (c : Char) {rest rest' : List Char} (cut : Cut rest rest') : Cut (c :: rest) (c :: rest')

/-- The second text is the same as the first one for `count` characters, and from
there up to a separator. -/
inductive Agree : Nat → List Char → List Char → Prop
  | cut {rest rest' : List Char} (cut : Cut rest rest') : Agree 0 rest rest'
  | cons (c : Char) {count : Nat} {rest rest' : List Char} (agree : Agree count rest rest') :
      Agree (count + 1) (c :: rest) (c :: rest')

theorem Cut.append (chars : List Char) {rest rest' : List Char} (cut : Cut rest rest') :
    Cut (chars ++ rest) (chars ++ rest') := by
  induction chars with
  | nil => exact cut
  | cons c chars induction => exact .cons c induction

theorem Agree.append (chars : List Char) {rest rest' : List Char} (cut : Cut rest rest') :
    Agree chars.length (chars ++ rest) (chars ++ rest') := by
  induction chars with
  | nil => exact .cut cut
  | cons c chars induction => exact .cons c induction

theorem Agree.toCut {count : Nat} {text text' : List Char} (agree : Agree count text text') :
    Cut text text' := by
  induction agree with
  | cut cut => exact cut
  | cons c agree induction => exact .cons c induction

def Inside (property : Char → Bool) : Prop := ∀ mark ∈ separators, property mark = false

instance (property : Char → Bool) : Decidable (Inside property) :=
  decidable_of_iff (separators.all fun mark => !property mark) (by simp [Inside])

theorem Cut.any_head? {property : Char → Bool} (inside : Inside property)
    {text text' : List Char} (cut : Cut text text') (ends : text.head?.any property = false) :
    text'.head?.any property = false := by
  cases cut with
  | here separates rest tail => exact inside _ separates
  | cons c cut => exact ends

theorem Cut.isPrefixOf {word : List Char} (inside : ∀ mark ∈ separators, mark ∉ word)
    {text text' : List Char} (cut : Cut text text') (begins : word.isPrefixOf text' = true) :
    word.isPrefixOf text = true := by
  induction cut generalizing word with
  | here separates rest tail =>
      cases word with
      | nil => rfl
      | cons c word =>
          simp only [List.isPrefixOf_cons_cons, Bool.and_eq_true, beq_iff_eq] at begins
          rw [begins.1] at inside
          exact absurd (List.mem_cons_self ..) (inside _ separates)
  | cons c cut induction =>
      cases word with
      | nil => rfl
      | cons first word =>
          simp only [List.isPrefixOf_cons_cons, Bool.and_eq_true, beq_iff_eq] at begins ⊢
          refine ⟨begins.1, induction (fun mark member within => ?_) begins.2⟩
          exact inside mark member (List.mem_cons_of_mem _ within)

theorem takeWhile_eq_nil {property : Char → Bool} {text : List Char} :
    text.takeWhile property = [] ↔ text.head?.any property = false := by
  cases text with
  | nil => simp
  | cons c rest => cases holds : property c <;> simp [holds]

namespace Agree

variable {count : Nat} {text text' : List Char} (agree : Agree count text text')

include agree

theorem cons_inv {c : Char} {rest : List Char} (textEq : text = c :: rest) (positive : 0 < count) :
    ∃ rest', text' = c :: rest' ∧ Agree (count - 1) rest rest' := by
  subst textEq
  cases agree with
  | cut => exact absurd positive (Nat.lt_irrefl 0)
  | cons c agree => exact ⟨_, rfl, agree⟩

theorem ne_nil (positive : 0 < count) : text ≠ [] := by
  cases agree with
  | cut => exact absurd positive (Nat.lt_irrefl 0)
  | cons c agree => exact List.cons_ne_nil _ _

theorem any_head? {property : Char → Bool} (inside : Inside property)
    (ends : text.head?.any property = false) : text'.head?.any property = false :=
  agree.toCut.any_head? inside ends

theorem head?_eq (positive : 0 < count) : text'.head? = text.head? := by
  cases agree with
  | cut => exact absurd positive (Nat.lt_irrefl 0)
  | cons c agree => rfl

theorem drop (some : Nat) (within : some ≤ count) :
    Agree (count - some) (text.drop some) (text'.drop some) := by
  induction some generalizing count text text' with
  | zero => exact agree
  | succ some induction =>
      cases agree with
      | cut => exact absurd within (Nat.not_succ_le_zero _)
      | @cons c count rest rest' agree =>
          have dropped := induction agree (Nat.le_of_succ_le_succ within)
          rw [Nat.add_sub_add_right]
          exact dropped

theorem take {some : Nat} (within : some ≤ count) : text'.take some = text.take some := by
  induction some generalizing count text text' with
  | zero => rfl
  | succ some induction =>
      cases agree with
      | cut => exact absurd within (Nat.not_succ_le_zero _)
      | @cons c count rest rest' agree =>
          simp [induction agree (Nat.le_of_succ_le_succ within)]

theorem takeWhile {property : Char → Bool} (inside : Inside property)
    (within : (text.takeWhile property).length ≤ count) :
    text'.takeWhile property = text.takeWhile property := by
  induction agree with
  | @cut rest rest' cut =>
      have stops : rest.takeWhile property = [] := by simpa using within
      rw [stops, takeWhile_eq_nil]
      exact cut.any_head? inside (takeWhile_eq_nil.mp stops)
  | cons c agree induction =>
      cases holds : property c with
      | false => simp [holds]
      | true =>
          simp only [List.takeWhile_cons, holds, if_true, List.length_cons] at within ⊢
          rw [induction (Nat.le_of_succ_le_succ within)]

end Agree

end Text

open Qml.Text

/-! ## Gaps -/

namespace Gap

def opensComment (c : Char) : Bool := c = '/' || c = '*'

theorem measure_blank_cons {c : Char} {rest : List Char}
    (plain : c = '/' → rest.head?.any opensComment = false) :
    measure .blank (c :: rest) =
      if c = '\n' then (measure .blank rest).prependLineBreak
      else if isSpace c then (measure .blank rest).prepend 1
      else empty := by
  rw [measure]
  · rintro more rfl rfl
    exact absurd (plain rfl) (by simp [opensComment])
  · rintro more rfl rfl
    exact absurd (plain rfl) (by simp [opensComment])

theorem plain_of_ne {c : Char} {rest : List Char}
    (noLine : ∀ more, c = '/' → rest = '/' :: more → False)
    (noBlock : ∀ more, c = '/' → rest = '*' :: more → False) (slash : c = '/') :
    rest.head?.any opensComment = false := by
  cases rest with
  | nil => rfl
  | cons d more =>
      have notLine : d ≠ '/' := fun second => noLine more slash (by rw [second])
      have notBlock : d ≠ '*' := fun second => noBlock more slash (by rw [second])
      simp [opensComment, notLine, notBlock]

theorem measure_blockComment_cons {c : Char} {rest : List Char}
    (inside : c = '*' → rest.head? ≠ some '/') :
    measure .blockComment (c :: rest) = (measure .blockComment rest).prependComment c := by
  rw [measure]
  rintro more rfl rfl
  exact absurd rfl (inside rfl)

/-- A gap that is followed by a character of the same token in both texts. -/
theorem measure_agree {mode : Mode} {text text' : List Char} {count : Nat}
    (agree : Agree count text text') (closed : (measure mode text).closed = true)
    (within : (measure mode text).length < count) : measure mode text' = measure mode text := by
  fun_induction measure mode text generalizing text' count with
  | case1 => exact absurd rfl (agree.ne_nil (Nat.zero_lt_of_lt within))
  | case2 rest induction =>
      simp only [prepend] at within
      obtain ⟨_, rfl, one⟩ := agree.cons_inv rfl (by omega)
      obtain ⟨rest', rfl, two⟩ := one.cons_inv rfl (by omega)
      rw [measure, induction two closed (by omega)]
  | case3 rest induction =>
      simp only [prepend] at within
      obtain ⟨_, rfl, one⟩ := agree.cons_inv rfl (by omega)
      obtain ⟨rest', rfl, two⟩ := one.cons_inv rfl (by omega)
      rw [measure, induction two closed (by omega)]
  | case4 rest _ _ induction =>
      simp only [prependLineBreak] at within
      obtain ⟨rest', rfl, one⟩ := agree.cons_inv rfl (by omega)
      rw [measure_blank_cons (by simp), if_pos rfl, induction one closed (by omega)]
  | case5 c rest noLine noBlock notBreak blank induction =>
      simp only [prepend] at within
      obtain ⟨rest', rfl, one⟩ := agree.cons_inv rfl (by omega)
      have notSlash : c ≠ '/' := by
        rintro rfl
        exact absurd blank (by decide)
      rw [measure_blank_cons (fun slash => absurd slash notSlash), if_neg notBreak, if_pos blank,
        induction one closed (by omega)]
  | case6 c rest noLine noBlock notBreak notBlank =>
      obtain ⟨rest', rfl, one⟩ := agree.cons_inv rfl (by omega)
      have plain := plain_of_ne noLine noBlock
      rw [measure_blank_cons (fun slash => one.any_head? (by decide) (plain slash)),
        if_neg notBreak, if_neg notBlank]
  | case7 => exact absurd rfl (agree.ne_nil (Nat.zero_lt_of_lt within))
  | case8 rest induction =>
      simp only [prependLineBreak] at within
      obtain ⟨rest', rfl, one⟩ := agree.cons_inv rfl (by omega)
      rw [measure, if_pos rfl, induction one closed (by omega)]
  | case9 c rest notBreak induction =>
      simp only [prepend] at within
      obtain ⟨rest', rfl, one⟩ := agree.cons_inv rfl (by omega)
      rw [measure, if_neg notBreak, induction one closed (by omega)]
  | case10 => cases closed
  | case11 rest induction =>
      simp only [prepend] at within
      obtain ⟨_, rfl, one⟩ := agree.cons_inv rfl (by omega)
      obtain ⟨rest', rfl, two⟩ := one.cons_inv rfl (by omega)
      rw [measure, induction two closed (by omega)]
  | case12 c rest inside induction =>
      rw [prependComment_length] at within
      rw [prependComment_closed] at closed
      obtain ⟨rest', rfl, one⟩ := agree.cons_inv rfl (by omega)
      rw [measure_blockComment_cons ?_, induction one closed (by omega)]
      rintro rfl
      rw [one.head?_eq (by omega), Ne, List.head?_eq_some_iff]
      rintro ⟨more, rfl⟩
      exact inside more rfl rfl

theorem measure_drop {mode : Mode} {text : List Char}
    (closed : (measure mode text).closed = true) :
    measure .blank (text.drop (measure mode text).length) = empty := by
  fun_induction measure mode text with
  | case1 => rfl
  | case2 rest induction => exact induction closed
  | case3 rest induction => exact induction closed
  | case4 rest _ _ induction => exact induction closed
  | case5 c rest _ _ notBreak blank induction => exact induction closed
  | case6 c rest noLine noBlock notBreak notBlank =>
      change measure .blank (c :: rest) = empty
      rw [measure_blank_cons (plain_of_ne noLine noBlock), if_neg notBreak, if_neg notBlank]
  | case7 => rfl
  | case8 rest induction => exact induction closed
  | case9 c rest notBreak induction => exact induction closed
  | case10 => cases closed
  | case11 rest induction => exact induction closed
  | case12 c rest inside induction =>
      rw [prependComment_length]
      rw [prependComment_closed] at closed
      exact induction closed

end Gap

/-! ## Literals -/

theorem Reading.emit_eq_ok {reading : Reading} {c : Char} {value : List Char}
    (ok : (reading.emit c).result = .ok value) : ∃ more, reading.result = .ok more := by
  cases result : reading.result with
  | ok more => exact ⟨more, rfl⟩
  | error fault => simp [emit, result, Except.map] at ok

theorem stringBody_length_pos {quote : Char} {mode : StringState} {text value : List Char}
    (ok : (stringBody quote mode text).result = .ok value) :
    0 < (stringBody quote mode text).length := by
  fun_cases stringBody quote mode text <;>
    simp_all [stringBody, Reading.fail, Reading.done, Reading.skip, Reading.emit]

theorem stringBody_agree {quote : Char} {mode : StringState} {text text' value : List Char}
    {count : Nat} (agree : Agree count text text')
    (ok : (stringBody quote mode text).result = .ok value)
    (within : (stringBody quote mode text).length ≤ count) :
    stringBody quote mode text' = stringBody quote mode text := by
  induction agree generalizing mode value with
  | cut cut => exact absurd within (Nat.not_le_of_lt (stringBody_length_pos ok))
  | @cons c count rest rest' agree induction =>
      have skipped : ∀ {mode}, (stringBody quote mode rest).skip.result = .ok value →
          (stringBody quote mode rest).skip.length ≤ count + 1 →
            stringBody quote mode rest' = stringBody quote mode rest := fun ok within =>
        induction ok (Nat.le_of_succ_le_succ within)
      have emitted : ∀ {mode c}, ((stringBody quote mode rest).emit c).result = .ok value →
          ((stringBody quote mode rest).emit c).length ≤ count + 1 →
            stringBody quote mode rest' = stringBody quote mode rest := by
        intro mode c ok within
        obtain ⟨more, ok⟩ := Reading.emit_eq_ok ok
        exact induction ok (Nat.le_of_succ_le_succ within)
      cases mode with
      | plain =>
          simp only [stringBody] at ok within ⊢
          grind
      | escaped =>
          simp only [stringBody] at ok within ⊢
          grind
      | hexadecimal further digits =>
          cases digit? : hexDigit? c with
          | none => simp [stringBody, digit?, Reading.fail] at ok
          | some digit =>
              cases further with
              | zero =>
                  simp only [stringBody, digit?] at ok within ⊢
                  rw [emitted ok within]
              | succ more =>
                  simp only [stringBody, digit?] at ok within ⊢
                  rw [skipped ok within]

theorem regexpBody_length_pos {inClass escaped : Bool} {text pattern : List Char}
    (ok : (regexpBody inClass escaped text).result = .ok pattern) :
    0 < (regexpBody inClass escaped text).length := by
  fun_cases regexpBody inClass escaped text <;>
    simp_all [regexpBody, Reading.fail, Reading.done, Reading.emit]

theorem regexpBody_agree {inClass escaped : Bool} {text text' pattern : List Char} {count : Nat}
    (agree : Agree count text text')
    (ok : (regexpBody inClass escaped text).result = .ok pattern)
    (within : (regexpBody inClass escaped text).length ≤ count) :
    regexpBody inClass escaped text' = regexpBody inClass escaped text := by
  induction agree generalizing inClass escaped pattern with
  | cut cut => exact absurd within (Nat.not_le_of_lt (regexpBody_length_pos ok))
  | @cons c count rest rest' agree induction =>
      have emitted : ∀ {inClass escaped c},
          ((regexpBody inClass escaped rest).emit c).result = .ok pattern →
          ((regexpBody inClass escaped rest).emit c).length ≤ count + 1 →
            regexpBody inClass escaped rest' = regexpBody inClass escaped rest := by
        intro inClass escaped c ok within
        obtain ⟨more, ok⟩ := Reading.emit_eq_ok ok
        exact induction ok (Nat.le_of_succ_le_succ within)
      simp only [regexpBody] at ok within ⊢
      grind

/-! ## Numbers -/

theorem inside_isDigit : Inside Char.isDigit := by decide

theorem DecimalText.fraction?_eq (text : List Char) :
    fraction? text = if text.head?.any (· = '.') then some ((text.drop 1).takeWhile Char.isDigit)
      else none := by
  unfold fraction?
  split
  · rfl
  · next other =>
      cases text with
      | nil => rfl
      | cons c rest =>
          have notPoint : c ≠ '.' := fun point => other rest (by rw [point])
          simp [notPoint]

theorem DecimalText.fraction?_agree {text text' : List Char} {count : Nat}
    (agree : Agree count text text')
    (within : partLength List.length (fraction? text) ≤ count) :
    fraction? text' = fraction? text := by
  rw [fraction?_eq] at within
  rw [fraction?_eq, fraction?_eq]
  cases point : text.head?.any (· = '.') with
  | false =>
      rw [agree.any_head? (by decide) point]
      rfl
  | true =>
      simp only [point, if_true, partLength] at within
      rw [agree.head?_eq (by omega), point,
        (agree.drop 1 (by omega)).takeWhile inside_isDigit (by omega)]

def ExponentText.isSign (c : Char) : Bool := c = '+' || c = '-'

theorem ExponentText.ofText_eq (text : List Char) :
    ofText text = if text.head?.any isSign then
        ⟨text.take 1, (text.drop 1).takeWhile Char.isDigit⟩
      else ⟨[], text.takeWhile Char.isDigit⟩ := by
  cases text with
  | nil => rfl
  | cons c rest => simp [ofText, isSign]

theorem ExponentText.ofText_agree {text text' : List Char} {count : Nat}
    (agree : Agree count text text') (within : (ofText text).length ≤ count) :
    ofText text' = ofText text := by
  rw [ofText_eq] at within
  rw [ofText_eq, ofText_eq]
  cases signed : text.head?.any isSign with
  | false =>
      simp only [signed, length] at within
      rw [agree.any_head? (by decide) signed]
      simp [agree.takeWhile inside_isDigit (by simpa using within)]
  | true =>
      have present : 0 < (text.take 1).length := by
        cases text with
        | nil => cases signed
        | cons c rest => exact Nat.one_pos
      simp only [signed, if_true, length] at within
      rw [agree.head?_eq (by omega), signed, agree.take (by omega),
        (agree.drop 1 (by omega)).takeWhile inside_isDigit (by omega)]
      rfl

def DecimalText.isExponentMark (c : Char) : Bool := c = 'e' || c = 'E'

theorem DecimalText.exponent?_eq (text : List Char) :
    exponent? text = if text.head?.any isExponentMark then some (.ofText (text.drop 1))
      else none := by
  unfold exponent?
  split
  · rfl
  · rfl
  · next small large =>
      cases text with
      | nil => rfl
      | cons c rest =>
          have notSmall : c ≠ 'e' := fun mark => small rest (by rw [mark])
          have notLarge : c ≠ 'E' := fun mark => large rest (by rw [mark])
          simp [isExponentMark, notSmall, notLarge]

theorem DecimalText.exponent?_agree {text text' : List Char} {count : Nat}
    (agree : Agree count text text')
    (within : partLength ExponentText.length (exponent? text) ≤ count) :
    exponent? text' = exponent? text := by
  rw [exponent?_eq] at within
  rw [exponent?_eq, exponent?_eq]
  cases mark : text.head?.any isExponentMark with
  | false =>
      rw [agree.any_head? (by decide) mark]
      rfl
  | true =>
      simp only [mark, if_true, partLength] at within
      rw [agree.head?_eq (by omega), mark,
        ExponentText.ofText_agree (agree.drop 1 (by omega)) (by omega)]

theorem DecimalText.ofText_agree {text text' : List Char} {count : Nat}
    (agree : Agree count text text') (within : (ofText text).length ≤ count) :
    ofText text' = ofText text := by
  simp only [length, ofText] at within
  have whole := agree.takeWhile inside_isDigit (by omega)
  have afterWhole := agree.drop (text.takeWhile Char.isDigit).length (by omega)
  have fraction := fraction?_agree afterWhole (by omega)
  have afterFraction := afterWhole.drop
    (partLength List.length (fraction? (text.drop (text.takeWhile Char.isDigit).length)))
    (by omega)
  have exponent := exponent?_agree afterFraction (by omega)
  simp only [ofText, whole, fraction, exponent]

theorem hexadecimalLexeme_agree {opening text text' : List Char} {count : Nat}
    (agree : Agree count text text')
    (within : (hexadecimalLexeme opening text).length ≤ opening.length + count) :
    hexadecimalLexeme opening text' = hexadecimalLexeme opening text := by
  have inside : Inside fun c => (hexDigit? c).isSome := by decide
  have digits := agree.takeWhile inside ?_
  · simp only [hexadecimalLexeme, digits]
  · simp only [hexadecimalLexeme] at within
    split at within
    all_goals
      simp only [List.length_append] at within
      omega

theorem decimalLexeme_agree {text text' : List Char} {count : Nat}
    (agree : Agree count text text') (whole : ∀ fault, (decimalLexeme text).kind ≠ .malformed fault)
    (within : (decimalLexeme text).length ≤ count) : decimalLexeme text' = decimalLexeme text := by
  simp only [decimalLexeme] at whole within ⊢
  cases named : (text.drop (DecimalText.ofText text).length).head?.any isNameStart with
  | true =>
      simp only [named, if_true] at whole
      exact absurd rfl (whole _)
  | false =>
      simp only [named, Bool.false_eq_true, if_false] at within ⊢
      have ends := (agree.drop _ within).any_head? (by decide) named
      simp only [DecimalText.ofText_agree agree within, ends, agree.take within,
        Bool.false_eq_true, if_false]

def isHexadecimalMark (c : Char) : Bool := c = 'x' || c = 'X'

theorem numberLexeme_eq (c : Char) (rest : List Char) :
    numberLexeme (c :: rest) = if c = '0' && rest.head?.any isHexadecimalMark then
        hexadecimalLexeme (c :: rest.take 1) (rest.drop 1)
      else decimalLexeme (c :: rest) := by
  unfold numberLexeme
  split
  · next textEq => cases textEq; rfl
  · next textEq => cases textEq; rfl
  · next small large =>
      cases rest with
      | nil => simp
      | cons d rest =>
          have notSmall : ¬ (c = '0' ∧ d = 'x') := by
            rintro ⟨rfl, rfl⟩
            exact small rest rfl
          have notLarge : ¬ (c = '0' ∧ d = 'X') := by
            rintro ⟨rfl, rfl⟩
            exact large rest rfl
          rw [if_neg]
          simp only [List.head?_cons, Option.any_some, isHexadecimalMark, Bool.and_eq_true,
            Bool.or_eq_true, decide_eq_true_eq]
          rintro ⟨zero, mark | mark⟩
          · exact notSmall ⟨zero, mark⟩
          · exact notLarge ⟨zero, mark⟩

theorem numberLexeme_agree {c : Char} {rest rest' : List Char} {count : Nat}
    (agree : Agree count rest rest')
    (whole : ∀ fault, (numberLexeme (c :: rest)).kind ≠ .malformed fault)
    (within : (numberLexeme (c :: rest)).length ≤ count + 1) :
    numberLexeme (c :: rest') = numberLexeme (c :: rest) := by
  rw [numberLexeme_eq] at whole within
  rw [numberLexeme_eq, numberLexeme_eq]
  cases marked : rest.head?.any isHexadecimalMark with
  | false =>
      simp only [marked, Bool.and_false, Bool.false_eq_true, if_false] at whole within
      simp only [agree.any_head? (by decide) marked, Bool.and_false, Bool.false_eq_true, if_false]
      exact decimalLexeme_agree (.cons c agree) whole within
  | true =>
      cases zero : decide (c = '0') with
      | false =>
          simp only [zero, Bool.false_and, Bool.false_eq_true, if_false] at whole within ⊢
          exact decimalLexeme_agree (.cons c agree) whole within
      | true =>
          simp only [zero, marked, Bool.and_self, if_true] at within ⊢
          have spelled : (c :: rest.take 1).length ≤
              (hexadecimalLexeme (c :: rest.take 1) (rest.drop 1)).length := by
            simp only [hexadecimalLexeme]
            split <;> simp
          have two : (c :: rest.take 1).length = 2 := by
            cases rest with
            | nil => cases marked
            | cons d rest => rfl
          rw [agree.head?_eq (by omega), marked, agree.take (by omega), Bool.and_self, if_pos rfl]
          exact hexadecimalLexeme_agree (agree.drop 1 (by omega)) (by omega)

/-! ## Operators -/

theorem separators_not_mem_signs :
    ∀ operator ∈ Operator.signs, ∀ mark ∈ separators, mark ∉ operator.text.toList := by
  have apart : (Operator.signs.all fun operator => separators.all fun mark =>
      !operator.text.toList.contains mark) = true := by decide +kernel
  simpa using apart

theorem operatorAt?_agree {text text' : List Char} {count : Nat} (agree : Agree count text text')
    {operator : Operator} (found : Lexer.operatorAt? text = some operator)
    (within : operator.text.length ≤ count) : Lexer.operatorAt? text' = some operator := by
  obtain ⟨begins, longer, shorter, signsEq, others⟩ := List.find?_eq_some_iff_append.mp found
  refine List.find?_eq_some_iff_append.mpr ⟨?_, longer, shorter, signsEq, ?_⟩
  · rw [List.isPrefixOf_iff_prefix, List.prefix_iff_eq_take] at begins ⊢
    rw [agree.take (by rw [String.length_toList]; exact within)]
    exact begins
  · intro other member
    have isSign : other ∈ Operator.signs := by
      rw [signsEq]
      exact List.mem_append_left _ member
    have absent := others other member
    rw [Bool.not_eq_true'] at absent ⊢
    rw [Bool.eq_false_iff] at absent ⊢
    intro begins
    exact absent (agree.toCut.isPrefixOf (separators_not_mem_signs other isSign) begins)

/-! ## Lexemes -/

theorem stringLexeme_agree {quote : Char} {rest rest' : List Char} {count : Nat}
    (agree : Agree count rest rest')
    (whole : ∀ fault, (stringLexeme quote rest).kind ≠ .malformed fault)
    (within : (stringLexeme quote rest).length ≤ count + 1) :
    stringLexeme quote rest' = stringLexeme quote rest := by
  simp only [stringLexeme] at whole within ⊢
  cases ok : (stringBody quote .plain rest).result with
  | error fault =>
      simp only [ok] at whole
      exact absurd rfl (whole fault)
  | ok value =>
      simp only [ok] at within
      rw [stringBody_agree agree ok (by omega), ok]

theorem regexpLexeme_agree {rest rest' : List Char} {count : Nat} (agree : Agree count rest rest')
    (whole : ∀ fault, (regexpLexeme rest).kind ≠ .malformed fault)
    (within : (regexpLexeme rest).length ≤ count + 1) :
    regexpLexeme rest' = regexpLexeme rest := by
  simp only [regexpLexeme] at whole within ⊢
  cases ok : (regexpBody false false rest).result with
  | error fault =>
      simp only [ok] at whole
      exact absurd rfl (whole fault)
  | ok pattern =>
      simp only [ok] at within
      have body := regexpBody_agree agree ok (by omega)
      have flags := (agree.drop (regexpBody false false rest).length (by omega)).takeWhile
        (by decide : Inside isNamePart) (by omega)
      simp only [body, ok, flags]

namespace Lexer

theorem two_le_length_of_point {rest : List Char} (digit : rest.head?.any Char.isDigit = true) :
    2 ≤ (numberLexeme ('.' :: rest)).length := by
  have inhabited : 0 < (rest.takeWhile Char.isDigit).length := by
    rw [List.length_pos_iff, Ne, takeWhile_eq_nil, digit]
    simp
  have long : 2 ≤ (DecimalText.ofText ('.' :: rest)).length := by
    have point : '.'.isDigit = false := by decide
    simp only [DecimalText.length, DecimalText.ofText, List.takeWhile_cons, point,
      Bool.false_eq_true, if_false, List.length_nil, List.drop_zero, DecimalText.fraction?,
      DecimalText.partLength]
    omega
  rw [numberLexeme_eq]
  simp only [show ('.' = '0') = False by decide, decide_false, Bool.false_and, Bool.false_eq_true,
    if_false, decimalLexeme]
  split <;> simp only <;> omega

theorem startsNumber_agree {c : Char} {rest rest' : List Char} {count : Nat}
    (agree : Agree count rest rest')
    (within : startsNumber c rest = true → (numberLexeme (c :: rest)).length ≤ count + 1) :
    startsNumber c rest' = startsNumber c rest := by
  unfold startsNumber at within ⊢
  cases digit : rest.head?.any Char.isDigit with
  | false => rw [agree.any_head? inside_isDigit digit]
  | true =>
      by_cases point : c = '.'
      · subst point
        have long := two_le_length_of_point digit
        have short := within (by simp [digit])
        rw [agree.head?_eq (by omega), digit]
      · simp [point]

/-- What stands at the front of a text also stands at the front of a text that
agrees with it as far. -/
theorem lexeme_agree {regexpAllowed : Bool} {c : Char} {rest rest' : List Char} {count : Nat}
    (agree : Agree count rest rest')
    (whole : ∀ fault, (lexeme regexpAllowed (c :: rest)).kind ≠ .malformed fault)
    (within : (lexeme regexpAllowed (c :: rest)).length ≤ count + 1) :
    lexeme regexpAllowed (c :: rest') = lexeme regexpAllowed (c :: rest) := by
  by_cases quote : c = '\x22' || c = '\x27'
  · simp only [lexeme, quote, ↓reduceIte] at whole within ⊢
    exact stringLexeme_agree agree whole within
  have numbers : startsNumber c rest' = startsNumber c rest := by
    apply startsNumber_agree agree
    intro starts
    unfold startsNumber at starts
    simpa only [lexeme, quote, starts, Bool.false_eq_true, ↓reduceIte] using within
  unfold startsNumber at numbers
  by_cases number : c.isDigit || (c = '.' && rest.head?.any Char.isDigit)
  · simp only [lexeme, numbers, quote, number, Bool.false_eq_true, ↓reduceIte] at whole within ⊢
    exact numberLexeme_agree agree whole within
  by_cases mark : marks.contains c
  · simp only [lexeme, numbers, quote, number, mark, Bool.false_eq_true, ↓reduceIte]
  by_cases slash : c = '/' && regexpAllowed
  · simp only [lexeme, numbers, quote, number, mark, slash, Bool.false_eq_true, ↓reduceIte]
      at whole within ⊢
    exact regexpLexeme_agree agree whole within
  by_cases name : isNameStart c
  · simp only [lexeme, numbers, quote, number, mark, slash, name, Bool.false_eq_true, ↓reduceIte]
      at within ⊢
    rw [(Agree.cons c agree).takeWhile (by decide) within]
  · simp only [lexeme, numbers, quote, number, mark, slash, name, Bool.false_eq_true, ↓reduceIte]
      at whole within ⊢
    cases found : operatorAt? (c :: rest) with
    | none =>
        simp only [found] at whole
        exact absurd rfl (whole _)
    | some operator =>
        simp only [found] at within
        rw [operatorAt?_agree (.cons c agree) found within]

end Lexer

/-! ## Places where a regular expression may stand -/

def TokenKind.isDivision : TokenKind → Bool
  | .operator sign => sign.text.toList.head? = some '/'
  | _ => false

theorem Lexer.lexeme_slash (rest : List Char) :
    ∃ operator, lexeme false ('/' :: rest) = ⟨.operator operator, operator.text.length⟩ ∧
      operator.text.toList.head? = some '/' := by
  cases found : operatorAt? ('/' :: rest) with
  | none =>
      have absent := List.find?_eq_none.mp found .divide (by decide)
      exact absurd rfl absent
  | some operator =>
      have plain : lexeme false ('/' :: rest) = ⟨.operator operator, operator.text.length⟩ := by
        have nameStart : isNameStart '/' = false := by decide
        have mark : marks.contains '/' = false := by decide
        have digit : '/'.isDigit = false := by decide
        simp only [lexeme, nameStart, mark, digit, found]
        rfl
      refine ⟨operator, plain, ?_⟩
      have begins := List.find?_some found
      have inhabited := Operator.text_length_pos operator
      rw [← String.length_toList] at inhabited
      obtain ⟨c, spelled, spelling⟩ := List.exists_cons_of_length_pos inhabited
      rw [spelling, List.isPrefixOf_cons_cons] at begins
      simp only [Bool.and_eq_true, beq_iff_eq] at begins
      rw [spelling, begins.1]
      rfl

/-- What does not divide is read in the same way where a regular expression may
stand. -/
theorem Lexer.lexeme_true {regexpAllowed : Bool} {text : List Char}
    (other : (lexeme regexpAllowed text).kind.isDivision = false) :
    lexeme true text = lexeme regexpAllowed text := by
  cases regexpAllowed with
  | true => rfl
  | false =>
      cases text with
      | nil => rfl
      | cons c rest =>
          by_cases slash : c = '/'
          · subst slash
            obtain ⟨operator, found, divides⟩ := lexeme_slash rest
            simp [found, TokenKind.isDivision, divides] at other
          · simp [lexeme, slash]

/-! ## Length -/

theorem stringBody_length_le (quote : Char) (mode : StringState) (text : List Char) :
    (stringBody quote mode text).length ≤ text.length := by
  fun_induction stringBody quote mode text <;>
    simp_all [Reading.fail, Reading.done, Reading.skip, Reading.emit]

theorem regexpBody_length_le (inClass escaped : Bool) (text : List Char) :
    (regexpBody inClass escaped text).length ≤ text.length := by
  fun_induction regexpBody inClass escaped text <;>
    simp_all [Reading.fail, Reading.done, Reading.emit]

theorem DecimalText.fraction?_length_le (text : List Char) :
    partLength List.length (fraction? text) ≤ text.length := by
  rw [fraction?_eq]
  cases text with
  | nil => exact Nat.le_refl 0
  | cons c rest =>
      have digits := (List.takeWhile_prefix Char.isDigit (l := rest)).length_le
      split <;> simp only [partLength, List.drop_one, List.tail_cons, List.length_cons] <;> omega

theorem ExponentText.length_ofText_le (text : List Char) :
    (ofText text).length ≤ text.length := by
  have digits := (List.takeWhile_prefix Char.isDigit (l := text)).length_le
  rw [ofText_eq]
  cases text with
  | nil => exact Nat.le_refl 0
  | cons c rest =>
      have more := (List.takeWhile_prefix Char.isDigit (l := rest)).length_le
      split
      · simp only [length, List.drop_one, List.tail_cons, List.length_cons, List.take_succ_cons,
          List.take_zero, List.length_nil]
        omega
      · simpa [length] using digits

theorem DecimalText.exponent?_length_le (text : List Char) :
    partLength ExponentText.length (exponent? text) ≤ text.length := by
  rw [exponent?_eq]
  cases text with
  | nil => exact Nat.le_refl 0
  | cons c rest =>
      have digits := ExponentText.length_ofText_le rest
      split <;> simp only [partLength, List.drop_one, List.tail_cons, List.length_cons] <;> omega

theorem DecimalText.length_ofText_le (text : List Char) : (ofText text).length ≤ text.length := by
  have whole := (List.takeWhile_prefix Char.isDigit (l := text)).length_le
  have fraction := fraction?_length_le (text.drop (text.takeWhile Char.isDigit).length)
  have exponent := exponent?_length_le
    ((text.drop (text.takeWhile Char.isDigit).length).drop
      (partLength List.length (fraction? (text.drop (text.takeWhile Char.isDigit).length))))
  simp only [length, ofText]
  simp only [List.length_drop] at fraction exponent
  omega

theorem numberLexeme_length_le {c : Char} {rest : List Char}
    (whole : ∀ fault, (numberLexeme (c :: rest)).kind ≠ .malformed fault) :
    (numberLexeme (c :: rest)).length ≤ (c :: rest).length := by
  rw [numberLexeme_eq] at whole ⊢
  split
  · next marked =>
      have digits := (List.takeWhile_prefix (fun c => (hexDigit? c).isSome)
        (l := rest.drop 1)).length_le
      cases rest with
      | nil => simp at marked
      | cons d rest =>
          rw [List.drop_one, List.tail_cons] at digits
          simp only [hexadecimalLexeme]
          split <;> simp_all
  · next plain =>
      simp only [if_neg plain, decimalLexeme] at whole ⊢
      have digits := DecimalText.length_ofText_le (c :: rest)
      split
      · next named =>
          simp only [if_pos named] at whole
          exact absurd rfl (whole _)
      · exact digits

theorem operatorAt?_length_le {text : List Char} {operator : Operator}
    (found : Lexer.operatorAt? text = some operator) : operator.text.length ≤ text.length := by
  have begins := List.find?_some found
  rw [List.isPrefixOf_iff_prefix] at begins
  rw [← String.length_toList]
  exact begins.length_le

theorem stringLexeme_length_le (quote : Char) (rest : List Char) :
    (stringLexeme quote rest).length ≤ rest.length + 1 := by
  have body := stringBody_length_le quote .plain rest
  simp only [stringLexeme]
  split <;> simp only <;> omega

theorem regexpLexeme_length_le (rest : List Char) :
    (regexpLexeme rest).length ≤ rest.length + 1 := by
  have body := regexpBody_length_le false false rest
  have flags := (List.takeWhile_prefix isNamePart
    (l := rest.drop (regexpBody false false rest).length)).length_le
  rw [List.length_drop] at flags
  simp only [regexpLexeme]
  split <;> simp only <;> omega

theorem Lexer.lexeme_length_le {regexpAllowed : Bool} {text : List Char}
    (whole : ∀ fault, (lexeme regexpAllowed text).kind ≠ .malformed fault) :
    (lexeme regexpAllowed text).length ≤ text.length := by
  cases text with
  | nil => exact Nat.le_refl 0
  | cons c rest =>
      revert whole
      simp only [lexeme]
      split
      · exact fun _ => stringLexeme_length_le c rest
      · split
        · exact numberLexeme_length_le
        · split
          · intro _
            simp
          · split
            · exact fun _ => regexpLexeme_length_le rest
            · split
              · exact fun _ => (List.takeWhile_prefix isNamePart).length_le
              · intro _
                split
                · next found => exact operatorAt?_length_le found
                · simp

end Qml
