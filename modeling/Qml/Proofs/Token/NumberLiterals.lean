import Qml.Proofs.Token.NumberSpellings
import Qml.Proofs.Token.Places

/-! # Number literals

A number token is as long as a literal can be at its place. Where a name begins right
behind a decimal literal, the two make one malformed token, and everywhere else the literal
is a number token of its own; so no number in decimal digits is glued to what follows. A
number in hexadecimal digits also takes all the digits that stand there, but what comes
behind them is not looked at. -/

namespace Qml

open Qml.Text

/-! ## Reading decimal literals -/

section

variable {literal after : List Char}

namespace DecimalText

/-- The reader takes the digits of a literal before its exponent, and goes on with the
exponent right behind them. -/
theorem ofText_append (isMantissa : IsMantissa literal)
    (noDigit : after.head?.any Char.isDigit = false)
    (noPoint : '.' ∉ literal → after.head?.any (· = '.') = false) :
    ∃ whole fraction, whole.length + partLength List.length fraction = literal.length ∧
      ofText (literal ++ after) = ⟨whole, fraction, exponent? after⟩ := by
  cases isMantissa with
  | whole inhabited all =>
      have noPoint := noPoint fun among => absurd (all _ among) (by decide)
      refine ⟨literal, none, rfl, ?_⟩
      simp only [ofText]
      rw [all.takeWhile_append noDigit, List.drop_left, fraction?_eq, noPoint]
      rfl
  | @pointed whole fraction inhabited left right =>
      refine ⟨whole, some fraction, ?_, ?_⟩
      · rw [partLength, List.length_append, List.length_cons]
      · have ends : ('.' :: (fraction ++ after)).head?.any Char.isDigit = false := rfl
        simp only [ofText]
        rw [List.append_assoc, List.cons_append, left.takeWhile_append ends,
          List.drop_left, fraction?, right.takeWhile_append noDigit]
        simp [partLength]

end DecimalText

namespace ExponentText

theorem ofText_append {sign digits : List Char} (isSign : sign ∈ exponentSigns)
    (inhabited : digits ≠ []) (all : ConsistsOf Char.isDigit digits)
    (noDigit : after.head?.any Char.isDigit = false) :
    ofText (sign ++ digits ++ after) = ⟨sign, digits⟩ := by
  have digitsEq := all.takeWhile_append noDigit
  rcases mem_exponentSigns.mp isSign with rfl | rfl | rfl
  case inl =>
    obtain ⟨first, more, rfl⟩ := List.exists_cons_of_ne_nil inhabited
    have noSign : ExponentText.isSign first = false := by
      have digit : first.isDigit = true := all first (List.mem_cons_self ..)
      refine Bool.eq_false_iff.mpr fun isSign => ?_
      simp only [ExponentText.isSign, Bool.or_eq_true, decide_eq_true_eq] at isSign
      rcases isSign with rfl | rfl <;> cases digit
    rw [List.nil_append, ofText_eq, digitsEq, List.cons_append, List.head?_cons, Option.any_some,
      noSign]
    rfl
  all_goals exact congrArg (ExponentText.mk _) digitsEq

theorem ofText_spelled (text : List Char) :
    (ofText text).sign ∈ exponentSigns ∧ ConsistsOf Char.isDigit (ofText text).digits ∧
      (ofText text).sign ++ (ofText text).digits <+: text := by
  have digits := consistsOf_takeWhile Char.isDigit
  cases text with
  | nil => exact ⟨by decide, List.forall_mem_nil _, List.prefix_rfl⟩
  | cons c rest =>
      simp only [ofText]
      split
      case isTrue isSign =>
        simp only [Bool.or_eq_true, decide_eq_true_eq] at isSign
        refine ⟨?_, digits rest, List.cons_prefix_cons.mpr ⟨rfl, List.takeWhile_prefix _⟩⟩
        rcases isSign with rfl | rfl <;> simp [exponentSigns]
      case isFalse => exact ⟨List.mem_cons_self .., digits _, List.takeWhile_prefix _⟩

end ExponentText

namespace Text

theorem IsLongest.exponent_digits {mark : Char} {rest : List Char}
    (longest : IsLongest literal (mark :: rest)) (isMantissa : IsMantissa literal)
    (isMark : DecimalText.isExponentMark mark = true) :
    (ExponentText.ofText rest).digits = [] := by
  obtain ⟨isSign, all, front⟩ := ExponentText.ofText_spelled rest
  by_contra inhabited
  have longer : IsNumber (literal ++ mark :: _) :=
    .inl (.scaled isMantissa isMark isSign inhabited all)
  cases longest.ends _ (List.cons_prefix_cons.mpr ⟨rfl, front⟩) longer

/-- How the reader of decimal literals takes a longest literal: all of it, or, before an
exponent mark that no digits follow, that mark as well. -/
theorem IsLongest.ofText (longest : IsLongest literal after) (isDecimal : IsDecimal literal)
    {decimal : DecimalText} (decimalEq : DecimalText.ofText (literal ++ after) = decimal) :
    decimal.length = literal.length ∧ decimal.value?.isSome = true ∨
      literal.length < decimal.length ∧ decimal.value? = none ∧
        after.head?.any DecimalText.isExponentMark = true := by
  subst decimalEq
  cases isDecimal with
  | plain isMantissa =>
      obtain ⟨whole, fraction, lengthEq, textEq⟩ :=
        DecimalText.ofText_append isMantissa longest.no_digit (longest.no_point isMantissa)
      rw [textEq, DecimalText.exponent?_eq]
      cases marked : after.head?.any DecimalText.isExponentMark with
      | false => exact .inl ⟨lengthEq, rfl⟩
      | true =>
          -- Digits behind the mark would make a longer literal.
          obtain ⟨mark, rest, rfl⟩ : ∃ mark rest, after = mark :: rest := by
            cases after with
            | nil => cases marked
            | cons mark rest => exact ⟨mark, rest, rfl⟩
          have digits := longest.exponent_digits isMantissa marked
          refine .inr ⟨?_, ?_, rfl⟩
          · rw [← lengthEq]
            exact Nat.lt_add_of_pos_right (Nat.succ_pos _)
          · simp [DecimalText.value?, digits]
  | @scaled mantissa sign digits mark isMantissa isMark isSign inhabited all =>
      obtain ⟨noDigit, noPoint⟩ : mark.isDigit = false ∧ decide (mark = '.') = false := by
        rcases DecimalText.isExponentMark_iff.mp isMark with rfl | rfl <;> decide
      obtain ⟨whole, fraction, lengthEq, textEq⟩ :=
        @DecimalText.ofText_append _ (mark :: (sign ++ digits ++ after)) isMantissa noDigit
          fun _ => noPoint
      have exponentEq := ExponentText.ofText_append isSign inhabited all longest.no_digit
      rw [DecimalText.exponent?_eq, List.head?_cons, Option.any_some, isMark, if_pos rfl,
        List.drop_succ_cons, List.drop_zero, exponentEq] at textEq
      rw [List.append_assoc, List.cons_append, textEq]
      refine .inl ⟨?_, ?_⟩
      · simp only [DecimalText.length, DecimalText.partLength, ExponentText.length,
          List.length_append, List.length_cons] at lengthEq ⊢
        omega
      · simp [DecimalText.value?, inhabited]

end Text

/-! ## Lexemes -/

theorem isNameStart_of_isExponentMark {c : Char} (isMark : DecimalText.isExponentMark c = true) :
    isNameStart c = true := by
  rcases DecimalText.isExponentMark_iff.mp isMark with rfl | rfl <;> decide

theorem isNameStart_of_isHexadecimalMark {c : Char} (isMark : isHexadecimalMark c = true) :
    isNameStart c = true := by
  rcases isHexadecimalMark_iff.mp isMark with rfl | rfl <;> decide

theorem any_head?_of_imp {property other : Char → Bool} {text : List Char}
    (implies : ∀ c, property c = true → other c = true)
    (begins : text.head?.any property = true) : text.head?.any other = true := by
  cases text with
  | nil => cases begins
  | cons c rest => exact implies c begins

def Lexeme.IsMalformedNumber (lexeme : Lexeme) (text : List Char) : Prop :=
  lexeme.kind = .malformed (.malformedNumber (String.ofList (text.take lexeme.length))) ∨
    lexeme.kind = .malformed (.missingExponent (String.ofList (text.take lexeme.length)))

theorem decimalLexeme_of_name (longest : IsLongest literal after) (isDecimal : IsDecimal literal)
    (named : after.head?.any isNameStart = true) :
    (decimalLexeme (literal ++ after)).IsMalformedNumber (literal ++ after) ∧
      literal.length < (decimalLexeme (literal ++ after)).length := by
  simp only [decimalLexeme]
  split
  case isTrue =>
    refine ⟨.inl rfl, Nat.lt_succ_of_le ?_⟩
    rcases longest.ofText isDecimal rfl with ⟨lengthEq, -⟩ | ⟨longer, -⟩
    · exact Nat.le_of_eq lengthEq.symm
    · exact Nat.le_of_lt longer
  case isFalse plain =>
    rcases longest.ofText isDecimal rfl with ⟨lengthEq, -⟩ | ⟨longer, noValue, -⟩
    · rw [lengthEq, List.drop_left] at plain
      exact absurd named plain
    · refine ⟨.inr ?_, longer⟩
      simp only [DecimalText.kind, noValue]

theorem decimalLexeme_of_no_name (longest : IsLongest literal after)
    (isDecimal : IsDecimal literal) (noName : after.head?.any isNameStart = false) :
    ∃ value, decimalLexeme (literal ++ after) = ⟨.number value, literal.length⟩ := by
  rcases longest.ofText isDecimal rfl with ⟨lengthEq, hasValue⟩ | ⟨-, -, marked⟩
  · obtain ⟨value, valueEq⟩ := Option.isSome_iff_exists.mp hasValue
    refine ⟨value.toBinary64, ?_⟩
    simp only [decimalLexeme, lengthEq, List.drop_left, noName, DecimalText.kind, valueEq]
    rfl
  · rw [any_head?_of_imp (fun _ => isNameStart_of_isExponentMark) marked] at noName
    cases noName

theorem numberLexeme_append (isDecimal : IsDecimal literal) (after : List Char) :
    numberLexeme (literal ++ after) = decimalLexeme (literal ++ after) ∨
      literal = ['0'] ∧ after.head?.any isHexadecimalMark = true := by
  obtain ⟨c, more, rfl⟩ := List.exists_cons_of_ne_nil (IsNumber.ne_nil (.inl isDecimal))
  rw [List.cons_append, numberLexeme_eq]
  split
  case isFalse => exact .inl rfl
  case isTrue marked =>
    rw [Bool.and_eq_true, decide_eq_true_eq] at marked
    obtain ⟨rfl, marked⟩ := marked
    cases more with
    | nil => exact .inr ⟨rfl, marked⟩
    | cons mark more =>
        -- The mark would be a character of the decimal literal.
        have unmarked := isDecimal.not_isHexadecimalMark mark (by simp)
        rw [List.cons_append, List.head?_cons, Option.any_some, unmarked] at marked
        cases marked

theorem numberLexeme_of_mark {mark : Char} (isMark : isHexadecimalMark mark = true)
    (rest : List Char) :
    numberLexeme ('0' :: mark :: rest) = hexadecimalLexeme ['0', mark] rest := by
  rw [numberLexeme_eq, List.head?_cons, Option.any_some, isMark]
  rfl

theorem hexadecimalLexeme_of_isLongest {mark : Char} {rest : List Char}
    (longest : IsLongest ['0'] (mark :: rest)) (isMark : isHexadecimalMark mark = true) :
    hexadecimalLexeme ['0', mark] rest =
      ⟨.malformed (.malformedNumber (String.ofList ['0', mark])), 2⟩ := by
  have digits : rest.takeWhile isHexadecimalDigit = [] := by
    by_contra inhabited
    have longer : IsNumber (['0'] ++ mark :: rest.takeWhile isHexadecimalDigit) :=
      .inr (.spelled isMark inhabited fun _ => List.mem_takeWhile_imp)
    have front := List.takeWhile_prefix isHexadecimalDigit (l := rest)
    cases longest.ends _ (List.cons_prefix_cons.mpr ⟨rfl, front⟩) longer
  change rest.takeWhile (fun c => (hexDigit? c).isSome) = [] at digits
  simp only [hexadecimalLexeme, digits]
  rfl

theorem numberLexeme_of_name (longest : IsLongest literal after) (isDecimal : IsDecimal literal)
    (named : after.head?.any isNameStart = true) :
    (numberLexeme (literal ++ after)).IsMalformedNumber (literal ++ after) ∧
      literal.length < (numberLexeme (literal ++ after)).length := by
  rcases numberLexeme_append isDecimal after with decimalEq | ⟨rfl, marked⟩
  · rw [decimalEq]
    exact decimalLexeme_of_name longest isDecimal named
  · cases after with
    | nil => cases marked
    | cons mark rest =>
        -- The literal is the zero alone, and the mark behind it is the name that spoils it.
        rw [List.singleton_append, numberLexeme_of_mark marked,
          hexadecimalLexeme_of_isLongest longest marked]
        exact ⟨.inl rfl, Nat.one_lt_two⟩

theorem numberLexeme_of_no_name (longest : IsLongest literal after)
    (isDecimal : IsDecimal literal) (noName : after.head?.any isNameStart = false) :
    ∃ value, numberLexeme (literal ++ after) = ⟨.number value, literal.length⟩ := by
  rcases numberLexeme_append isDecimal after with decimalEq | ⟨-, marked⟩
  · rw [decimalEq]
    exact decimalLexeme_of_no_name longest isDecimal noName
  · rw [any_head?_of_imp (fun _ => isNameStart_of_isHexadecimalMark) marked] at noName
    cases noName

theorem length_numberLexeme_of_isHexadecimal (longest : IsLongest literal after)
    (isHexadecimal : IsHexadecimal literal) :
    (numberLexeme (literal ++ after)).length = literal.length := by
  have ends : after.head?.any isHexadecimalDigit = false :=
    longest.any_head? fun _ digit => .inr (isHexadecimal.snoc digit)
  obtain ⟨isMark, inhabited, all⟩ := isHexadecimal
  have digits := all.takeWhile_append ends
  unfold isHexadecimalDigit at digits
  rw [List.cons_append, List.cons_append, numberLexeme_of_mark isMark]
  simp only [hexadecimalLexeme, digits]
  split <;> rfl

end

theorem stringLexeme_ne_number (quote : Char) (rest : List Char) (value : Binary64) :
    (stringLexeme quote rest).kind ≠ .number value := by
  simp only [stringLexeme]
  split <;> simp

theorem regexpLexeme_ne_number (rest : List Char) (value : Binary64) :
    (regexpLexeme rest).kind ≠ .number value := by
  simp only [regexpLexeme]
  split <;> simp

theorem TokenKind.ofWord_ne_number (word : String) (value : Binary64) :
    ofWord word ≠ .number value := by
  unfold ofWord
  repeat' split
  all_goals simp

namespace Lexer

variable {regexpAllowed : Bool} {literal after : List Char}

theorem lexeme_of_startsNumber {c : Char} {rest : List Char} (starts : startsNumber c rest = true) :
    lexeme regexpAllowed (c :: rest) = numberLexeme (c :: rest) := by
  have noQuote : (c = '\x22' || c = '\x27') = false := by
    refine Bool.eq_false_iff.mpr fun quote => ?_
    simp only [Bool.or_eq_true, decide_eq_true_eq] at quote
    rcases quote with rfl | rfl <;> cases starts
  unfold startsNumber at starts
  simp only [lexeme, noQuote, starts, Bool.false_eq_true, if_false, if_true]

theorem lexeme_ne_number {c : Char} {rest : List Char} (other : startsNumber c rest = false)
    (value : Binary64) : (lexeme regexpAllowed (c :: rest)).kind ≠ .number value := by
  unfold startsNumber at other
  simp only [lexeme, other, Bool.false_eq_true, if_false]
  split
  · exact stringLexeme_ne_number _ _ _
  · split
    · simp
    · split
      · exact regexpLexeme_ne_number _ _
      · split
        · exact TokenKind.ofWord_ne_number _ _
        · split <;> simp

theorem lexeme_of_isLongest (longest : IsLongest literal after) :
    lexeme regexpAllowed (literal ++ after) = numberLexeme (literal ++ after) := by
  obtain ⟨c, rest, textEq, starts⟩ := longest.isNumber.starts after
  rw [textEq]
  exact lexeme_of_startsNumber starts

/-- A number is the longest literal at its place, and no name comes right behind it if its
digits are decimal. -/
theorem exists_isLongest_of_number {text : List Char} {value : Binary64}
    (number : (lexeme regexpAllowed text).kind = .number value) :
    ∃ literal after, text = literal ++ after ∧ IsLongest literal after ∧
      (lexeme regexpAllowed text).length = literal.length ∧
      (IsDecimal literal → after.head?.any isNameStart = false) := by
  obtain ⟨literal, after, rfl, longest⟩ :
      ∃ literal after, text = literal ++ after ∧ IsLongest literal after := by
    cases text with
    | nil => cases number
    | cons c rest =>
        cases starts : startsNumber c rest with
        | false => exact absurd number (lexeme_ne_number starts value)
        | true => exact exists_isLongest_of_startsNumber starts
  rw [lexeme_of_isLongest longest] at number ⊢
  refine ⟨literal, after, rfl, longest, ?_⟩
  rcases longest.isNumber with isDecimal | isHexadecimal
  · cases named : after.head?.any isNameStart with
    | false =>
        obtain ⟨value, numberEq⟩ := numberLexeme_of_no_name longest isDecimal named
        exact ⟨congrArg Lexeme.length numberEq, fun _ => rfl⟩
    | true =>
        rcases (numberLexeme_of_name longest isDecimal named).1 with malformed | malformed
        all_goals
          rw [malformed] at number
          cases number
  · refine ⟨length_numberLexeme_of_isHexadecimal longest isHexadecimal, fun isDecimal => ?_⟩
    exact absurd isHexadecimal isDecimal.not_isHexadecimal

end Lexer

/-! ## Tokens -/

def Text.onwards (text : List Char) (offset : Nat) : List Char :=
  slice text offset (byteLength text)

theorem Text.onwards_append (before after : List Char) :
    onwards (before ++ after) (byteLength before) = after := by
  have behind := slice_append before after []
  rw [List.append_nil] at behind
  rw [onwards, byteLength_append]
  exact behind

def Token.IsMalformedNumber (token : Token) : Prop :=
  token.kind = .malformed (.malformedNumber token.text) ∨
    token.kind = .malformed (.missingExponent token.text)

/-- What is owed for a token of a text in view of the number literals there. -/
structure Token.StandsApart (text : List Char) (token : Token) : Prop where
  text_eq : onwards text token.span.start = token.text.toList ++ onwards text token.span.stop
  isLongest : token.isNumber = true → IsLongest token.text.toList (onwards text token.span.stop)
  no_digit : token.isNumber = true →
    (onwards text token.span.stop).head?.any Char.isDigit = false
  no_name : token.isNumber = true → IsDecimal token.text.toList →
    (onwards text token.span.stop).head?.any isNameStart = false
  spoiled : ∀ literal c rest, onwards text token.span.start = literal ++ c :: rest →
    IsLongest literal (c :: rest) → IsDecimal literal → isNameStart c = true →
      token.IsMalformedNumber ∧ literal ++ [c] <+: token.text.toList
  read : ∀ literal after, onwards text token.span.start = literal ++ after →
    IsLongest literal after → IsDecimal literal → after.head?.any isNameStart = false →
      token.isNumber = true ∧ token.text.toList = literal

namespace Lexer

variable {text literal after : List Char} {lexer : Lexer}

theorem closed_of_ne_nil (left : lexer.afterGap.rest ≠ []) :
    (Gap.ofText lexer.rest).closed = true := by
  obtain ⟨fills, -⟩ := Gap.ofText_fills lexer.rest
  by_contra unclosed
  rw [Bool.eq_false_iff.mpr unclosed] at fills
  exact left fills.after_eq_nil

theorem isLongest_of_isNumber (number : lexer.next.1.isNumber = true) :
    IsLongest lexer.next.1.text.toList lexer.next.2.rest ∧
      (IsDecimal lexer.next.1.text.toList → lexer.next.2.rest.head?.any isNameStart = false) := by
  obtain ⟨value, kind⟩ := Token.exists_value_of_isNumber number
  have solid : lexer.next.1.isSolid = true := by
    simp [Token.isSolid, Token.isEnd, Token.isMalformed, kind]
  obtain ⟨tokenEq, restEq, -⟩ := next_of_closed (closed_of_solid solid)
  rw [tokenEq] at kind
  obtain ⟨literal, after, leftEq, longest, lengthEq, noName⟩ := exists_isLongest_of_number kind
  have textEq : lexer.next.1.text.toList = literal := by
    rw [tokenEq, found, lengthEq, leftEq, List.take_left, String.toList_ofList]
  have afterEq : lexer.next.2.rest = after := by
    rw [restEq, skip, found, lengthEq, leftEq, List.drop_left]
  rw [textEq, afterEq]
  exact ⟨longest, noName⟩

theorem next_of_isLongest (leftEq : lexer.afterGap.rest = literal ++ after)
    (longest : IsLongest literal after) :
    lexer.next.1.kind = (numberLexeme (literal ++ after)).kind ∧
      lexer.next.1.text =
        String.ofList ((literal ++ after).take (numberLexeme (literal ++ after)).length) := by
  have left : lexer.afterGap.rest ≠ [] := by
    rw [leftEq]
    exact List.append_ne_nil_of_left_ne_nil longest.isNumber.ne_nil _
  have found : lexer.found = numberLexeme (literal ++ after) := by
    unfold Lexer.found
    rw [leftEq]
    exact lexeme_of_isLongest longest
  rw [(next_of_closed (closed_of_ne_nil left)).1, found, leftEq]
  exact ⟨rfl, rfl⟩

theorem next_of_name {c : Char} {rest : List Char}
    (leftEq : lexer.afterGap.rest = literal ++ c :: rest) (longest : IsLongest literal (c :: rest))
    (isDecimal : IsDecimal literal) (named : isNameStart c = true) :
    lexer.next.1.IsMalformedNumber ∧ literal ++ [c] <+: lexer.next.1.text.toList := by
  obtain ⟨kindEq, textEq⟩ := next_of_isLongest leftEq longest
  obtain ⟨malformed, longer⟩ := numberLexeme_of_name longest isDecimal named
  constructor
  · unfold Token.IsMalformedNumber
    rw [kindEq, textEq]
    exact malformed
  · rw [textEq, String.toList_ofList, List.prefix_take_iff, List.length_append]
    exact ⟨⟨rest, List.append_assoc ..⟩, longer⟩

theorem next_of_no_name (leftEq : lexer.afterGap.rest = literal ++ after)
    (longest : IsLongest literal after) (isDecimal : IsDecimal literal)
    (noName : after.head?.any isNameStart = false) :
    lexer.next.1.isNumber = true ∧ lexer.next.1.text.toList = literal := by
  obtain ⟨kindEq, textEq⟩ := next_of_isLongest leftEq longest
  obtain ⟨value, numberEq⟩ := numberLexeme_of_no_name longest isDecimal noName
  rw [numberEq] at kindEq textEq
  constructor
  · rw [Token.isNumber, kindEq]
  · rw [textEq, List.take_left, String.toList_ofList]

/-! ### Places in a text -/

/-- A lexer stands in a text: what is left to it is what comes behind its position. -/
def StandsIn (text : List Char) (lexer : Lexer) : Prop :=
  ∃ passed, text = passed ++ lexer.rest ∧ lexer.position = Position.start.after passed

theorem standsIn_ofText (text : List Char) : (ofText text).StandsIn text := ⟨[], rfl, rfl⟩

/-- The span of the next token tells where the token begins and ends, and the lexer goes on
standing in the text. -/
theorem StandsIn.next (stands : lexer.StandsIn text) :
    onwards text lexer.next.1.span.start = lexer.afterGap.rest ∧
      onwards text lexer.next.1.span.stop = lexer.next.2.rest ∧ lexer.next.2.StandsIn text := by
  obtain ⟨passed, textEq, positionEq⟩ := stands
  obtain ⟨gap, body, tile, nextEq⟩ := lexer.next_tile
  have behindGap : text = passed ++ gap ++ (lexer.next.1.text.toList ++ lexer.next.2.rest) := by
    rw [textEq, tile.text_eq, tile.spelling, String.toList_ofList, List.append_assoc]
  have behindToken : text = passed ++ (gap ++ body) ++ lexer.next.2.rest := by
    rw [textEq, tile.text_eq]
    simp
  have startEq : lexer.next.1.span.start = byteLength (passed ++ gap) := by
    rw [Span.start, tile.span_eq, positionEq, ← Position.after_append, Position.offset_start_after]
  have stopEq : lexer.next.1.span.stop = byteLength (passed ++ (gap ++ body)) := by
    rw [tile.span_eq, positionEq, ← Position.after_append, Position.offset_start_after,
      ← byteLength_append, List.append_assoc]
  refine ⟨?_, ?_, passed ++ (gap ++ body), behindToken, ?_⟩
  · rw [startEq, behindGap, onwards_append, afterGap_rest]
  · rw [stopEq, behindToken, onwards_append]
  · rw [nextEq, positionEq, ← Position.after_append]

theorem StandsIn.next_standsApart (stands : lexer.StandsIn text) :
    lexer.next.1.StandsApart text := by
  obtain ⟨startEq, stopEq, -⟩ := stands.next
  constructor
  case text_eq => rw [startEq, stopEq, afterGap_rest]
  case isLongest =>
    rw [stopEq]
    exact fun number => (isLongest_of_isNumber number).1
  case no_digit =>
    rw [stopEq]
    exact fun number => (isLongest_of_isNumber number).1.no_digit
  case no_name =>
    rw [stopEq]
    exact fun number => (isLongest_of_isNumber number).2
  case spoiled =>
    rw [startEq]
    exact fun _ _ _ => next_of_name
  case read =>
    rw [startEq]
    exact fun _ _ => next_of_no_name

theorem StandsIn.exists_of_mem_take {token : Token} {count : Nat} (stands : lexer.StandsIn text)
    (returned : token ∈ lexer.take count) :
    ∃ before : Lexer, before.StandsIn text ∧ token = before.next.1 := by
  induction count generalizing lexer with
  | zero => cases returned
  | succ count induction =>
      rw [take_succ, List.mem_cons] at returned
      rcases returned with rfl | later
      · exact ⟨lexer, stands, rfl⟩
      · exact induction stands.next.2.2 later

end Lexer

/-- However many tokens are asked for, a number among them is the longest literal at its
place; no digit comes right behind it and, where its digits are decimal, no name. A decimal
literal with a name right behind it is reported as malformed, together with the character
that spoils it, and any other is a number. -/
theorem decimal_literals_stand_apart (text : List Char) (count : Nat) {token : Token}
    (returned : token ∈ (Lexer.ofText text).take count) : token.StandsApart text := by
  obtain ⟨before, stands, rfl⟩ := (Lexer.standsIn_ofText text).exists_of_mem_take returned
  exact stands.next_standsApart

def numberAndSpoiled : List Char := "1.5e3;2em".toList

theorem decimal_literals_stand_apart_exponent :
    ∃ number ∈ (Lexer.ofText numberAndSpoiled).take 3,
      ∃ spoiled ∈ (Lexer.ofText numberAndSpoiled).take 3,
        (number.isNumber = true ∧ number.text = "1.5e3" ∧ number.StandsApart numberAndSpoiled) ∧
          spoiled.isMalformed = true ∧ spoiled.text = "2em" ∧
            spoiled.StandsApart numberAndSpoiled := by
  have returned : ∀ lexer : Lexer,
      lexer.next.1 ∈ lexer.take 3 ∧ lexer.next.2.next.2.next.1 ∈ lexer.take 3 := by
    simp [Lexer.take_succ]
  obtain ⟨one, three⟩ := returned (Lexer.ofText numberAndSpoiled)
  refine ⟨_, one, _, three, ⟨?_, ?_, ?_⟩, ?_, ?_, ?_⟩
  · decide +kernel
  · decide +kernel
  · exact decimal_literals_stand_apart numberAndSpoiled 3 one
  · decide +kernel
  · decide +kernel
  · exact decimal_literals_stand_apart numberAndSpoiled 3 three

/-- A name may come right behind a hexadecimal literal. -/
theorem name_behind_hexadecimal :
    ¬ ∀ text count, ∀ token ∈ (Lexer.ofText text).take count, token.isNumber = true →
      (onwards text token.span.stop).head?.any (fun c => isNameStart c || c.isDigit) = false := by
  intro apart
  let text := "0x1g".toList
  have isNumber : (Lexer.ofText text).next.1.isNumber = true := by decide +kernel
  have named : (onwards text (Lexer.ofText text).next.1.span.stop).head? = some 'g' := by
    decide +kernel
  have returned : (Lexer.ofText text).next.1 ∈ (Lexer.ofText text).take 1 :=
    List.mem_cons_self ..
  have apart := apart text 1 _ returned isNumber
  rw [named] at apart
  exact absurd apart (by decide)

end Qml
