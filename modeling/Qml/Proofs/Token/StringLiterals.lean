import Qml.Proofs.Token.Relexing

/-! # String literals

Inside quotes most characters can be spelled in several ways, and a line can be broken
where it stands for nothing. However the characters of a text are spelled, the lexer
reads the literal as that text, and goes on right behind the closing quote. Literals
that are made to hold a given text are spelled in one of these ways. -/

namespace Qml

open Qml.Text

/-! ## Spellings -/

namespace Text

def escapeLetters : List (Char × Char) :=
  [('n', '\n'), ('r', '\r'), ('t', '\t'), ('b', '\x08'), ('f', '\x0c'), ('v', '\x0b'),
    ('0', '\x00')]

def reservedCharacters : List Char := ['\n', 'n', 'r', 't', 'b', 'f', 'v', '0', 'x', 'u']

def digitsOf (value : Nat) : List Char := [value.digitChar, value.digitChar.toUpper]

def quotes : List Char := [quotationMark, '\x27']

def between (quote : Char) (body : List Char) : List Char := quote :: (body ++ [quote])

/-- How one character can be spelled between two quotes. -/
inductive SpelledCharacter (quote c : Char) : List Char → Prop
  | raw (notQuote : c ≠ quote) (notBackslash : c ≠ '\\') (notBreak : c ≠ '\n') :
      SpelledCharacter quote c [c]
  | letter {letter : Char} (stands : (letter, c) ∈ escapeLetters) :
      SpelledCharacter quote c ['\\', letter]
  | twoDigits {high low : Char} (small : c.toNat < 0x100)
      (first : high ∈ digitsOf (c.toNat / 0x10)) (second : low ∈ digitsOf (c.toNat % 0x10)) :
      SpelledCharacter quote c ['\\', 'x', high, low]
  | fourDigits {one two three four : Char} (small : c.toNat ≤ 0xffff)
      (first : one ∈ digitsOf (c.toNat / 0x1000))
      (second : two ∈ digitsOf (c.toNat / 0x100 % 0x10))
      (third : three ∈ digitsOf (c.toNat / 0x10 % 0x10))
      (fourth : four ∈ digitsOf (c.toNat % 0x10)) :
      SpelledCharacter quote c ['\\', 'u', one, two, three, four]
  | itself (free : c ∉ reservedCharacters) : SpelledCharacter quote c ['\\', c]

/-- How a text can be spelled between two quotes: each character in its own way, and
between characters any number of line breaks behind a backslash. -/
inductive Spelled (quote : Char) : (value spelling : List Char) → Prop
  | nil : Spelled quote [] []
  | lineBreak {value spelling : List Char} (rest : Spelled quote value spelling) :
      Spelled quote value ('\\' :: '\n' :: spelling)
  | cons {c : Char} {value how spelling : List Char} (first : SpelledCharacter quote c how)
      (rest : Spelled quote value spelling) : Spelled quote (c :: value) (how ++ spelling)

theorem digitsOf_read : ∀ value < 16, ∀ digit ∈ digitsOf value, hexDigit? digit = some value := by
  have read : ∀ value < 16, hexDigit? value.digitChar = some value ∧
      hexDigit? value.digitChar.toUpper = some value := by decide
  intro value small digit among
  obtain ⟨lower, upper⟩ := read value small
  simp only [digitsOf, List.mem_cons, List.not_mem_nil, or_false] at among
  rcases among with rfl | rfl
  · exact lower
  · exact upper

theorem characterOf_toNat (c : Char) : characterOf c.toNat = c := by
  have valid : c.toNat.isValidChar := c.valid
  rw [characterOf, if_pos valid, Char.ofNat_toNat]

variable {quote c : Char} {value how spelling : List Char}

theorem SpelledCharacter.stringBody_append (notBackslash : quote ≠ '\\')
    (spelled : SpelledCharacter quote c how) (rest : List Char) :
    stringBody quote .plain (how ++ rest) =
      ⟨(stringBody quote .plain rest).result.map (c :: ·),
        how.length + (stringBody quote .plain rest).length⟩ := by
  have escape : ∀ text, stringBody quote .plain ('\\' :: text) =
      (stringBody quote .escaped text).skip := by
    intro text
    rw [stringBody, if_neg notBackslash.symm, if_pos rfl]
  cases spelled with
  | raw notQuote notBackslash notBreak =>
      rw [List.singleton_append, stringBody, if_neg notQuote, if_neg notBackslash, if_neg notBreak,
        Reading.emit, List.length_singleton, Nat.add_comm]
  | @letter letter stands =>
      have plain : letter ≠ 'x' ∧ letter ≠ 'u' ∧ letter ≠ '\n' ∧ unescape letter = c := by
        simp only [escapeLetters, List.mem_cons, Prod.mk.injEq, List.not_mem_nil, or_false]
          at stands
        rcases stands with ⟨rfl, rfl⟩ | ⟨rfl, rfl⟩ | ⟨rfl, rfl⟩ | ⟨rfl, rfl⟩ | ⟨rfl, rfl⟩ |
          ⟨rfl, rfl⟩ | ⟨rfl, rfl⟩ <;> decide
      obtain ⟨notTwo, notFour, notBreak, denotes⟩ := plain
      rw [List.cons_append, List.singleton_append, escape, stringBody, if_neg notTwo,
        if_neg notFour, if_neg notBreak, denotes]
      simp only [Reading.skip, Reading.emit, List.length_cons, List.length_nil]
      rw [Nat.add_assoc, Nat.add_comm]
  | twoDigits small first second =>
      have high := digitsOf_read _ (by omega) _ first
      have low := digitsOf_read _ (by omega) _ second
      have codePoint : (0 * 16 + c.toNat / 0x10) * 16 + c.toNat % 0x10 = c.toNat := by omega
      simp only [List.cons_append, List.nil_append, escape]
      simp only [stringBody, high, low, codePoint, characterOf_toNat, if_true, Reading.skip,
        Reading.emit, List.length_cons, List.length_nil]
      congr 1
      omega
  | fourDigits small first second third fourth =>
      have one := digitsOf_read _ (by omega) _ first
      have two := digitsOf_read _ (by omega) _ second
      have three := digitsOf_read _ (by omega) _ third
      have four := digitsOf_read _ (by omega) _ fourth
      have codePoint : (((0 * 16 + c.toNat / 0x1000) * 16 + c.toNat / 0x100 % 0x10) * 16 +
          c.toNat / 0x10 % 0x10) * 16 + c.toNat % 0x10 = c.toNat := by omega
      have notTwo : 'u' ≠ 'x' := by decide
      simp only [List.cons_append, List.nil_append, escape]
      simp only [stringBody, one, two, three, four, codePoint, characterOf_toNat, if_true,
        if_neg notTwo, Reading.skip, Reading.emit, List.length_cons, List.length_nil]
      congr 1
      omega
  | itself free =>
      have plain : c ≠ 'x' ∧ c ≠ 'u' ∧ c ≠ '\n' ∧ unescape c = c := by
        simp only [reservedCharacters, List.mem_cons, List.not_mem_nil, or_false, not_or] at free
        obtain ⟨notBreak, n, r, t, b, f, v, zero, notTwo, notFour⟩ := free
        exact ⟨notTwo, notFour, notBreak, by simp [unescape, *]⟩
      obtain ⟨notTwo, notFour, notBreak, denotes⟩ := plain
      rw [List.cons_append, List.singleton_append, escape, stringBody, if_neg notTwo,
        if_neg notFour, if_neg notBreak, denotes]
      simp only [Reading.skip, Reading.emit, List.length_cons, List.length_nil]
      rw [Nat.add_assoc, Nat.add_comm]

theorem Spelled.stringBody_append (notBackslash : quote ≠ '\\')
    (spelled : Spelled quote value spelling) (rest : List Char) :
    stringBody quote .plain (spelling ++ quote :: rest) = ⟨.ok value, spelling.length + 1⟩ := by
  induction spelled with
  | nil =>
      rw [List.nil_append, stringBody, if_pos rfl]
      rfl
  | @lineBreak value spelling _ induction =>
      have break_ : stringBody quote .escaped ('\n' :: (spelling ++ quote :: rest)) =
          (stringBody quote .plain (spelling ++ quote :: rest)).skip := by
        rw [stringBody, if_neg (by decide), if_neg (by decide), if_pos rfl]
      rw [List.cons_append, List.cons_append, stringBody, if_neg notBackslash.symm, if_pos rfl,
        break_, induction]
      rfl
  | cons first _ induction =>
      rw [List.append_assoc, first.stringBody_append notBackslash, induction, List.length_append,
        Nat.add_assoc]
      rfl

theorem literalCharacter_spelled (c : Char) :
    SpelledCharacter quotationMark c (literalCharacter c) := by
  unfold literalCharacter
  split
  · next mark => subst mark; exact .itself (by decide)
  split
  · next backslash => subst backslash; exact .itself (by decide)
  split
  · next feed => subst feed; exact .letter (by decide)
  split
  · next carriage => subst carriage; exact .letter (by decide)
  split
  · next tab => subst tab; exact .letter (by decide)
  · next notQuote notBackslash notBreak _ _ => exact .raw notQuote notBackslash notBreak

theorem flatMap_literalCharacter_spelled (value : List Char) :
    Spelled quotationMark value (value.flatMap literalCharacter) := by
  induction value with
  | nil => exact .nil
  | cons c value induction => exact .cons (literalCharacter_spelled c) induction

end Text

/-! ## Tokens -/

def Token.ofLiteral (value literal : List Char) (position : Position) : Token where
  kind := .string (String.ofList value)
  span := ⟨position, position.offset + byteLength literal⟩
  afterLineBreak := false
  text := String.ofList literal

namespace Lexer

variable {quote : Char} {value spelling rest : List Char}

theorem eq_or_eq_of_mem_quotes (isQuote : quote ∈ quotes) : quote = '\x22' ∨ quote = '\x27' := by
  simpa [quotes, quotationMark] using isQuote

theorem lexeme_between (isQuote : quote ∈ quotes) (spelled : Spelled quote value spelling)
    (regexpAllowed : Bool) :
    lexeme regexpAllowed (between quote spelling ++ rest) =
      ⟨.string (String.ofList value), (between quote spelling).length⟩ := by
  have opens := eq_or_eq_of_mem_quotes isQuote
  have notBackslash : quote ≠ '\\' := by rcases opens with rfl | rfl <;> decide
  have body := spelled.stringBody_append notBackslash rest
  rw [between, List.cons_append, List.append_assoc, List.singleton_append, lexeme,
    if_pos (by simpa using opens), stringLexeme, body]
  simp

/-- However a text is spelled, its literal is one token, and the lexer goes on behind
the closing quote. -/
theorem next_between (isQuote : quote ∈ quotes) (spelled : Spelled quote value spelling)
    {lexer : Lexer} (restEq : lexer.rest = between quote spelling ++ rest) :
    lexer.next = (.ofLiteral value (between quote spelling) lexer.position,
      ⟨rest, lexer.position.after (between quote spelling), false⟩) := by
  have noGap : Gap.ofText lexer.rest = .empty := by
    rw [restEq]
    rcases eq_or_eq_of_mem_quotes isQuote with rfl | rfl <;>
      exact ofText_eq_empty (by decide) (by decide) (by decide)
  have stays : lexer.afterGap = lexer := by
    unfold afterGap
    rw [noGap]
    rfl
  have found : lexer.found = ⟨.string (String.ofList value), (between quote spelling).length⟩ := by
    unfold Lexer.found
    rw [stays, restEq]
    exact lexeme_between isQuote spelled _
  rw [next_of_inside (by rw [noGap]; rfl) (by rw [found]; exact TokenKind.noConfusion), found,
    stays, noGap, skip, restEq, List.take_left, List.drop_left, Position.offset_after]
  rfl

end Lexer

theorem tokens_head? (text : List Char) :
    (tokens text).head? = some (Lexer.ofText text).next.1 := by
  simp only [tokens, Lexer.takeToEnd]
  split <;> rfl

/-- However a text is spelled between quotes, the first token is that text, and it
reaches up to the closing quote, whatever follows. -/
theorem string_literals_decode_every_spelling {quote : Char} (isQuote : quote ∈ quotes)
    {value spelling : List Char} (spelled : Spelled quote value spelling) (rest : List Char) :
    (tokens (between quote spelling ++ rest)).head? =
      some (.ofLiteral value (between quote spelling) .start) := by
  rw [tokens_head?, Lexer.next_between isQuote spelled rfl]
  rfl

theorem string_literals_decode_a_mixed_spelling :
    Spelled '\x27' "ab\x27é\n".toList "a\\\n\\x62\\\x27\\u00E9\\n".toList ∧
      (tokens (between '\x27' "a\\\n\\x62\\\x27\\u00E9\\n".toList ++ "7\x27".toList)).head? =
        some (.ofLiteral "ab\x27é\n".toList
          (between '\x27' "a\\\n\\x62\\\x27\\u00E9\\n".toList) .start) := by
  have spelled : Spelled '\x27' "ab\x27é\n".toList "a\\\n\\x62\\\x27\\u00E9\\n".toList :=
    .cons (.raw (by decide) (by decide) (by decide)) <|
      .lineBreak <|
      .cons (.twoDigits (by decide) (by decide) (by decide)) <|
      .cons (.itself (by decide)) <|
      .cons (.fourDigits (by decide) (by decide) (by decide) (by decide) (by decide)) <|
      .cons (.letter (by decide)) .nil
  exact ⟨spelled, string_literals_decode_every_spelling (by decide) spelled _⟩

/-- A literal that is made to hold a text is read back as that text, whatever the text
and whatever follows. -/
theorem literals_are_read_back (value rest : List Char) :
    (tokens (literal value ++ rest)).head? =
      some (.ofLiteral value (literal value) .start) := by
  have spelled := flatMap_literalCharacter_spelled value
  rw [tokens_head?]
  exact congrArg (some ∘ Prod.fst) (Lexer.next_between (by decide) spelled rfl)

end Qml
