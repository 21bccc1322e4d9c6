import Qml.Text.Alphabetic
import Qml.Token.Basic

/-! # Literals

Readers of the literals at the front of a text. A reader says what it found and
how many characters it took; a malformed literal ends where the reader noticed,
and the text goes on from there. -/

namespace Qml

structure Lexeme where
  kind : TokenKind
  length : Nat
deriving DecidableEq

/-- The outcome of reading a literal's body and how many characters were read. -/
structure Reading where
  result : Except LexicalFault (List Char)
  length : Nat

namespace Reading

def done (length : Nat) : Reading := ⟨.ok [], length⟩

def fail (fault : LexicalFault) : Reading := ⟨.error fault, 0⟩

def skip (reading : Reading) : Reading :=
  { reading with length := reading.length + 1 }

def emit (reading : Reading) (c : Char) : Reading :=
  ⟨reading.result.map (c :: ·), reading.length + 1⟩

end Reading

/-! ## Names -/

def isNameStart (c : Char) : Bool :=
  Text.isAlphabetic c || c = '_' || c = '$'

def isNamePart (c : Char) : Bool :=
  isNameStart c || c.isDigit || c = '\u200c' || c = '\u200d'

/-! ## Strings -/

def hexDigit? (c : Char) : Option Nat :=
  if c.isDigit then some (c.toNat - '0'.toNat)
  else if 'a' ≤ c ∧ c ≤ 'f' then some (c.toNat - 'a'.toNat + 10)
  else if 'A' ≤ c ∧ c ≤ 'F' then some (c.toNat - 'A'.toNat + 10)
  else none

/-- The character of a code point; the replacement character if there is none. -/
def characterOf (codePoint : Nat) : Char :=
  if codePoint.isValidChar then Char.ofNat codePoint else '\ufffd'

def unescape (c : Char) : Char :=
  match c with
  | 'n' => '\n'
  | 'r' => '\r'
  | 't' => '\t'
  | 'b' => '\x08'
  | 'f' => '\x0c'
  | 'v' => '\x0b'
  | '0' => '\x00'
  | other => other

/-- Where in a string literal the reader stands. In `hexadecimal further value`,
`value` is what the digits so far spell, and after the next digit `further`
more belong to the escape. -/
inductive StringState where
  | plain
  | escaped
  | hexadecimal (further value : Nat)

def stringBody (quote : Char) : StringState → List Char → Reading
  | .hexadecimal _ _, [] => .fail .malformedEscape
  | _, [] => .fail .unterminatedString
  | .plain, c :: rest =>
    if c = quote then .done 1
    else if c = '\\' then (stringBody quote .escaped rest).skip
    else if c = '\n' then .fail .unterminatedString
    else (stringBody quote .plain rest).emit c
  | .escaped, c :: rest =>
    if c = 'x' then (stringBody quote (.hexadecimal 1 0) rest).skip
    else if c = 'u' then (stringBody quote (.hexadecimal 3 0) rest).skip
    else if c = '\n' then (stringBody quote .plain rest).skip
    else (stringBody quote .plain rest).emit (unescape c)
  | .hexadecimal further value, c :: rest =>
    match hexDigit? c, further with
    | none, _ => .fail .malformedEscape
    | some digit, 0 => (stringBody quote .plain rest).emit (characterOf (value * 16 + digit))
    | some digit, more + 1 =>
      (stringBody quote (.hexadecimal more (value * 16 + digit)) rest).skip

def stringLexeme (quote : Char) (rest : List Char) : Lexeme :=
  let reading := stringBody quote .plain rest
  match reading.result with
  | .ok value => ⟨.string (String.ofList value), reading.length + 1⟩
  | .error fault => ⟨.malformed fault, reading.length + 1⟩

/-! ## Regular expressions -/

/-- The pattern of a regular expression up to and including the closing slash.
A slash inside a class of characters does not close the pattern. -/
def regexpBody : (inClass escaped : Bool) → List Char → Reading
  | _, _, [] => .fail .unterminatedRegexp
  | inClass, escaped, c :: rest =>
    if c = '\n' then .fail .unterminatedRegexp
    else if escaped then (regexpBody inClass false rest).emit c
    else if c = '\\' then (regexpBody inClass true rest).emit c
    else if c = '/' && !inClass then .done 1
    else (regexpBody (c = '[' || (inClass && c != ']')) false rest).emit c

def regexpLexeme (rest : List Char) : Lexeme :=
  let reading := regexpBody false false rest
  match reading.result with
  | .ok pattern =>
    let flags := (rest.drop reading.length).takeWhile isNamePart
    ⟨.regexp (String.ofList pattern) (String.ofList flags), reading.length + flags.length + 1⟩
  | .error fault => ⟨.malformed fault, reading.length + 1⟩

/-! ## Numbers -/

/-- The hexadecimal literal whose `0x` is spelled `opening`. It must fit
sixty-four bits. -/
def hexadecimalLexeme (opening rest : List Char) : Lexeme :=
  let digits := rest.takeWhile fun c => (hexDigit? c).isSome
  let value := digits.foldl (fun value c => value * 16 + (hexDigit? c).getD 0) 0
  let text := opening ++ digits
  if digits.isEmpty || 0x10000000000000000 ≤ value then
    ⟨.malformed (.malformedNumber (String.ofList text)), text.length⟩
  else
    ⟨.number (.ofNat value), text.length⟩

structure ExponentText where
  sign : List Char
  digits : List Char

/-- A decimal literal in its parts: digits, a point with digits, a mark with an
exponent. -/
structure DecimalText where
  whole : List Char
  fraction : Option (List Char)
  exponent : Option ExponentText

namespace ExponentText

def ofText : List Char → ExponentText
  | [] => ⟨[], []⟩
  | c :: rest =>
    if c = '+' || c = '-' then ⟨[c], rest.takeWhile Char.isDigit⟩
    else ⟨[], (c :: rest).takeWhile Char.isDigit⟩

def length (exponent : ExponentText) : Nat :=
  exponent.sign.length + exponent.digits.length

def value (exponent : ExponentText) : Int :=
  if exponent.sign = ['-'] then -(Decimal.wholeNumber exponent.digits)
  else Decimal.wholeNumber exponent.digits

end ExponentText

namespace DecimalText

def fraction? : List Char → Option (List Char)
  | '.' :: rest => some (rest.takeWhile Char.isDigit)
  | _ => none

def exponent? : List Char → Option ExponentText
  | 'e' :: rest => some (.ofText rest)
  | 'E' :: rest => some (.ofText rest)
  | _ => none

def partLength {α : Type} (length : α → Nat) : Option α → Nat
  | none => 0
  | some part => length part + 1

/-- The longest decimal literal at the front of a text. -/
def ofText (text : List Char) : DecimalText :=
  let whole := text.takeWhile Char.isDigit
  let afterWhole := text.drop whole.length
  let fraction := fraction? afterWhole
  let afterFraction := afterWhole.drop (partLength List.length fraction)
  ⟨whole, fraction, exponent? afterFraction⟩

def length (decimal : DecimalText) : Nat :=
  decimal.whole.length + partLength List.length decimal.fraction +
    partLength ExponentText.length decimal.exponent

/-- The number that a literal spells; an exponent mark without digits spells
none. -/
def value? (decimal : DecimalText) : Option Decimal :=
  let fraction := decimal.fraction.getD []
  let digits := Decimal.wholeNumber (decimal.whole ++ fraction)
  match decimal.exponent with
  | none => some ⟨digits, -fraction.length⟩
  | some exponent =>
    if exponent.digits.isEmpty then none
    else some ⟨digits, exponent.value - fraction.length⟩

end DecimalText

def DecimalText.kind (decimal : DecimalText) (spelling : List Char) : TokenKind :=
  match decimal.value? with
  | some value => .number value.toBinary64
  | none => .malformed (.missingExponent (String.ofList spelling))

/-- The decimal literal at the front of a text. A name must not follow it
directly. -/
def decimalLexeme (text : List Char) : Lexeme :=
  let decimal := DecimalText.ofText text
  if (text.drop decimal.length).head?.any isNameStart then
    let spelling := text.take (decimal.length + 1)
    ⟨.malformed (.malformedNumber (String.ofList spelling)), decimal.length + 1⟩
  else
    ⟨decimal.kind (text.take decimal.length), decimal.length⟩

def numberLexeme : List Char → Lexeme
  | '0' :: 'x' :: rest => hexadecimalLexeme ['0', 'x'] rest
  | '0' :: 'X' :: rest => hexadecimalLexeme ['0', 'X'] rest
  | text => decimalLexeme text

end Qml
