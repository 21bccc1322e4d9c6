import Qml.Token.Gap
import Qml.Token.Literal

/-! # The lexer

The lexer cuts a text into tokens. Whether a slash divides or begins a regular
expression depends on the token before it, so that is part of the lexer's
state. A malformed token does not stop the lexer, and after the end of the text
it returns the end again and again. -/

namespace Qml

/-- What is left of a text, where that begins, and whether a slash there begins
a regular expression. -/
structure Lexer where
  rest : List Char
  position : Position
  regexpAllowed : Bool
deriving DecidableEq

namespace Lexer

def ofText (text : List Char) : Lexer := ⟨text, .start, true⟩

def marks : List Char := ['[', ']', '{', '}', '(', ')', ',', ';', ':', '.']

/-- The operator at the front of a text, by its longest spelling. -/
def operatorAt? (text : List Char) : Option Operator :=
  Operator.signs.find? fun operator => operator.text.toList.isPrefixOf text

def lexeme (regexpAllowed : Bool) : List Char → Lexeme
  | [] => ⟨.endOfInput, 0⟩
  | c :: rest =>
    if c = '\x22' || c = '\x27' then stringLexeme c rest
    else if c.isDigit || (c = '.' && rest.head?.any Char.isDigit) then numberLexeme (c :: rest)
    else if marks.contains c then ⟨.punctuation c, 1⟩
    else if c = '/' && regexpAllowed then regexpLexeme rest
    else if isNameStart c then
      let word := (c :: rest).takeWhile isNamePart
      ⟨.ofWord (String.ofList word), word.length⟩
    else
      match operatorAt? (c :: rest) with
      | some operator => ⟨.operator operator, operator.text.length⟩
      | none => ⟨.malformed (.unexpectedCharacter c), 1⟩

def skip (lexer : Lexer) (count : Nat) : Lexer :=
  { lexer with
    rest := lexer.rest.drop count
    position := lexer.position.after (lexer.rest.take count) }

def next (lexer : Lexer) : Token × Lexer :=
  let gap := Gap.ofText lexer.rest
  let start := lexer.skip gap.length
  if gap.closed then
    let found := lexeme start.regexpAllowed start.rest
    let stop := start.skip found.length
    let token : Token :=
      { kind := found.kind
        span := ⟨start.position, stop.position.offset⟩
        afterLineBreak := gap.lineBreak
        text := String.ofList (start.rest.take found.length) }
    if token.isEnd then (token, stop)
    else (token, { stop with regexpAllowed := found.kind.allowsRegexpAfter })
  else
    let token : Token :=
      { kind := .malformed .unterminatedComment
        span := ⟨start.position, start.position.offset⟩
        afterLineBreak := false
        text := "" }
    (token, start)

def take : Nat → Lexer → List Token
  | 0, _ => []
  | count + 1, lexer =>
    let (token, after) := lexer.next
    token :: take count after

def takeToEnd : Nat → Lexer → List Token
  | 0, _ => []
  | bound + 1, lexer =>
    let (token, after) := lexer.next
    if token.isEnd then [token] else token :: takeToEnd bound after

end Lexer

/-- All tokens of a text, the end last. Every token but the end takes at least
one character, which bounds their number. -/
def tokens (text : List Char) : List Token :=
  (Lexer.ofText text).takeToEnd (text.length + 1)

def tokenize (text : String) : List Token :=
  let all := tokens text.toList
  let wellFormed := all.takeWhile fun token => !token.isMalformed
  wellFormed ++ (all.drop wellFormed.length).take 1

end Qml
