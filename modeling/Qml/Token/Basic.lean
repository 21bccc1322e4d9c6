import Qml.Number.Shortest
import Qml.Source.Position
import Qml.Text.Quoted
import Qml.Token.Word

/-! # Tokens

A text is read as a sequence of tokens. Words such as `property`, `signal` or
`import` are ordinary names; only the grammar knows where they are special. -/

namespace Qml

inductive LexicalFault where
  | unterminatedComment
  | unterminatedString
  | unterminatedRegexp
  | malformedEscape
  | malformedNumber (text : String)
  | missingExponent (text : String)
  | unexpectedCharacter (character : Char)
deriving DecidableEq

def LexicalFault.message : LexicalFault → String
  | unterminatedComment => "Unterminated multiline comment"
  | unterminatedString => "Unterminated string constant"
  | unterminatedRegexp => "Unterminated regular expression"
  | malformedEscape => "Invalid hex-character pattern in string"
  | malformedNumber text => "Invalid syntax: " ++ text
  | missingExponent text => "Invalid syntax: " ++ text ++ " (invalid float literal)"
  | unexpectedCharacter character => "Unexpected character '" ++ character.toString ++ "'"

/-- What a token is. A string token holds the text it denotes, a number token
its value; a punctuation token is one of `[ ] { } ( ) , ; : .` -/
inductive TokenKind where
  | name (text : String)
  | keyword (keyword : Keyword)
  | atom (atom : Atom)
  | number (value : Binary64)
  | string (value : String)
  | regexp (pattern flags : String)
  | operator (operator : Operator)
  | punctuation (mark : Char)
  | endOfInput
  | malformed (fault : LexicalFault)
deriving DecidableEq

namespace TokenKind

def ofWord (word : String) : TokenKind :=
  match Keyword.ofText? word with
  | some reserved => .keyword reserved
  | none =>
    match Operator.words.find? fun operator => operator.text == word with
    | some sign => .operator sign
    | none =>
      match Atom.ofText? word with
      | some value => .atom value
      | none => .name word

def className : TokenKind → String
  | name _ => "name"
  | keyword _ => "keyword"
  | atom _ => "atom"
  | number _ => "num"
  | string _ => "string"
  | regexp _ _ => "regexp"
  | operator _ => "operator"
  | punctuation _ => "punc"
  | endOfInput => "eof"
  | malformed _ => "error"

def describe : TokenKind → String
  | name text => "name " ++ text
  | keyword reserved => "keyword " ++ reserved.text
  | atom value => "atom " ++ value.text
  | number value => "num " ++ value.text
  | string value => "string " ++ Text.shown value
  | regexp pattern flags => "regexp /" ++ pattern ++ "/" ++ flags
  | operator sign => "operator " ++ sign.text
  | punctuation mark => "punc " ++ mark.toString
  | endOfInput => "eof"
  | malformed fault => "error " ++ fault.message

/-- Whether a slash after a token of this kind begins a regular expression
rather than a division. -/
def allowsRegexpAfter : TokenKind → Bool
  | operator sign => !sign.isStep
  | keyword .return_ | keyword .throw | keyword .else_ | keyword .case_ => true
  | punctuation mark => mark != ')' && mark != ']'
  | _ => false

def name? : TokenKind → Option String
  | name text => some text
  | _ => none

/-- The text of a token that may stand where any word may: a name, a reserved
word, or an operator spelled as a word. -/
def word? : TokenKind → Option String
  | name text => some text
  | keyword reserved => some reserved.text
  | atom value => some value.text
  | operator sign => if sign.isWord then some sign.text else none
  | _ => none

end TokenKind

/-- A token with its place and spelling. `afterLineBreak` tells whether a line
break lies between it and the token before. -/
structure Token where
  kind : TokenKind
  span : Span
  afterLineBreak : Bool
  text : String
deriving DecidableEq

namespace Token

def isPunctuation (token : Token) (mark : Char) : Bool := token.kind = .punctuation mark

def isOperator (token : Token) (operator : Operator) : Bool := token.kind = .operator operator

def isKeyword (token : Token) (keyword : Keyword) : Bool := token.kind = .keyword keyword

def isName (token : Token) (text : String) : Bool := token.kind = .name text

def isEnd (token : Token) : Bool := token.kind = .endOfInput

def isMalformed (token : Token) : Bool :=
  match token.kind with
  | .malformed _ => true
  | _ => false

def isString (token : Token) : Bool :=
  match token.kind with
  | .string _ => true
  | _ => false

def isNumber (token : Token) : Bool :=
  match token.kind with
  | .number _ => true
  | _ => false

end Token

end Qml
