import Qml.Text.Blank
import Qml.Text.Lines

/-! # Gaps

A gap is what lies between two tokens: blank characters and comments. The
grammar needs to know of a gap only whether it contains a line break, and the
lexer how long it is and whether its last comment is closed. -/

namespace Qml

/-- A measured gap. `length` counts characters. -/
structure Gap where
  length : Nat
  lineBreak : Bool
  closed : Bool
deriving DecidableEq, Repr

namespace Gap

inductive Mode where
  | blank
  | lineComment
  | blockComment
deriving DecidableEq

def empty : Gap := ⟨0, false, true⟩

def unclosed : Gap := ⟨0, false, false⟩

def prepend (gap : Gap) (count : Nat) : Gap :=
  { gap with length := gap.length + count }

def prependLineBreak (gap : Gap) : Gap :=
  { gap with length := gap.length + 1, lineBreak := true }

def prependComment (gap : Gap) (c : Char) : Gap :=
  if c = '\n' then gap.prependLineBreak else gap.prepend 1

/-- Whether a character may stand between tokens. A byte order mark inside a
text counts as blank. -/
def isSpace (c : Char) : Bool :=
  Text.isBlank c || c = Text.byteOrderMark

def measure : Mode → List Char → Gap
  | .blank, [] => empty
  | .blank, '/' :: '/' :: rest => (measure .lineComment rest).prepend 2
  | .blank, '/' :: '*' :: rest => (measure .blockComment rest).prepend 2
  | .blank, c :: rest =>
    if c = '\n' then (measure .blank rest).prependLineBreak
    else if isSpace c then (measure .blank rest).prepend 1
    else empty
  | .lineComment, [] => empty
  | .lineComment, c :: rest =>
    if c = '\n' then (measure .blank rest).prependLineBreak
    else (measure .lineComment rest).prepend 1
  | .blockComment, [] => unclosed
  | .blockComment, '*' :: '/' :: rest => (measure .blank rest).prepend 2
  | .blockComment, c :: rest => (measure .blockComment rest).prependComment c

def ofText (text : List Char) : Gap := measure .blank text

end Gap

end Qml
