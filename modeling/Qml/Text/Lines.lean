/-! # Lines

Only the line feed divides lines. Texts that use another line break are brought
to that form once, before anything else looks at them. -/

namespace Qml.Text

def splitOn (separator : Char) : List Char → List (List Char)
  | [] => [[]]
  | c :: rest =>
    if c = separator then
      [] :: splitOn separator rest
    else
      match splitOn separator rest with
      | [] => [[c]]
      | part :: more => (c :: part) :: more

theorem splitOn_ne_nil (separator : Char) (text : List Char) : splitOn separator text ≠ [] := by
  cases text with
  | nil => simp [splitOn]
  | cons c rest =>
    rw [splitOn]
    split
    · simp
    · split <;> simp

def lines (text : List Char) : List (List Char) := splitOn '\n' text

def isForeignLineBreak (c : Char) : Bool :=
  c = '\r' || c = '\u2028' || c = '\u2029'

/-- Writes every line break as one line feed; a carriage return and the line
feed after it are one line break. -/
def unifyLineBreaks : List Char → List Char
  | [] => []
  | '\r' :: '\n' :: rest => '\n' :: unifyLineBreaks rest
  | c :: rest => (if isForeignLineBreak c then '\n' else c) :: unifyLineBreaks rest

/-- The byte order mark, which may begin a file and is no part of its text. -/
def byteOrderMark : Char := '\ufeff'

def dropByteOrderMark : List Char → List Char
  | [] => []
  | c :: rest => if c = byteOrderMark then rest else c :: rest

/-- The form in which a file's text is parsed: no byte order mark at its start,
and line feeds as its only line breaks. -/
def normalize (text : String) : String :=
  String.ofList (unifyLineBreaks (dropByteOrderMark text.toList))

end Qml.Text
