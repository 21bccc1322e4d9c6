import Qml.Text.Bytes

/-! # Positions and spans

A position is a point of a text, a span a stretch of it that remembers at which
line and column it begins. -/

namespace Qml

/-- A point of a text. Lines and columns count from one and columns count
characters; the offset counts bytes from zero. -/
structure Position where
  line : Nat
  column : Nat
  offset : Nat
deriving DecidableEq, Repr

namespace Position

def start : Position := ⟨1, 1, 0⟩

def step (position : Position) (c : Char) : Position :=
  if c = '\n' then ⟨position.line + 1, 1, position.offset + c.utf8Size⟩
  else ⟨position.line, position.column + 1, position.offset + c.utf8Size⟩

def after (position : Position) (text : List Char) : Position :=
  text.foldl step position

@[simp] theorem after_nil (position : Position) : position.after [] = position := rfl

@[simp] theorem after_cons (position : Position) (c : Char) (rest : List Char) :
    position.after (c :: rest) = (position.step c).after rest := rfl

theorem after_append (position : Position) (left right : List Char) :
    position.after (left ++ right) = (position.after left).after right :=
  List.foldl_append

@[simp] theorem offset_step (position : Position) (c : Char) :
    (position.step c).offset = position.offset + c.utf8Size := by
  unfold step
  split <;> rfl

@[simp] theorem offset_after (position : Position) (text : List Char) :
    (position.after text).offset = position.offset + Text.byteLength text := by
  induction text generalizing position with
  | nil => simp
  | cons c rest hypothesis => simp [hypothesis, Nat.add_assoc]

def text (position : Position) : String :=
  s!"line: {position.line}, col: {position.column}, pos: {position.offset}"

end Position

/-- A stretch of a text from its `origin` up to the byte offset `stop`. -/
structure Span where
  origin : Position
  stop : Nat
deriving DecidableEq, Repr

namespace Span

def startOfInput : Span := ⟨.start, 0⟩

def start (span : Span) : Nat := span.origin.offset

def endingAt (span : Span) (stop : Nat) : Span := { span with stop }

def through (span other : Span) : Span := { span with stop := other.stop }

/-- The text under a span; nothing if the span does not fit the text. -/
def text (span : Span) (source : List Char) : List Char :=
  Text.slice source span.start span.stop

end Span

end Qml
