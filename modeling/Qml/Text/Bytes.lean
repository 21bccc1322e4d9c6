/-! # Byte offsets

Source locations are offsets into the UTF-8 form of a text, while the text
itself is handled as a list of characters. This module measures texts in bytes
and cuts them at byte offsets. An offset inside a character is no place to cut:
such a slice is empty, and so is one that is inverted or leaves the text. -/

namespace Qml.Text

def byteLength : List Char → Nat
  | [] => 0
  | c :: rest => c.utf8Size + byteLength rest

@[simp] theorem byteLength_nil : byteLength [] = 0 := rfl

@[simp] theorem byteLength_cons (c : Char) (rest : List Char) :
    byteLength (c :: rest) = c.utf8Size + byteLength rest := rfl

@[simp] theorem byteLength_append (left right : List Char) :
    byteLength (left ++ right) = byteLength left + byteLength right := by
  induction left with
  | nil => simp
  | cons c rest hypothesis => simp [hypothesis, Nat.add_assoc]

def dropBytes? : Nat → List Char → Option (List Char)
  | 0, text => some text
  | _ + 1, [] => none
  | count + 1, c :: rest =>
    if c.utf8Size ≤ count + 1 then dropBytes? (count + 1 - c.utf8Size) rest else none

def takeBytes? : Nat → List Char → Option (List Char)
  | 0, _ => some []
  | _ + 1, [] => none
  | count + 1, c :: rest =>
    if c.utf8Size ≤ count + 1 then
      (takeBytes? (count + 1 - c.utf8Size) rest).map (c :: ·)
    else
      none

@[simp] theorem dropBytes?_zero (text : List Char) : dropBytes? 0 text = some text := by
  cases text <;> rfl

@[simp] theorem takeBytes?_zero (text : List Char) : takeBytes? 0 text = some [] := by
  cases text <;> rfl

@[simp] theorem dropBytes?_byteLength_append (left right : List Char) :
    dropBytes? (byteLength left) (left ++ right) = some right := by
  induction left with
  | nil => simp
  | cons c rest hypothesis =>
    have positive := c.utf8Size_pos
    obtain ⟨count, size⟩ : ∃ count, c.utf8Size + byteLength rest = count + 1 :=
      ⟨c.utf8Size + byteLength rest - 1, by omega⟩
    rw [byteLength_cons, size, List.cons_append, dropBytes?, if_pos (by omega),
      show count + 1 - c.utf8Size = byteLength rest by omega]
    exact hypothesis

@[simp] theorem takeBytes?_byteLength_append (left right : List Char) :
    takeBytes? (byteLength left) (left ++ right) = some left := by
  induction left with
  | nil => simp
  | cons c rest hypothesis =>
    have positive := c.utf8Size_pos
    obtain ⟨count, size⟩ : ∃ count, c.utf8Size + byteLength rest = count + 1 :=
      ⟨c.utf8Size + byteLength rest - 1, by omega⟩
    rw [byteLength_cons, size, List.cons_append, takeBytes?, if_pos (by omega),
      show count + 1 - c.utf8Size = byteLength rest by omega, hypothesis]
    rfl

/-- The text from the byte offset `start` up to the byte offset `stop`. -/
def slice (text : List Char) (start stop : Nat) : List Char :=
  if start ≤ stop then
    ((dropBytes? start text).bind (takeBytes? (stop - start))).getD []
  else
    []

theorem slice_append (before inside after : List Char) :
    slice (before ++ (inside ++ after)) (byteLength before)
      (byteLength before + byteLength inside) = inside := by
  simp [slice]

/-- Like `slice`, with a `stop` beyond the end of the text read as its end. -/
def clippedSlice (text : List Char) (start stop : Nat) : List Char :=
  slice text start (min stop (byteLength text))

end Qml.Text
