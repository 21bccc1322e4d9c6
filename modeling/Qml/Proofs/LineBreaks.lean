import Qml.Parse

/-! # Line breaks

Files come with the line breaks of the system they were written on, or with a
mixture of them. None of it can be seen in the outcome of a parse: each line
feed may be written in any of the styles, whatever the others look like. Only a
carriage return must not come to stand before a line feed that is a line break
of its own, since the two would be read as one. -/

namespace Qml.Text

inductive LineBreak where
  | lineFeed
  | pair
  | carriageReturn
  | lineSeparator
  | paragraphSeparator
deriving DecidableEq, Repr

def LineBreak.spelling : LineBreak → List Char
  | .lineFeed => ['\n']
  | .pair => ['\r', '\n']
  | .carriageReturn => ['\r']
  | .lineSeparator => ['\u2028']
  | .paragraphSeparator => ['\u2029']

/-- One text is the other one with each line feed written in some style. -/
inductive Respelled : List Char → List Char → Prop
  | nil : Respelled [] []
  | keep {text other : List Char} {c : Char} (isPlain : c ≠ '\n')
      (rest : Respelled text other) : Respelled (c :: text) (c :: other)
  | lineBreak {text other : List Char} (style : LineBreak)
      (apart : style = .carriageReturn → other.head? ≠ some '\n')
      (rest : Respelled text other) : Respelled ('\n' :: text) (style.spelling ++ other)

theorem Respelled.dropByteOrderMark {text other : List Char} (respelled : Respelled text other) :
    Respelled (dropByteOrderMark text) (dropByteOrderMark other) := by
  cases respelled with
  | nil => exact .nil
  | @keep text other c isPlain rest =>
      rw [Text.dropByteOrderMark, Text.dropByteOrderMark]
      split
      · exact rest
      · exact .keep isPlain rest
  | lineBreak style apart rest =>
      have respelled := Respelled.lineBreak style apart rest
      cases style <;> exact respelled

theorem unifyLineBreaks_cons {c : Char} {rest : List Char}
    (single : c = '\r' → rest.head? ≠ some '\n') :
    unifyLineBreaks (c :: rest) =
      (if isForeignLineBreak c then '\n' else c) :: unifyLineBreaks rest := by
  rw [unifyLineBreaks]
  rintro tail rfl rfl
  exact single rfl rfl

theorem unifyLineBreaks_spelling {style : LineBreak} {rest : List Char}
    (apart : style = .carriageReturn → rest.head? ≠ some '\n') :
    unifyLineBreaks (style.spelling ++ rest) = '\n' :: unifyLineBreaks rest := by
  cases style with
  | lineFeed => exact unifyLineBreaks_cons nofun
  | pair => rfl
  | carriageReturn => exact unifyLineBreaks_cons fun _ => apart rfl
  | lineSeparator => exact unifyLineBreaks_cons nofun
  | paragraphSeparator => exact unifyLineBreaks_cons nofun

theorem Respelled.unifyLineBreaks_eq {text other : List Char} (respelled : Respelled text other)
    (plain : '\r' ∉ text) : unifyLineBreaks other = unifyLineBreaks text := by
  induction respelled with
  | nil => rfl
  | @keep text other c _ _ hypothesis =>
      obtain ⟨different, plain⟩ := List.ne_and_not_mem_of_not_mem_cons plain
      have single (rest : List Char) : c = '\r' → rest.head? ≠ some '\n' :=
        fun same => absurd same.symm different
      rw [unifyLineBreaks_cons (single other), unifyLineBreaks_cons (single text),
        hypothesis plain]
  | lineBreak style apart _ hypothesis =>
      have feed {rest : List Char} :
          unifyLineBreaks ('\n' :: rest) = '\n' :: unifyLineBreaks rest :=
        @unifyLineBreaks_spelling .lineFeed rest nofun
      rw [unifyLineBreaks_spelling apart, feed,
        hypothesis (List.not_mem_of_not_mem_cons plain)]

theorem not_mem_dropByteOrderMark {c : Char} {text : List Char} (absent : c ∉ text) :
    c ∉ dropByteOrderMark text := by
  cases text with
  | nil => exact absent
  | cons first rest =>
      rw [dropByteOrderMark]
      split
      · exact List.not_mem_of_not_mem_cons absent
      · exact absent

theorem Respelled.normalize_eq {text other : String}
    (respelled : Respelled text.toList other.toList) (plain : '\r' ∉ text.toList) :
    normalize other = normalize text :=
  congrArg String.ofList
    (respelled.dropByteOrderMark.unifyLineBreaks_eq (not_mem_dropByteOrderMark plain))

/-- A carriage return before a line feed is no line break of its own. -/
example : unifyLineBreaks ['a', '\r', '\n', 'b'] ≠ unifyLineBreaks ['a', '\n', '\n', 'b'] := by
  decide

end Qml.Text

namespace Qml

open Qml.Text

/-- How the line breaks of a file are written does not show: the tree with its
spans and kept sources, the error with its position and excerpt, and the tokens
passed over are those of the file with line feeds. -/
theorem line_break_style_is_irrelevant (options : Options) {text other : String}
    (plain : '\r' ∉ text.toList) (respelled : Respelled text.toList other.toList) :
    parse options other = parse options text := by
  rw [parse, parse, respelled.normalize_eq plain]

theorem line_break_style_is_irrelevant_mixture :
    '\r' ∉ "A \x7b\n\n\n\nb: 1\n\x7d".toList ∧
      Respelled "A \x7b\n\n\n\nb: 1\n\x7d".toList
        "A \x7b\r\n\n\r\u2028b: 1\u2029\x7d".toList ∧
      parse {} "A \x7b\r\n\n\r\u2028b: 1\u2029\x7d" = parse {} "A \x7b\n\n\n\nb: 1\n\x7d" := by
  have plain : '\r' ∉ "A \x7b\n\n\n\nb: 1\n\x7d".toList := by decide
  have respelled : Respelled "A \x7b\n\n\n\nb: 1\n\x7d".toList
      "A \x7b\r\n\n\r\u2028b: 1\u2029\x7d".toList := by
    have ending : Respelled ['b', ':', ' ', '1', '\n', '\x7d']
        ['b', ':', ' ', '1', '\u2029', '\x7d'] :=
      .keep (by decide) (.keep (by decide) (.keep (by decide) (.keep (by decide)
        (.lineBreak .paragraphSeparator nofun (.keep (by decide) .nil)))))
    exact .keep (by decide) (.keep (by decide) (.keep (by decide)
      (.lineBreak .pair nofun (.lineBreak .lineFeed nofun
        (.lineBreak .carriageReturn (fun _ => by decide)
          (.lineBreak .lineSeparator nofun ending))))))
  exact ⟨plain, respelled, line_break_style_is_irrelevant {} plain respelled⟩

end Qml
