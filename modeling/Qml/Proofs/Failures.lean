import Mathlib.Data.List.Induction
import Qml.Proofs.Flow
import Qml.Proofs.Parser.Path

/-! # Where failures lie

A failure lies where some token begins: at the token that is current when the
parse fails, or at one that began what has been read. Its line and column can
therefore be counted in the text before it, and the excerpt shown with it has a
row for its line. -/

namespace Qml

open Qml.Parser

/-! ## Marked positions -/

def State.Marked (marks : Position → Prop) (state : State) : Prop :=
  ∀ token ∈ state.cursor.remaining, marks token.span.origin

theorem State.Marked.advanced {marks : Position → Prop} {state : State}
    (marked : state.Marked marks) : state.advanced.Marked marks := by
  intro token member
  rcases upcomingEq : state.cursor.upcoming with _ | ⟨next, rest⟩
  · -- After the last token the same one is current again, on the same line.
    have only : token = state.cursor.peek := by
      simpa [Cursor.remaining, Cursor.advance, upcomingEq] using member
    rw [only]
    simpa [Cursor.peek, upcomingEq] using marked _ (List.mem_cons_self ..)
  · refine marked token (List.mem_cons_of_mem _ ?_)
    simpa [Cursor.remaining, Cursor.advance, Cursor.peek, upcomingEq] using member

/-- As long as all tokens ahead begin at marked positions, no failure lies
anywhere else. -/
def FailsAt (marks : Position → Prop) : Law := fun before failed after =>
  before.Marked marks → after.Marked marks ∧ ∀ position ∈ failed, marks position

section

variable (marks : Position → Prop)

instance : Flow (FailsAt marks) where
  refl _ marked := ⟨marked, nofun⟩
  trans one two marked := two (one marked).1
  advance _ marked := ⟨marked.advanced, nofun⟩
  skipped _ _ marked := ⟨marked, nofun⟩
  settled _ marked := ⟨marked, nofun⟩
  visited _ _ _ _ held := held
  current state _ _ held marked := by
    refine held ⟨fun _ later => ⟨later, ?_⟩⟩ marked
    rintro _ ⟨⟩
    exact marked _ (List.mem_cons_self ..)

instance : Patched (FailsAt marks) := ⟨fun _ _ marked => ⟨marked, nofun⟩⟩

instance : Keyed (FailsAt marks) := ⟨fun _ marked => ⟨marked, nofun⟩⟩

end

/-- Whatever a parser does with a text, it fails where one of the tokens begins. -/
theorem Parser.fails_at_token {α : Type} {parser : Parser α} {text : List Char} {fault : Fault}
    {after : State} (obeys : ∀ marks, Obeys (FailsAt marks) parser)
    (failed : parser (.ofText text) = .error fault after) :
    ∃ token ∈ tokens text, token.span.origin = fault.position := by
  have marked : (State.ofText text).Marked
      (fun position => ∃ token ∈ tokens text, token.span.origin = position) := by
    intro token member
    exact ⟨token, Cursor.remaining_ofText text ▸ member, rfl⟩
  exact ((obeys _).of_error failed marked).2 _ rfl

/-! ## Counting lines and columns -/

theorem Position.line_after (position : Position) (text : List Char) :
    (position.after text).line = position.line + text.count '\n' := by
  induction text generalizing position with
  | nil => simp
  | cons c rest induction =>
      rw [Position.after_cons, induction]
      unfold Position.step
      split
      case isTrue isBreak => simp [isBreak]; omega
      case isFalse notBreak => simp [notBreak]

def Text.lengthSinceBreak (text : List Char) : Nat :=
  (text.reverse.takeWhile (· ≠ '\n')).length

theorem Position.column_start_after (text : List Char) :
    (Position.start.after text).column = 1 + Text.lengthSinceBreak text := by
  induction text using List.reverseRecOn with
  | nil => rfl
  | append_singleton text c induction =>
      rw [Position.after_append]
      simp only [Position.after_cons, Position.after_nil, Position.step, Text.lengthSinceBreak,
        List.reverse_append, List.reverse_singleton, List.singleton_append,
        List.takeWhile_cons] at induction ⊢
      split
      case isTrue isBreak => simp [isBreak]
      case isFalse notBreak => simp [notBreak, induction, Nat.add_assoc]

namespace Text

theorem length_splitOn (separator : Char) (text : List Char) :
    (splitOn separator text).length = text.count separator + 1 := by
  induction text with
  | nil => simp [splitOn]
  | cons c rest induction =>
      rw [splitOn]
      split
      case isTrue isSeparator => simp [isSeparator, induction]
      case isFalse notSeparator =>
          split
          case h_1 none => exact absurd none (splitOn_ne_nil separator rest)
          case h_2 part more parts =>
              rw [parts] at induction
              simpa [notSeparator] using induction

end Text

theorem Tiled.origin_eq_after {position : Position} {text : List Char} {tokens : List Token}
    (tiled : Tiled position text tokens) {token : Token} (member : token ∈ tokens) :
    ∃ before rest, text = before ++ rest ∧ token.span.origin = position.after before := by
  induction tokens generalizing position text with
  | nil => cases member
  | cons first more induction =>
      obtain ⟨gap, body, after, tile, behind⟩ := tiled
      rcases List.mem_cons.mp member with rfl | later
      · exact ⟨gap, body ++ after, tile.text_eq, by rw [tile.span_eq]⟩
      · obtain ⟨before, rest, afterEq, originEq⟩ := induction behind later
        refine ⟨gap ++ body ++ before, rest, ?_, ?_⟩
        · rw [tile.text_eq, afterEq]
          simp
        · rw [originEq, ← Position.after_append]

/-! ## The failing line in an excerpt -/

namespace Excerpt

theorem around_has_row {text line : List Char} {index : Nat}
    (lineEq : (Text.lines text)[index]? = some line) :
    ∃ above below,
      around text (index + 1) = above ++ row (index + 1) (index + 1) line ++ below := by
  have numbered : (index + 1, line) ∈ numberedLines text :=
    List.mem_map.mpr ⟨(line, index), List.mem_zipIdx_iff_getElem?.mpr lineEq, rfl⟩
  unfold around
  generalize shownEq : (numberedLines text).filter _ = rows
  have shown : (index + 1, line) ∈ rows := by
    rw [← shownEq]
    exact List.mem_filter.mpr ⟨numbered, by simp [shows]⟩
  obtain ⟨above, below, rowsEq⟩ := List.append_of_mem shown
  rw [rowsEq, List.map_append, List.map_cons, String.join_append, String.join_cons,
    ← String.append_assoc]
  exact ⟨_, _, rfl⟩

end Excerpt

/-! ## Errors -/

/-- What an error tells about its place is right: it lies where a token begins,
its line and column are those of that place, and its line is the marked row of
its excerpt. -/
structure Error.Located (text : List Char) (error : Error) : Prop where
  at_token : ∃ token ∈ tokens text, token.span.origin = error.position
  counted : ∃ before rest, text = before ++ rest ∧
    error.position.offset = Text.byteLength before ∧
    error.position.line = 1 + before.count '\n' ∧
    error.position.column = 1 + Text.lengthSinceBreak before
  line_le : error.position.line ≤ (Text.lines text).length
  excerpt_eq : error.excerpt = Excerpt.around text error.position.line
  shown : ∃ line above below, (Text.lines text)[error.position.line - 1]? = some line ∧
    error.excerpt = above ++ Excerpt.row error.position.line error.position.line line ++ below

theorem Options.error_located (options : Options) {text : List Char} {fault : Fault}
    (at_token : ∃ token ∈ tokens text, token.span.origin = fault.position) :
    (options.error text fault).Located text := by
  obtain ⟨token, member, originEq⟩ := at_token
  obtain ⟨before, rest, textEq, placeEq⟩ := (tokens_tiled text).origin_eq_after member
  rw [originEq] at placeEq
  have lineEq : fault.position.line = 1 + before.count '\n' := by
    rw [placeEq, Position.line_after]
    rfl
  have line_le : fault.position.line ≤ (Text.lines text).length := by
    rw [lineEq, Text.lines, Text.length_splitOn, textEq, List.count_append]
    omega
  have inside : fault.position.line - 1 < (Text.lines text).length := by omega
  have found := List.getElem?_eq_getElem inside
  obtain ⟨above, below, excerptEq⟩ := Excerpt.around_has_row found
  rw [show fault.position.line - 1 + 1 = fault.position.line by omega] at excerptEq
  refine ⟨⟨token, member, originEq⟩, ⟨before, rest, textEq, ?_, lineEq, ?_⟩, line_le, rfl,
    ⟨_, above, below, found, excerptEq⟩⟩
  · change fault.position.offset = _
    rw [placeEq, Position.offset_after]
    exact Nat.zero_add _
  · change fault.position.column = _
    rw [placeEq, Position.column_start_after]

/-- Every failure is reported where a token of the normalized text begins, with
the lines around it and the name of the file. -/
theorem failures_are_located (options : Options) (source : String) {error : Error}
    (failed : (parse options source).outcome = .error error) :
    error.Located (Text.normalize source).toList ∧ error.file = options.file := by
  unfold parse parseNormalized at failed
  generalize (Text.normalize source).toList = text at failed ⊢
  cases parsed : options.tree text (.ofText text) with
  | ok tree state =>
      rw [parsed] at failed
      cases failed
  | error fault state =>
      rw [parsed] at failed
      cases failed
      exact ⟨options.error_located (fails_at_token
        (fun _ => Options.tree_obeys (Deeper.within_obeys _ options.limit)) parsed), rfl⟩

theorem failures_are_located_second_line :
    ∃ error, (parse { file := some "a.qml" } "A \x7b\n b: 1 )").outcome = .error error ∧
      error.position = ⟨2, 7, 10⟩ ∧ error.excerpt = "  1  A \x7b\n>>2   b: 1 )\n" ∧
      error.Located (Text.normalize "A \x7b\n b: 1 )").toList ∧ error.file = some "a.qml" := by
  have refused : (match (parse { file := some "a.qml" } "A \x7b\n b: 1 )").outcome with
      | .error error => some (error.position, error.excerpt)
      | .ok _ => none) = some (⟨2, 7, 10⟩, "  1  A \x7b\n>>2   b: 1 )\n") := by
    decide +kernel
  cases outcome : (parse { file := some "a.qml" } "A \x7b\n b: 1 )").outcome with
  | ok tree =>
      rw [outcome] at refused
      cases refused
  | error error =>
      rw [outcome] at refused
      obtain ⟨position, excerpt⟩ := Prod.mk.inj (Option.some.inj refused)
      exact ⟨error, rfl, position, excerpt, failures_are_located _ _ outcome⟩

end Qml
