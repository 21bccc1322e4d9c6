import Mathlib.Data.List.Infix
import Qml.Proofs.Token.Tiling

/-! # What gaps consist of

A gap is measured character by character. What it then turns out to be is a
sequence of blank characters and whole comments: a line comment up to a line
feed or the end of the text, a block comment up to the first mark that closes
it. Only the last comment may lack that mark, and then it goes on to the end of
the text. -/

namespace Qml

def Gap.HoldsClosingMark (text : List Char) : Prop := ['*', '/'] <:+: text

instance (text : List Char) : Decidable (Gap.HoldsClosingMark text) :=
  inferInstanceAs (Decidable (_ <:+: text))

/-- Blank characters and comments, by the text that follows them. All comments
are complete if `closed` says so; otherwise the last one is an unclosed block
comment. -/
inductive Gap.Filling : (closed : Bool) → (gap after : List Char) → Prop
  | nil {after : List Char} : Filling true [] after
  | space {closed : Bool} {c : Char} {gap after : List Char} (isSpace : Gap.isSpace c = true)
      (rest : Filling closed gap after) : Filling closed (c :: gap) after
  | lineComment {closed : Bool} {body gap after : List Char} (oneLine : '\n' ∉ body)
      (rest : Filling closed gap after) :
      Filling closed ('/' :: '/' :: (body ++ '\n' :: gap)) after
  | lastLineComment {body : List Char} (oneLine : '\n' ∉ body) :
      Filling true ('/' :: '/' :: body) []
  | blockComment {closed : Bool} {body gap after : List Char}
      (isBody : ¬ HoldsClosingMark body) (rest : Filling closed gap after) :
      Filling closed ('/' :: '*' :: (body ++ '*' :: '/' :: gap)) after
  | unclosedComment {body : List Char} (isBody : ¬ HoldsClosingMark body) :
      Filling false ('/' :: '*' :: body) []

theorem Gap.Filling.after_eq_nil {gap after : List Char} (fills : Filling false gap after) :
    after = [] := by
  generalize unclosed : false = closed at fills
  induction fills with
  | nil => cases unclosed
  | space _ _ induction => exact induction unclosed
  | lineComment _ _ induction => exact induction unclosed
  | lastLineComment => rfl
  | blockComment _ _ induction => exact induction unclosed
  | unclosedComment => rfl

namespace Gap

/-- A character in front of a comment's body belongs to the body, unless the two
marks that close the comment would come together. -/
theorem not_holdsClosingMark_cons {c : Char} {body text : List Char}
    (isBody : ¬ HoldsClosingMark body) (begins : body <+: text)
    (apart : ∀ rest, c = '*' → text = '/' :: rest → False) : ¬ HoldsClosingMark (c :: body) := by
  intro holds
  rcases List.infix_cons_iff.mp holds with atFront | later
  · obtain ⟨behind, bodyEq⟩ := atFront
    obtain ⟨isStar, bodyEq⟩ := List.cons.inj bodyEq
    obtain ⟨tail, textEq⟩ := begins
    refine apart (behind ++ tail) isStar.symm ?_
    rw [← textEq, ← bodyEq]
    rfl
  · exact isBody later

/-- What the rest of a gap is, by where in it one stands: after the mark that
opens a comment, the rest of the comment comes first. -/
def Continues (closed : Bool) (after : List Char) : Mode → List Char → Prop
  | .blank, gap => Filling closed gap after
  | .lineComment, gap =>
    (∃ body more, gap = body ++ '\n' :: more ∧ '\n' ∉ body ∧ Filling closed more after) ∨
      (closed = true ∧ '\n' ∉ gap ∧ after = [])
  | .blockComment, gap =>
    (∃ body more, gap = body ++ '*' :: '/' :: more ∧ ¬ HoldsClosingMark body ∧
        Filling closed more after) ∨
      (closed = false ∧ ¬ HoldsClosingMark gap ∧ after = [])

section

variable {closed : Bool} {c : Char} {gap after : List Char}

theorem Continues.openLineComment (comment : Continues closed after .lineComment gap) :
    Filling closed ('/' :: '/' :: gap) after := by
  rcases comment with ⟨body, more, rfl, oneLine, rest⟩ | ⟨rfl, oneLine, rfl⟩
  · exact .lineComment oneLine rest
  · exact .lastLineComment oneLine

theorem Continues.openBlockComment (comment : Continues closed after .blockComment gap) :
    Filling closed ('/' :: '*' :: gap) after := by
  rcases comment with ⟨body, more, rfl, isBody, rest⟩ | ⟨rfl, isBody, rfl⟩
  · exact .blockComment isBody rest
  · exact .unclosedComment isBody

theorem Continues.consLineComment (inside : c ≠ '\n')
    (comment : Continues closed after .lineComment gap) :
    Continues closed after .lineComment (c :: gap) := by
  rcases comment with ⟨body, more, rfl, oneLine, rest⟩ | ⟨isClosed, oneLine, atEnd⟩
  · exact .inl ⟨c :: body, more, rfl, List.not_mem_cons_of_ne_of_not_mem inside.symm oneLine, rest⟩
  · exact .inr ⟨isClosed, List.not_mem_cons_of_ne_of_not_mem inside.symm oneLine, atEnd⟩

theorem Continues.consBlockComment
    (apart : ∀ rest, c = '*' → gap ++ after = '/' :: rest → False)
    (comment : Continues closed after .blockComment gap) :
    Continues closed after .blockComment (c :: gap) := by
  rcases comment with ⟨body, more, rfl, isBody, rest⟩ | ⟨isOpen, isBody, atEnd⟩
  · refine .inl ⟨c :: body, more, rfl, not_holdsClosingMark_cons isBody ?_ apart, rest⟩
    rw [List.append_assoc]
    exact List.prefix_append ..
  · exact .inr ⟨isOpen, not_holdsClosingMark_cons isBody (List.prefix_append ..) apart, atEnd⟩

end

/-- A measured gap against what it takes off a text and what follows it there. -/
structure Measures (mode : Mode) (gap : Gap) (taken after : List Char) : Prop where
  length_eq : gap.length = taken.length
  lineBreak_iff : gap.lineBreak = true ↔ '\n' ∈ taken
  continues : Continues gap.closed after mode taken

section

variable {mode next : Mode} {gap : Gap} {taken after : List Char}

theorem Measures.prepend (front : List Char) (measures : Measures next gap taken after)
    (noBreak : '\n' ∉ front) (continues : Continues gap.closed after mode (front ++ taken)) :
    Measures mode (gap.prepend front.length) (front ++ taken) after where
  length_eq := by
    rw [List.length_append, ← measures.length_eq]
    exact Nat.add_comm ..
  lineBreak_iff := by
    rw [List.mem_append, or_iff_right noBreak]
    exact measures.lineBreak_iff
  continues := continues

theorem Measures.prependLineBreak (measures : Measures next gap taken after)
    (continues : Continues gap.closed after mode ('\n' :: taken)) :
    Measures mode gap.prependLineBreak ('\n' :: taken) after where
  length_eq := congrArg (· + 1) measures.length_eq
  lineBreak_iff := iff_of_true rfl (List.mem_cons_self ..)
  continues := continues

theorem Measures.prependComment {c : Char} (measures : Measures next gap taken after)
    (continues : Continues gap.closed after mode (c :: taken)) :
    Measures mode (gap.prependComment c) (c :: taken) after := by
  unfold Gap.prependComment
  split
  case isTrue isBreak =>
    subst isBreak
    exact measures.prependLineBreak continues
  case isFalse notBreak =>
    refine measures.prepend [c] ?_ continues
    exact List.not_mem_cons_of_ne_of_not_mem (Ne.symm notBreak) List.not_mem_nil

end

theorem measure_measures (mode : Mode) (text : List Char) :
    ∃ taken after, text = taken ++ after ∧ Measures mode (measure mode text) taken after := by
  fun_induction measure mode text with
  | case1 => exact ⟨[], [], rfl, rfl, by decide, .nil⟩
  | case2 rest induction =>
      obtain ⟨taken, after, rfl, measures⟩ := induction
      exact ⟨_, after, rfl, measures.prepend ['/', '/'] (by decide)
        measures.continues.openLineComment⟩
  | case3 rest induction =>
      obtain ⟨taken, after, rfl, measures⟩ := induction
      exact ⟨_, after, rfl, measures.prepend ['/', '*'] (by decide)
        measures.continues.openBlockComment⟩
  | case4 rest noLine noBlock induction =>
      obtain ⟨taken, after, rfl, measures⟩ := induction
      exact ⟨_, after, rfl, measures.prependLineBreak (.space (by decide) measures.continues)⟩
  | case5 c rest noLine noBlock notBreak isSpace induction =>
      obtain ⟨taken, after, rfl, measures⟩ := induction
      refine ⟨_, after, rfl, measures.prepend [c] ?_ (.space isSpace measures.continues)⟩
      exact List.not_mem_cons_of_ne_of_not_mem (Ne.symm notBreak) List.not_mem_nil
  | case6 c rest noLine noBlock notBreak notSpace =>
      exact ⟨[], c :: rest, rfl, rfl, by decide, .nil⟩
  | case7 => exact ⟨[], [], rfl, rfl, by decide, .inr ⟨rfl, List.not_mem_nil, rfl⟩⟩
  | case8 rest induction =>
      obtain ⟨taken, after, rfl, measures⟩ := induction
      exact ⟨_, after, rfl, measures.prependLineBreak
        (.inl ⟨[], taken, rfl, List.not_mem_nil, measures.continues⟩)⟩
  | case9 c rest notBreak induction =>
      obtain ⟨taken, after, rfl, measures⟩ := induction
      refine ⟨_, after, rfl, measures.prepend [c] ?_
        (measures.continues.consLineComment notBreak)⟩
      exact List.not_mem_cons_of_ne_of_not_mem (Ne.symm notBreak) List.not_mem_nil
  | case10 => exact ⟨[], [], rfl, rfl, by decide, .inr ⟨rfl, by decide, rfl⟩⟩
  | case11 rest induction =>
      obtain ⟨taken, after, rfl, measures⟩ := induction
      exact ⟨_, after, rfl, measures.prepend ['*', '/'] (by decide)
        (.inl ⟨[], taken, rfl, by decide, measures.continues⟩)⟩
  | case12 c rest apart induction =>
      obtain ⟨taken, after, rfl, measures⟩ := induction
      exact ⟨_, after, rfl, measures.prependComment (measures.continues.consBlockComment apart)⟩

theorem ofText_fills (text : List Char) :
    Filling (ofText text).closed (text.take (ofText text).length)
        (text.drop (ofText text).length) ∧
      ((ofText text).lineBreak = true ↔ '\n' ∈ text.take (ofText text).length) := by
  obtain ⟨taken, after, textEq, measures⟩ := measure_measures .blank text
  have length : (ofText text).length = taken.length := measures.length_eq
  have front : text.take (ofText text).length = taken := by
    rw [length, textEq, List.take_left' rfl]
  have behind : text.drop (ofText text).length = after := by
    rw [length, textEq, List.drop_left' rfl]
  rw [front, behind]
  exact ⟨measures.continues, measures.lineBreak_iff⟩

end Gap

end Qml
