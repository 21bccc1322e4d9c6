import Qml.Proofs.Parser.Path
import Qml.Proofs.Reading
import Qml.Proofs.Token.Relexing

/-! # Texts of words

Texts that are written word by word, with a blank behind each word. Their tokens
are the words, so such a text can be as long as one likes and its tokens are still
known. -/

namespace Qml

open Qml.Parser

def Text.isPlain (c : Char) : Bool := !isForeignLineBreak c && c != byteOrderMark

/-- A word that is one token wherever it stands before a blank. -/
structure Word where
  text : List Char
  kind : TokenKind
  inside : kind ≠ .endOfInput
  plain : text.all Text.isPlain = true
  noGap : ∀ rest, Gap.ofText (text ++ ' ' :: rest) = .empty
  lexeme_eq : ∀ regexpAllowed rest,
    Lexer.lexeme regexpAllowed (text ++ ' ' :: rest) = ⟨kind, text.length⟩

namespace Word

def mark (mark : Char) (isMark : mark ∈ Lexer.marks := by decide) : Word where
  text := [mark]
  kind := .punctuation mark
  inside := nofun
  plain := by
    simp only [Lexer.marks, List.mem_cons, List.not_mem_nil, or_false] at isMark
    rcases isMark with rfl | rfl | rfl | rfl | rfl | rfl | rfl | rfl | rfl | rfl <;> rfl
  noGap rest := by
    simp only [Lexer.marks, List.mem_cons, List.not_mem_nil, or_false] at isMark
    rcases isMark with rfl | rfl | rfl | rfl | rfl | rfl | rfl | rfl | rfl | rfl <;> rfl
  lexeme_eq regexpAllowed rest := by
    simp only [Lexer.marks, List.mem_cons, List.not_mem_nil, or_false] at isMark
    rcases isMark with rfl | rfl | rfl | rfl | rfl | rfl | rfl | rfl | rfl | rfl <;> rfl

def add : Word := ⟨['+'], .operator .add, nofun, rfl, fun _ => rfl, fun _ _ => rfl⟩

def a : Word := ⟨['a'], .name "a", nofun, rfl, fun _ => rfl, fun _ _ => rfl⟩

def typeA : Word := ⟨['A'], .name "A", nofun, rfl, fun _ => rfl, fun _ _ => rfl⟩

def propertyWord : Word :=
  ⟨"property".toList, .name "property", nofun, rfl, fun _ => rfl, fun _ _ => rfl⟩

def aliasWord : Word :=
  ⟨"alias".toList, .name "alias", nofun, rfl, fun _ => rfl, fun _ _ => rfl⟩

@[simp] theorem kind_mark (sign : Char) (isMark : sign ∈ Lexer.marks) :
    (mark sign isMark).kind = .punctuation sign := rfl

@[simp] theorem kind_a : a.kind = .name "a" := rfl

@[simp] theorem kind_typeA : typeA.kind = .name "A" := rfl

@[simp] theorem kind_propertyWord : propertyWord.kind = .name "property" := rfl

@[simp] theorem kind_aliasWord : aliasWord.kind = .name "alias" := rfl

end Word

def spaced (words : List Word) : List Char :=
  words.flatMap fun word => word.text ++ [' ']

theorem spaced_cons (word : Word) (words : List Word) :
    spaced (word :: words) = word.text ++ ' ' :: spaced words := by
  simp [spaced]

/-! ## Their tokens -/

namespace Lexer

theorem next_word (word : Word) {lexer : Lexer} {rest : List Char}
    (restEq : lexer.rest = word.text ++ ' ' :: rest) :
    lexer.next.1.kind = word.kind ∧ lexer.next.2.rest = ' ' :: rest := by
  have noGap : Gap.ofText lexer.rest = .empty := by
    rw [restEq]
    exact word.noGap rest
  have found : lexeme lexer.regexpAllowed lexer.rest = ⟨word.kind, word.text.length⟩ := by
    rw [restEq]
    exact word.lexeme_eq _ _
  obtain ⟨kind, -, after, -⟩ := next_of_empty noGap found word.inside
  refine ⟨kind, ?_⟩
  rw [after, restEq]
  exact List.drop_left

theorem takeToEnd_spaced {words : List Word} {lexer : Lexer} {bound : Nat}
    (restEq : lexer.rest = spaced words ∨ lexer.rest = ' ' :: spaced words)
    (enough : words.length < bound) :
    (lexer.takeToEnd bound).map Token.kind = words.map Word.kind ++ [.endOfInput] := by
  obtain ⟨bound, rfl⟩ : ∃ fewer, bound = fewer + 1 := ⟨bound - 1, by omega⟩
  obtain ⟨here, hereEq, nextEq⟩ : ∃ here : Lexer, here.rest = spaced words ∧
      lexer.next = here.next := by
    rcases restEq with same | blank
    · exact ⟨lexer, same, rfl⟩
    · exact ⟨_, rfl, next_space blank⟩
  induction words generalizing lexer bound here with
  | nil =>
      have kind := next_nil (show here.rest = [] from hereEq)
      rw [← nextEq] at kind
      have atEnd : lexer.next.1.isEnd = true := by simp [Token.isEnd, kind]
      simp [takeToEnd_of_isEnd bound atEnd, kind]
  | cons word words induction =>
      rw [spaced_cons] at hereEq
      obtain ⟨kind, after⟩ := next_word word hereEq
      rw [← nextEq] at kind after
      have notEnd : lexer.next.1.isEnd = false := by simp [Token.isEnd, kind, word.inside]
      rw [List.length_cons] at enough
      obtain ⟨bound, rfl⟩ : ∃ fewer, bound = fewer + 1 := ⟨bound - 1, by omega⟩
      have later := induction (.inr after) _ (Nat.lt_of_succ_lt_succ enough) _ rfl
        (next_space after)
      simpa [takeToEnd, notEnd, kind] using later

end Lexer

theorem length_le_spaced (words : List Word) : words.length ≤ (spaced words).length := by
  induction words with
  | nil => exact Nat.le_refl 0
  | cons word words induction =>
      rw [spaced_cons]
      simp only [List.length_cons, List.length_append]
      omega

theorem tokens_spaced (words : List Word) :
    (tokens (spaced words)).map Token.kind = words.map Word.kind ++ [.endOfInput] :=
  Lexer.takeToEnd_spaced (.inl rfl) (Nat.lt_succ_of_le (length_le_spaced words))

/-! ## In normal form -/

theorem Text.unifyLineBreaks_of_plain {text : List Char} (plain : text.all isPlain = true) :
    unifyLineBreaks text = text := by
  fun_induction unifyLineBreaks text with
  | case1 => rfl
  | case2 rest induction => simp [isPlain, isForeignLineBreak] at plain
  | case3 c rest _ induction =>
      simp only [List.all_cons, isPlain, Bool.and_eq_true, Bool.not_eq_true'] at plain
      obtain ⟨⟨first, -⟩, later⟩ := plain
      rw [induction later, first]
      rfl

theorem normalize_spaced (words : List Word) :
    (Text.normalize (String.ofList (spaced words))).toList = spaced words := by
  have plain : (spaced words).all Text.isPlain = true := by
    refine List.all_eq_true.mpr fun c member => ?_
    obtain ⟨word, -, among⟩ := List.mem_flatMap.mp member
    rcases List.mem_append.mp among with inside | blank
    · exact List.all_eq_true.mp word.plain c inside
    · rw [List.mem_singleton.mp blank]
      rfl
  have marked : Text.dropByteOrderMark (spaced words) = spaced words := by
    cases text : spaced words with
    | nil => rfl
    | cons c rest =>
        rw [text, List.all_cons, Text.isPlain] at plain
        simp only [Bool.and_eq_true, bne_iff_ne] at plain
        exact if_neg plain.1.2
  rw [Text.normalize, String.toList_ofList, String.toList_ofList, marked,
    Text.unifyLineBreaks_of_plain plain]

/-! ## Reading them -/

/-- The kinds of the tokens from the current one on. -/
def State.Faces (state : State) (kinds : List TokenKind) : Prop :=
  state.cursor.remaining.map Token.kind = kinds

namespace State.Faces

variable {state : State} {kind next : TokenKind} {rest : List TokenKind}

theorem ofText (words : List Word) :
    (State.ofText (spaced words)).Faces (words.map Word.kind ++ [.endOfInput]) := by
  unfold Faces
  rw [← tokens_spaced]
  exact congrArg (List.map Token.kind) (Cursor.remaining_ofText _)

theorem kind_eq (faces : state.Faces (kind :: rest)) : state.cursor.current.kind = kind :=
  (List.cons.inj faces).1

theorem upcoming_eq (faces : state.Faces (kind :: rest)) :
    state.cursor.upcoming.map Token.kind = rest :=
  (List.cons.inj faces).2

theorem peek_kind (faces : state.Faces (kind :: next :: rest)) :
    state.cursor.peek.kind = next := by
  obtain ⟨token, more, upcoming, isNext, -⟩ := List.map_eq_cons_iff.mp faces.upcoming_eq
  simp [Cursor.peek, upcoming, isNext]

theorem advanced (faces : state.Faces (kind :: next :: rest)) :
    state.advanced.Faces (next :: rest) := by
  obtain ⟨token, more, upcoming, isNext, later⟩ := List.map_eq_cons_iff.mp faces.upcoming_eq
  simp [Faces, Cursor.remaining, Cursor.advance, Cursor.peek, upcoming, isNext, later]

theorem advanced_append {front back : List TokenKind}
    (faces : state.Faces (kind :: (front ++ next :: back))) :
    state.advanced.Faces (front ++ next :: back) := by
  cases front with
  | nil => exact faces.advanced
  | cons first front => exact faces.advanced

theorem ahead_eq (faces : state.Faces (kind :: rest)) : state.ahead = rest.length := by
  rw [← faces.upcoming_eq, List.length_map]
  rfl

theorem isPunctuation_eq (faces : state.Faces (kind :: rest)) (mark : Char) :
    state.cursor.current.isPunctuation mark = decide (kind = .punctuation mark) := by
  simp [Token.isPunctuation, faces.kind_eq]

end State.Faces

/-- In the given state a parser succeeds with a value as described, and the tokens
from there on are the given ones. -/
def Parser.Reaches {α : Type} (parser : Parser α) (state : State) (rest : List TokenKind)
    (described : α → Prop) : Prop :=
  ∃ value after, parser state = .ok value after ∧ after.Faces rest ∧ described value

namespace Parser.Reaches

variable {α β : Type} {state : State} {kind next : TokenKind} {rest later : List TokenKind}
  {described : α → Prop} {expected : β → Prop}

theorem pure {value : α} (faces : state.Faces rest) (holds : described value) :
    Reaches (pure value : Parser α) state rest described :=
  ⟨value, state, rfl, faces, holds⟩

theorem bind {first : Parser α} {andThen : α → Parser β}
    (one : Reaches first state rest described)
    (two : ∀ value after, described value → after.Faces rest →
      Reaches (andThen value) after later expected) :
    Reaches (first >>= andThen) state later expected := by
  obtain ⟨value, between, firstOk, there, holds⟩ := one
  obtain ⟨result, after, secondOk, behind, answer⟩ := two value between holds there
  exact ⟨result, after, bind_eq_ok.mpr ⟨value, between, firstOk, secondOk⟩, behind, answer⟩

theorem inScope {visit : Visit} {parser : Parser α}
    (one : Reaches parser { state with scope := visit.enter state.scope } rest described) :
    Reaches (inScope visit parser) state rest described := by
  obtain ⟨value, after, ok, faces, holds⟩ := one
  exact ⟨value, _, inScope_eq_ok.mpr ⟨after, ok, rfl⟩, faces, holds⟩

theorem expectPunctuation {mark : Char} (faces : state.Faces (.punctuation mark :: next :: rest)) :
    Reaches (expectPunctuation mark) state (next :: rest) fun _ => True := by
  refine ⟨_, _, expectPunctuation_eq_ok.mpr ⟨?_, rfl, rfl⟩, faces.advanced, trivial⟩
  simp [faces.isPunctuation_eq]

theorem collect_nil {step : Parser (Option α)} (none : step state = .ok none state)
    (faces : state.Faces rest) : Reaches (collect step) state rest (· = []) :=
  ⟨[], state, collect_of_none none, faces, rfl⟩

end Parser.Reaches

end Qml
