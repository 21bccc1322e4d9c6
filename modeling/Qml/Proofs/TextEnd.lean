import Qml.Proofs.Operators

/-! # The end of the text

A parse that has reached the end of the text stays there, and neither a statement
nor an expression begins there. -/

namespace Qml

open Qml.Parser

structure Cursor.AtEnd (cursor : Cursor) : Prop where
  upcoming_eq : cursor.upcoming = []
  isEnd : cursor.current.isEnd = true

theorem Cursor.AtEnd.advance {cursor : Cursor} (atEnd : cursor.AtEnd) : cursor.advance.AtEnd := by
  have isEnd := atEnd.isEnd
  refine ⟨by simp [Cursor.advance, atEnd.upcoming_eq], ?_⟩
  simpa [Cursor.advance, Cursor.peek, atEnd.upcoming_eq, Token.isEnd] using isEnd

def State.KeepsEnd (before after : State) : Prop := before.cursor.AtEnd → after.cursor.AtEnd

instance : Flow (Steps State.KeepsEnd) where
  refl _ := id
  trans one two := two ∘ one
  advance _ atEnd := atEnd.advance
  skipped _ _ := id
  settled _ := id
  visited _ _ _ _ kept := kept
  current _ _ _ held := held ⟨fun _ => id⟩

instance : Patched (Steps State.KeepsEnd) := ⟨fun _ _ => id⟩

instance : Keyed (Steps State.KeepsEnd) := ⟨fun _ => id⟩

namespace Parser

variable {α β : Type}

/-- A parser that does not succeed at the end of the text. -/
class BeginsInside (parser : Parser α) : Prop where
  ne_ok : ∀ {state value after}, state.cursor.AtEnd → parser state ≠ .ok value after

namespace BeginsInside

theorem of_ne_ok {parser : Parser α}
    (fails : ∀ {state value after}, parser state ≠ .ok value after) : BeginsInside parser :=
  ⟨fun _ => fails⟩

instance {first : Parser β} {next : β → Parser α} [kept : Follows State.KeepsEnd first]
    [two : ∀ value, BeginsInside (next value)] : BeginsInside (first >>= next) := by
  constructor
  intro state value after atEnd ok
  obtain ⟨middle, between, firstOk, nextOk⟩ := bind_eq_ok.mp ok
  exact (two middle).ne_ok (kept.of_ok firstOk atEnd) nextOk

instance (priority := high) {first : Parser β} {next : β → Parser α} [one : BeginsInside first] :
    BeginsInside (first >>= next) := by
  constructor
  intro state value after atEnd ok
  obtain ⟨middle, between, firstOk, -⟩ := bind_eq_ok.mp ok
  exact one.ne_ok atEnd firstOk

instance (rule : BrokenRule) : BeginsInside (refuse rule : Parser α) := of_ne_ok refuse_ne_ok

instance (visit : Visit) (parser : Parser α) [begins : BeginsInside parser] :
    BeginsInside (inScope visit parser) := by
  constructor
  intro state value after atEnd ok
  obtain ⟨inner, innerOk, -⟩ := inScope_eq_ok.mp ok
  have entered : ({ state with scope := visit.enter state.scope } : State).cursor.AtEnd := atEnd
  exact begins.ne_ok entered innerOk

instance (mark : Char) : BeginsInside (expectPunctuation mark) := by
  constructor
  intro state found after atEnd ok
  have kind : state.cursor.current.kind = .endOfInput := of_decide_eq_true atEnd.isEnd
  have isMark := (expectPunctuation_eq_ok.mp ok).1
  simp [Token.isPunctuation, kind] at isMark

instance (keyword : Keyword) : BeginsInside (expectKeyword keyword) := by
  constructor
  intro state found after atEnd ok
  have kind : state.cursor.current.kind = .endOfInput := of_decide_eq_true atEnd.isEnd
  have isKeyword := (expectKeyword_eq_ok.mp ok).1
  simp [Token.isKeyword, kind] at isKeyword

end BeginsInside

end Parser

/-! ## Productions -/

class Deeper.BeginsInside (deeper : Deeper) : Prop where
  statement : Parser.BeginsInside deeper.statement
  assignment : ∀ noIn, Parser.BeginsInside (deeper.assignment noIn)

attribute [instance] Deeper.BeginsInside.statement Deeper.BeginsInside.assignment

namespace Grammar

variable (grammar : Grammar)

instance (noIn : Bool) : BeginsInside (grammar.assignment noIn) := by
  constructor
  intro state value after atEnd ok
  have notEnd := (assignment_firstToken ok).1
  rw [atEnd.isEnd] at notEnd
  cases notEnd

instance : BeginsInside grammar.anyStatement := by
  constructor
  intro state value after atEnd ok
  have kind : state.cursor.current.kind = .endOfInput := of_decide_eq_true atEnd.isEnd
  simp only [anyStatement, run_token, kind] at ok
  exact unexpected_ne_ok ok

instance (otherwise : Parser Statement) [begins : BeginsInside otherwise] :
    BeginsInside (pragmaOr otherwise) := by
  constructor
  intro state value after atEnd ok
  have kind : state.cursor.current.kind = .endOfInput := of_decide_eq_true atEnd.isEnd
  have notDot : state.cursor.current.isPunctuation '.' = false := by
    simp [Token.isPunctuation, kind]
  simp only [pragmaOr, run_atPunctuation, notDot, Bool.false_eq_true, if_false] at ok
  exact begins.ne_ok atEnd ok

variable [grammar.deeper.BeginsInside]

instance (noIn : Bool) : BeginsInside (grammar.sequenceItem noIn) :=
  inferInstanceAs (BeginsInside (token >>= fun _ => grammar.deeper.assignment noIn >>= fun _ => _))

instance (commas noIn : Bool) : BeginsInside (grammar.expression commas noIn) := by
  unfold expression; infer_instance

instance : BeginsInside grammar.statement := by
  unfold statement
  split <;> infer_instance

end Grammar

instance Deeper.within_beginsInside (setting : Setting) (room : Nat) :
    (Deeper.within setting room).BeginsInside := by
  cases room with
  | zero =>
      exact ⟨inferInstanceAs (Parser.BeginsInside (refuse _)),
        fun _ => inferInstanceAs (Parser.BeginsInside (refuse _))⟩
  | succ room =>
      exact ⟨inferInstanceAs (Parser.BeginsInside (inScope _ (Grammar.anyStatement _))),
        fun _ => inferInstanceAs (Parser.BeginsInside (inScope _ (Grammar.assignment _ _)))⟩

end Qml
