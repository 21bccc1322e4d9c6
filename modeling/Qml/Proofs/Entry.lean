import Qml.Proofs.Flow

/-! # What comes before a construct

A construct that begins with its own token is read as the same thing wherever the
token before it ends, and whether or not a line break comes first: its productions
look at what the first token is and where it lies, and consume it before they look
at a line break or at where a token ended. -/

namespace Qml

open Qml.Parser

def State.enteredAfter (state : State) (afterLineBreak : Bool) (previousEnd : Nat) : State :=
  { state with
    cursor := ⟨{ state.cursor.current with afterLineBreak }, state.cursor.upcoming, previousEnd⟩ }

theorem State.enteredAfter_enteredAfter (state : State) (afterLineBreak lineBreak : Bool)
    (previousEnd last : Nat) :
    (state.enteredAfter afterLineBreak previousEnd).enteredAfter lineBreak last =
      state.enteredAfter lineBreak last := rfl

/-- What comes before a token no longer matters once the token is consumed. -/
theorem State.enteredAfter_advanced (state : State) (afterLineBreak : Bool) (previousEnd : Nat) :
    (state.enteredAfter afterLineBreak previousEnd).advanced = state.advanced := by
  simp only [enteredAfter, advanced, Cursor.advance, Cursor.peek]

namespace Parser

variable {α β : Type}

/-- A parser that succeeds alike whatever comes before its first token. -/
class Enters (parser : Parser α) : Prop where
  ok : ∀ {state value after}, parser state = .ok value after →
    ∀ lineBreak previousEnd, parser (state.enteredAfter lineBreak previousEnd) = .ok value after

def IgnoresLineBreak (next : Token → Parser α) : Prop :=
  ∀ found lineBreak, next { found with afterLineBreak := lineBreak } = next found

namespace Enters

/-- What comes before the first token can be put back. -/
theorem ok_of_enteredAfter {parser : Parser α} [enters : Enters parser] {state after : State}
    {value : α} {lineBreak : Bool} {previousEnd : Nat}
    (ok : parser (state.enteredAfter lineBreak previousEnd) = .ok value after) :
    parser state = .ok value after := by
  have back := enters.ok ok state.cursor.current.afterLineBreak state.cursor.previousEnd
  rwa [State.enteredAfter_enteredAfter] at back

theorem of_ne_ok {parser : Parser α}
    (fails : ∀ {state value after}, parser state ≠ .ok value after) : Enters parser :=
  ⟨fun ok => absurd ok fails⟩

instance {first : Parser β} {next : β → Parser α} [one : Enters first] :
    Enters (first >>= next) := by
  constructor
  intro state value after ok lineBreak previousEnd
  obtain ⟨middle, between, firstOk, nextOk⟩ := bind_eq_ok.mp ok
  exact bind_eq_ok.mpr ⟨middle, between, one.ok firstOk lineBreak previousEnd, nextOk⟩

instance {condition : Prop} [Decidable condition] {left right : Parser α} [Enters left]
    [Enters right] : Enters (if condition then left else right) := by
  split <;> infer_instance

/-! ## Steps -/

theorem bind_token {next : Token → Parser α} (ignores : IgnoresLineBreak next)
    (two : ∀ found, Enters (next found)) : Enters (token >>= next) := by
  constructor
  intro state value after ok lineBreak previousEnd
  have entered := (two state.cursor.current).ok ok lineBreak previousEnd
  rwa [← ignores _ lineBreak] at entered

theorem bind_advance {next : Token → Parser α} (ignores : IgnoresLineBreak next) :
    Enters (advance >>= next) := by
  constructor
  intro state value after ok lineBreak previousEnd
  rw [run_advance, State.enteredAfter_advanced]
  exact (congrFun (ignores _ lineBreak) _).trans ok

instance {next : Parser α} : Enters (advance >>= fun _ => next) := bind_advance fun _ _ => rfl

instance {next : Token → Parser α} [two : ∀ found, Enters (next found)] :
    Enters (peek >>= next) :=
  ⟨fun ok => (two _).ok ok⟩

instance {next : Bool → Parser α} [two : ∀ awaited, Enters (next awaited)] :
    Enters (takeAwaited >>= next) :=
  ⟨fun ok => (two _).ok ok⟩

instance (mark : Char) {next : Bool → Parser α} [two : ∀ found, Enters (next found)] :
    Enters (atPunctuation mark >>= next) :=
  ⟨fun ok => (two _).ok ok⟩

instance : Enters (unexpected : Parser α) := of_ne_ok unexpected_ne_ok

instance (rule : BrokenRule) : Enters (refuse rule : Parser α) := of_ne_ok refuse_ne_ok

instance (mark : Char) {next : Parser α} : Enters (expectPunctuation mark >>= fun _ => next) := by
  constructor
  intro state value after ok lineBreak previousEnd
  obtain ⟨found, between, expected, nextOk⟩ := bind_eq_ok.mp ok
  obtain ⟨isMark, -, rfl⟩ := expectPunctuation_eq_ok.mp expected
  have advanced := state.enteredAfter_advanced lineBreak previousEnd
  exact bind_eq_ok.mpr ⟨_, _, expectPunctuation_eq_ok.mpr ⟨isMark, rfl, advanced⟩, nextOk⟩

instance (visit : Visit) (parser : Parser α) [enters : Enters parser] :
    Enters (inScope visit parser) := by
  constructor
  intro state value after ok lineBreak previousEnd
  obtain ⟨inner, innerOk, rfl⟩ := inScope_eq_ok.mp ok
  exact inScope_eq_ok.mpr ⟨inner, enters.ok innerOk lineBreak previousEnd, rfl⟩

end Enters

end Parser

/-! ## Productions -/

class Deeper.Enters (deeper : Deeper) : Prop where
  statement : Parser.Enters deeper.statement
  assignment : ∀ noIn, Parser.Enters (deeper.assignment noIn)

attribute [instance] Deeper.Enters.statement Deeper.Enters.assignment

namespace Grammar

variable (grammar : Grammar)

instance : Enters grammar.bareAtom := by
  refine Enters.bind_token (fun _ _ => rfl) fun current => ?_
  split
  case h_6 => split <;> infer_instance
  all_goals infer_instance

instance (calls : Bool) : Enters (grammar.atom calls) := by unfold atom; infer_instance

instance (calls : Bool) : Enters (grammar.stepped calls) := by unfold stepped; infer_instance

instance (calls : Bool) : Enters (grammar.unary calls) := by
  refine Enters.bind_token (fun _ _ => rfl) fun current => ?_
  split <;> infer_instance

instance (noIn : Bool) : Enters (grammar.operation noIn) := by unfold operation; infer_instance

instance (noIn : Bool) : Enters (grammar.conditional noIn) := by
  unfold conditional; infer_instance

instance (noIn : Bool) : Enters (grammar.assignment noIn) :=
  Enters.bind_token (fun _ _ => rfl) fun _ => inferInstance

instance : Enters grammar.block := by unfold block; infer_instance

instance : Enters pragma := Enters.bind_advance fun _ _ => rfl

instance (otherwise : Parser Statement) [Enters otherwise] : Enters (pragmaOr otherwise) := by
  unfold pragmaOr; infer_instance

section

variable [grammar.deeper.Enters]

instance (noIn : Bool) : Enters (grammar.sequenceItem noIn) :=
  Enters.bind_token (fun _ _ => rfl) fun _ => inferInstance

instance (commas noIn : Bool) : Enters (grammar.expression commas noIn) := by
  unfold expression; infer_instance

instance : Enters grammar.simpleStatement :=
  Enters.bind_token (fun _ _ => rfl) fun _ => inferInstance

instance : Enters grammar.anyStatement := by
  refine Enters.bind_token (fun _ _ => rfl) fun start => ?_
  split <;> infer_instance

instance : Enters grammar.statement := by
  unfold statement
  split <;> infer_instance

end

end Grammar

instance Deeper.within_enters (setting : Setting) (room : Nat) :
    (Deeper.within setting room).Enters := by
  induction room with
  | zero =>
      exact ⟨inferInstanceAs (Parser.Enters (refuse _)),
        fun _ => inferInstanceAs (Parser.Enters (refuse _))⟩
  | succ room induction =>
      have level : (Grammar.deeper ⟨setting, within setting room⟩).Enters := induction
      exact ⟨inferInstanceAs (Parser.Enters (inScope _ (Grammar.anyStatement _))),
        fun _ => inferInstanceAs (Parser.Enters (inScope _ (Grammar.assignment _ _)))⟩

end Qml
