import Qml.Proofs.Flow

/-! # Progress

No production goes back to a token that has been consumed, and those that stand
for something in the text consume at least one token. Each round of a repetition
that yields a value therefore leaves fewer tokens ahead, unless the end of the
text was reached before. -/

namespace Qml

open Qml.Parser

def State.ahead (state : State) : Nat := state.cursor.upcoming.length

@[simp] theorem State.advanced_ahead (state : State) : state.advanced.ahead = state.ahead - 1 :=
  List.length_tail

def State.Onward (before after : State) : Prop := after.ahead ≤ before.ahead

instance : Flow (Steps State.Onward) where
  refl _ := Nat.le_refl _
  trans one two := Nat.le_trans two one
  advance state := by simp [Steps, State.Onward]
  skipped _ _ := Nat.le_refl _
  settled _ := Nat.le_refl _
  visited _ _ _ _ onward := onward
  current _ _ _ held := held ⟨fun _ => Nat.le_refl _⟩

instance : Patched (Steps State.Onward) := ⟨fun _ _ => Nat.le_refl _⟩

instance : Keyed (Steps State.Onward) := ⟨fun _ => Nat.le_refl _⟩

namespace Parser

variable {α β : Type}

/-- A parser whose results, as far as they count, stand for at least one token.
At the end of the text the end itself may be consumed any number of times. -/
class Consumes (counts : α → Prop) (parser : Parser α) : Prop where
  ahead_le : ∀ {state value after}, parser state = .ok value after → counts value →
    after.ahead ≤ state.ahead - 1

def Always (_ : α) : Prop := True

/-- The results that count are those of rounds that do not end a repetition. -/
def Continues (result : Option α) : Prop := result ≠ none

namespace Consumes

variable {counts : α → Prop}

theorem of_ne_ok {parser : Parser α}
    (fails : ∀ {state value after}, parser state ≠ .ok value after) :
    Consumes counts parser :=
  ⟨fun ok => absurd ok fails⟩

theorem bind_first {first : Parser β} {next : β → Parser α} (one : Consumes Always first)
    (two : ∀ value, Follows State.Onward (next value)) : Consumes counts (first >>= next) := by
  constructor
  intro state value after ok counted
  obtain ⟨middle, between, firstOk, nextOk⟩ := bind_eq_ok.mp ok
  exact Nat.le_trans ((two middle).of_ok nextOk) (one.ahead_le firstOk trivial)

theorem bind_later {first : Parser β} {next : β → Parser α} (one : Follows State.Onward first)
    (two : ∀ value, Consumes counts (next value)) : Consumes counts (first >>= next) := by
  constructor
  intro state value after ok counted
  obtain ⟨middle, between, firstOk, nextOk⟩ := bind_eq_ok.mp ok
  have onward : between.ahead ≤ state.ahead := one.of_ok firstOk
  have consumed := (two middle).ahead_le nextOk counted
  omega

instance {first : Parser β} {next : β → Parser α} [one : Follows State.Onward first]
    [two : ∀ value, Consumes counts (next value)] : Consumes counts (first >>= next) :=
  bind_later one two

instance (priority := high) {first : Parser β} {next : β → Parser α}
    [one : Consumes Always first] [two : ∀ value, Follows State.Onward (next value)] :
    Consumes counts (first >>= next) :=
  bind_first one two

instance {condition : Prop} [Decidable condition] {left right : Parser α} [Consumes counts left]
    [Consumes counts right] : Consumes counts (if condition then left else right) := by
  split <;> infer_instance

instance : Consumes Continues (pure none : Parser (Option α)) := by
  constructor
  intro state value after ok counted
  cases ok
  exact absurd rfl counted

/-! ## Steps -/

instance : Consumes Always advance := by
  constructor
  intro state found after ok _
  cases ok
  exact Nat.le_of_eq state.advanced_ahead

instance : Consumes counts (unexpected : Parser α) := of_ne_ok unexpected_ne_ok

instance (what : String) : Consumes counts (expected what : Parser α) := of_ne_ok expected_ne_ok

instance (rule : BrokenRule) : Consumes counts (refuse rule : Parser α) := of_ne_ok refuse_ne_ok

instance (mark : Char) : Consumes Always (expectPunctuation mark) := by
  unfold expectPunctuation; infer_instance

instance : Consumes Always expectWord := by
  refine bind_later inferInstance fun found => ?_
  split <;> infer_instance

instance (place : Span) : Consumes Always (skipToken place) := by
  constructor
  intro state value after ok _
  have consumed := (skipToken_eq_ok ok).1
  unfold State.ahead
  rw [consumed]
  exact Nat.le_of_eq state.advanced_ahead

instance (visit : Visit) (parser : Parser α) [consumes : Consumes counts parser] :
    Consumes counts (inScope visit parser) := by
  constructor
  intro state value after ok counted
  obtain ⟨inner, innerOk, rfl⟩ := inScope_eq_ok.mp ok
  have consumed := consumes.ahead_le innerOk counted
  exact consumed

instance (closing : Char) (trailing : Bool) (item : Parser α) [Follows State.Onward item] :
    Consumes Continues (listItem closing trailing item) := by
  unfold listItem; infer_instance

end Consumes

end Parser

/-! ## Productions -/

class Deeper.Consumes (deeper : Deeper) : Prop where
  statement : Parser.Consumes Always deeper.statement
  assignment : ∀ noIn, Parser.Consumes Always (deeper.assignment noIn)
  unary : ∀ calls, Parser.Consumes Always (deeper.unary calls)
  atom : ∀ calls, Parser.Consumes Always (deeper.atom calls)

attribute [instance] Deeper.Consumes.statement Deeper.Consumes.assignment
  Deeper.Consumes.unary Deeper.Consumes.atom

namespace Grammar

-- As for what every step respects, one search goes through a whole production.
set_option synthInstance.maxSize 512

variable (grammar : Grammar) [grammar.deeper.Follows State.Onward] [grammar.deeper.Consumes]

instance {α : Type} (parser : Parser α) [Consumes Always parser] :
    Consumes Always (grammar.capture parser) := by
  unfold capture; infer_instance

instance : Consumes Always pragma := by unfold pragma; infer_instance

instance (otherwise : Parser Statement) [Consumes Always otherwise] :
    Consumes Always (pragmaOr otherwise) := by
  unfold pragmaOr; infer_instance

instance : Consumes Always grammar.statement := by
  unfold statement
  split <;> infer_instance

instance : Consumes Continues grammar.blockItem := by unfold blockItem; infer_instance

instance : Consumes Always grammar.block := by unfold block; infer_instance

/-! ## Expressions -/

instance : Consumes Always grammar.bareAtom := by
  refine Consumes.bind_later inferInstance fun current => ?_
  split
  · infer_instance
  · infer_instance
  · infer_instance
  · infer_instance
  · infer_instance
  · split <;> infer_instance

instance (calls : Bool) : Consumes Always (grammar.atom calls) := by unfold atom; infer_instance

instance (calls : Bool) : Consumes Always (grammar.stepped calls) := by
  unfold stepped; infer_instance

instance (calls : Bool) : Consumes Always (grammar.unary calls) := by
  refine Consumes.bind_later inferInstance fun current => ?_
  split <;> infer_instance

instance (noIn : Bool) : Consumes Always (grammar.operation noIn) := by
  unfold operation; infer_instance

instance (noIn : Bool) : Consumes Always (grammar.conditional noIn) := by
  unfold conditional; infer_instance

instance (noIn : Bool) : Consumes Always (grammar.assignment noIn) := by
  refine Consumes.bind_later inferInstance fun start =>
    Consumes.bind_first inferInstance fun left =>
      Obeys.bind inferInstance fun found => ?_
  split <;> infer_instance

instance (noIn : Bool) : Consumes Always (grammar.sequenceItem noIn) := by
  refine Consumes.bind_later inferInstance fun start =>
    Consumes.bind_first inferInstance fun expr => ?_
  split <;> infer_instance

instance (commas noIn : Bool) : Consumes Always (grammar.expression commas noIn) := by
  unfold expression; infer_instance

/-! ## Statements -/

instance : Consumes Always grammar.simpleStatement := by unfold simpleStatement; infer_instance

instance : Consumes Always grammar.anyStatement := by
  refine Consumes.bind_later inferInstance fun start => ?_
  split <;> infer_instance

instance : Consumes Continues grammar.caseItem := by unfold caseItem; infer_instance

instance : Consumes Continues grammar.caseLabel := by unfold caseLabel; infer_instance

instance : Consumes Continues grammar.scriptItem := by unfold scriptItem; infer_instance

instance : Consumes Continues grammar.switchCase := by
  constructor
  intro state value after ok counted
  obtain ⟨label, between, labelOk, ok⟩ := bind_eq_ok.mp ok
  cases label with
  | none =>
      cases ok
      exact absurd rfl counted
  | some test =>
      have onward : State.Onward between after := Follows.of_ok inferInstance ok
      have consumes : Consumes Continues grammar.caseLabel := inferInstance
      have consumed := consumes.ahead_le labelOk nofun
      exact Nat.le_trans onward consumed

/-! ## Rounds of expressions -/

instance (noIn : Bool) : Consumes Continues (grammar.sequenceStep noIn) := by
  unfold sequenceStep; infer_instance

instance (noIn : Bool) : Consumes Continues (grammar.declaratorStep noIn) := by
  unfold declaratorStep; infer_instance

instance (calls : Bool) (expr : Expr) : Consumes Continues (grammar.subscript calls expr) := by
  refine Consumes.bind_later inferInstance fun atDot => ?_
  split <;> infer_instance

instance (expr : Expr) : Consumes Continues (stepAfter expr) := by
  refine Consumes.bind_later inferInstance fun current => ?_
  split <;> infer_instance

instance (noIn : Bool) (least : Nat) (tighter : Nat → Expr → Parser Expr) (left : Expr)
    [∀ precedence operand, Follows State.Onward (tighter precedence operand)] :
    Consumes Continues (grammar.operatorRound noIn least tighter left) := by
  refine Consumes.bind_later inferInstance fun found => ?_
  split <;> infer_instance

/-! ## Members -/

instance : Consumes Continues dottedWord := by unfold dottedWord; infer_instance

instance {α : Type} {counts : α → Prop} : Consumes counts (unbalancedPath : Parser α) :=
  Consumes.of_ne_ok fail_ne_ok

instance (progress : AliasProgress) : Consumes Continues (aliasStep progress) := by
  refine Consumes.bind_later inferInstance fun current => ?_
  split
  · split <;> infer_instance
  · split
    · infer_instance
    · split
      · infer_instance
      · split
        · split <;> infer_instance
        · infer_instance

instance : Consumes Always qualifiedName := by unfold qualifiedName; infer_instance

instance : Consumes Continues importItem := by unfold importItem; infer_instance

instance : Consumes Always grammar.method := by unfold method; infer_instance

instance (stringKeys : Bool) (start : Span) :
    Consumes Always (grammar.pathMember stringKeys start) := by
  unfold pathMember; infer_instance

instance (stringKeys : Bool) (name : String) (start : Span) :
    Consumes Always (grammar.namedMember stringKeys name start) := by
  unfold namedMember; infer_instance

instance (key : String) (start : Span) : Consumes Always (grammar.keyedMember key start) := by
  unfold keyedMember; infer_instance

instance (start : Span) : Consumes Always (grammar.defaultMember start) := by
  unfold defaultMember; infer_instance

instance (first stringKeys : Bool) (start : Span) :
    Consumes Always (grammar.memberByToken first stringKeys start) := by
  refine Consumes.bind_later inferInstance fun current => ?_
  split <;> infer_instance

instance (first : Bool) (start : Span) :
    Consumes Always (grammar.memberAfterComma first start) := by
  unfold memberAfterComma; infer_instance

instance (first : Bool) : Consumes Always (grammar.member first) := by
  unfold member; infer_instance

instance (first : Bool) : Consumes Continues (grammar.memberRound first) := by
  unfold memberRound; infer_instance

end Grammar

/-! ## Nesting -/

instance Deeper.within_consumes (setting : Setting) (room : Nat) :
    (Deeper.within setting room).Consumes := by
  induction room with
  | zero =>
      exact ⟨inferInstanceAs (Parser.Consumes Always (refuse _)),
        fun _ => inferInstanceAs (Parser.Consumes Always (refuse _)),
        fun _ => inferInstanceAs (Parser.Consumes Always (refuse _)),
        fun _ => inferInstanceAs (Parser.Consumes Always (refuse _))⟩
  | succ room induction =>
      have level : (Grammar.deeper ⟨setting, within setting room⟩).Consumes := induction
      have onward : (Grammar.deeper ⟨setting, within setting room⟩).Follows State.Onward :=
        within_obeys setting room
      exact ⟨inferInstanceAs (Parser.Consumes Always (inScope _ (Grammar.anyStatement _))),
        fun _ => inferInstanceAs (Parser.Consumes Always (inScope _ (Grammar.assignment _ _))),
        fun _ => inferInstanceAs (Parser.Consumes Always (inScope _ (Grammar.unary _ _))),
        fun _ => inferInstanceAs (Parser.Consumes Always (inScope _ (Grammar.atom _ _)))⟩

end Qml
