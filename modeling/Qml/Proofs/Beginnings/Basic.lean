import Qml.Proofs.Nodes.Formed
import Qml.Proofs.Walks

/-! # Where members begin

A member has a span, which should begin where its own first token does. In a block
whose keys are strings the members after the first begin with the comma before them
instead, and so it is in the blocks inside it. A node is begun if this is all that is
amiss with the members in it. Whether string keys are in force around it decides what
may be amiss, and the state in which a production begins tells whether they are. -/

namespace Qml

open Qml.Parser

/-! ## Members -/

def Declaration.span : Declaration → Span
  | .property inner => inner.span
  | .aliased inner => inner.span

def Member.span : Member → Span
  | .element inner => inner.span
  | .group _ _ span => span
  | .declaration inner | .defaultDeclaration inner => inner.span
  | .signal inner => inner.span
  | .method _ inner _ => inner.span
  | .binding _ _ span => span

def QualifiedName.BeginsWith (name : QualifiedName) (kind : TokenKind) : Prop :=
  ∃ word more, name.segments = word :: more ∧ kind = .name word

/-- A token of some kind is the first of a member: its key, the first name of its path,
or the word that introduces it. -/
def Member.BeginsWith (kind : TokenKind) : Member → Prop
  | .element inner => inner.typeName.BeginsWith kind
  | .group path _ _ => path.BeginsWith kind
  | .declaration inner => kind = .name (if inner.isReadonly then "readonly" else "property")
  | .defaultDeclaration _ => kind = .keyword .default
  | .signal _ => kind = .name "signal"
  | .method _ _ _ => kind = .keyword .function
  | .binding path _ _ =>
    path.BeginsWith kind ∨ ∃ key, path.segments = [key] ∧ kind = .string key

theorem Member.not_beginsWith_end (member : Member) : ¬ member.BeginsWith .endOfInput := by
  cases member <;> simp [BeginsWith, QualifiedName.BeginsWith]

namespace Member

variable (text : List Char) (member : Member)

/-- The token at which a member's span begins is the first of the member. -/
def BeginsInPlace : Prop :=
  ∃ token ∈ tokens text, token.span.origin = member.span.origin ∧ member.BeginsWith token.kind

/-- A member's span begins with the comma before the first token of the member. -/
def BeginsAtComma : Prop :=
  ∃ before comma first after, tokens text = before ++ comma :: first :: after ∧
    comma.isPunctuation ',' = true ∧ comma.span.origin = member.span.origin ∧
    member.BeginsWith first.kind

def HasStringKey : Prop :=
  ∃ token ∈ tokens text, token.span.origin = member.span.origin ∧ token.isString = true

end Member

/-! ## Nodes -/

def Node.members : Node → List Member
  | .element inner => inner.members
  | .member (.group _ members _) => members
  | .statement ⟨.objectBlock members, _⟩ => members
  | _ => []

/-- The members of a node and of all nodes in it begin as they may, given whether
string keys are in force around the node. They come to be so in a node with a member
that begins with a string. -/
inductive Node.Begun (text : List Char) : (keyed : Bool) → Node → Prop
  | intro {keyed inner : Bool} {node : Node}
      (keys : inner = true → keyed = true ∨ ∃ member ∈ node.members, member.HasStringKey text)
      (begins : ∀ member ∈ node.members,
        member.BeginsInPlace text ∨ inner = true ∧ member.BeginsAtComma text)
      (parts : ∀ part ∈ node.parts, Begun text inner part.node) : Begun text keyed node

def Member.Begun (text : List Char) (keyed : Bool) (member : Member) : Prop :=
  (Node.member member).Begun text keyed ∧
    (member.BeginsInPlace text ∨ keyed = true ∧ member.BeginsAtComma text)

def Member.AllBegun (text : List Char) (keyed : Bool) (members : List Member) : Prop :=
  ∃ inner : Bool, (inner = true → keyed = true ∨ ∃ member ∈ members, member.HasStringKey text) ∧
    ∀ member ∈ members, member.Begun text inner

namespace Node.Begun

variable {text : List Char} {keyed : Bool} {node : Node}

theorem of_parts (parts : ∀ part ∈ node.parts, part.node.Begun text keyed)
    (none : node.members = []) : node.Begun text keyed :=
  .intro .inl (by simp [none]) parts

theorem of_members (begun : Member.AllBegun text keyed node.members)
    (parts : node.parts = node.members.map fun member => ⟨none, .member member⟩) :
    node.Begun text keyed := by
  obtain ⟨inner, keys, all⟩ := begun
  refine .intro keys (fun member among => (all member among).2) fun part isPart => ?_
  rw [parts] at isPart
  obtain ⟨member, among, rfl⟩ := List.mem_map.mp isPart
  exact (all member among).1

/-- Where string keys are in force, no less is allowed. -/
theorem mono {wider : Bool} (begun : node.Begun text keyed) (wide : keyed = true → wider = true) :
    node.Begun text wider := by
  obtain ⟨keys, begins, parts⟩ := begun
  exact .intro (fun inForce => (keys inForce).imp_left wide) begins parts

theorem part (begun : node.Begun text keyed) (none : node.members = []) {part : Part}
    (isPart : part ∈ node.parts) : part.node.Begun text keyed := by
  obtain ⟨keys, -, parts⟩ := begun
  exact (parts part isPart).mono fun inForce => by simpa [none] using keys inForce

/-- What stands in a node is begun. String keys are in force there only because they
are around the node, or because of a block in between. -/
theorem of_contains {root : Node} (begun : root.Begun text keyed) {places : List Place}
    (inside : root.Contains places node) :
    ∃ inner : Bool, node.Begun text inner ∧ (inner = true → keyed = true ∨
      ∃ block outer around, root.Contains outer block ∧ block.Contains around node ∧
        ∃ member ∈ block.members, member.HasStringKey text) := by
  induction inside with
  | here => exact ⟨keyed, begun, .inl⟩
  | @part places parent part within isPart induction =>
      obtain ⟨outer, ⟨keys, -, parts⟩, why⟩ := induction
      refine ⟨_, parts part isPart, fun inForce => ?_⟩
      rcases keys inForce with inForce | keyedHere
      · rcases why inForce with around | ⟨block, above, below, inRoot, inBlock, keyed⟩
        · exact .inl around
        · exact .inr ⟨block, above, _, inRoot, .part inBlock isPart, keyed⟩
      · exact .inr ⟨parent, places, _, within, .part .here isPart, keyedHere⟩

end Node.Begun

abbrev Expr.Begun (text : List Char) (keyed : Bool) (expr : Expr) : Prop :=
  (Node.expr expr).Begun text keyed

abbrev Statement.Begun (text : List Char) (keyed : Bool) (statement : Statement) : Prop :=
  (Node.statement statement).Begun text keyed

/-- A statement whose members begin as they may, wherever it ends. -/
def StatementKind.Begun (text : List Char) (keyed : Bool) (kind : StatementKind) : Prop :=
  ∀ span, Statement.Begun text keyed ⟨kind, span⟩

theorem Expr.Begun.withSpan {text : List Char} {keyed : Bool} {expr : Expr}
    (begun : expr.Begun text keyed) (span : Span) : Expr.Begun text keyed ⟨expr.kind, span⟩ :=
  .of_parts (fun _ isPart => begun.part rfl isPart) rfl

/-! ## Parsers -/

/-- A parser stands on a text, and string keys are in force or not. -/
structure State.Stands (text : List Char) (keyed : Bool) (state : State) : Prop where
  within : state.cursor.Over text
  keys : state.scope.stringKeys = keyed

namespace State.Stands

variable {text : List Char} {keyed : Bool} {state after : State}

theorem stays (stands : state.Stands text keyed) (same : state.SameContext after)
    (walks : state.Walks after) : after.Stands text keyed :=
  ⟨walks.stays_over stands.within, by rw [same.scope_eq, stands.keys]⟩

theorem advanced (stands : state.Stands text keyed) : state.advanced.Stands text keyed :=
  ⟨stands.within.advance, stands.keys⟩

theorem ofText (text : List Char) : (State.ofText text).Stands text false :=
  ⟨Cursor.over_ofText text, rfl⟩

end State.Stands

namespace Parser

variable {α β : Type} {text : List Char} {keyed : Bool} {holds : α → Prop} {holds' : β → Prop}

/-- A parser whose results all have a property if it begins on a text, with string keys
in force or not. -/
structure YieldsOn (text : List Char) (keyed : Bool) (holds : α → Prop) (parser : Parser α) :
    Prop where
  of_ok : ∀ {state value after}, state.Stands text keyed → parser state = .ok value after →
    holds value

theorem Yields.on {parser : Parser α} (yields : Yields holds parser) :
    YieldsOn text keyed holds parser :=
  ⟨fun _ ok => yields.of_ok ok⟩

namespace YieldsOn

theorem pure {value : α} (true : holds value) : YieldsOn text keyed holds (pure value) :=
  (Yields.pure true).on

theorem pure_none : YieldsOn text keyed (∀ value ∈ ·, holds value) (Pure.pure none) :=
  Yields.pure_none.on

theorem pure_some {value : α} (true : holds value) :
    YieldsOn text keyed (∀ value ∈ ·, holds value) (Pure.pure (some value)) :=
  .pure (by simpa using true)

theorem of_ne_ok {parser : Parser α}
    (fails : ∀ {state value after}, parser state ≠ .ok value after) :
    YieldsOn text keyed holds parser :=
  (Yields.of_ne_ok fails).on

theorem bind {parser : Parser α} {next : α → Parser β}
    [context : Follows State.SameContext parser] [walks : Follows State.Walks parser]
    (one : YieldsOn text keyed holds parser)
    (two : ∀ value, holds value → YieldsOn text keyed holds' (next value)) :
    YieldsOn text keyed holds' (parser >>= next) := by
  constructor
  intro state result after stands ok
  obtain ⟨value, between, first, rest⟩ := bind_eq_ok.mp ok
  have stays := stands.stays (context.of_ok first) (walks.of_ok first)
  exact (two value (one.of_ok stands first)).of_ok stays rest

theorem bind_any {parser : Parser α} {next : α → Parser β}
    [Follows State.SameContext parser] [Follows State.Walks parser]
    (two : ∀ value, YieldsOn text keyed holds' (next value)) :
    YieldsOn text keyed holds' (parser >>= next) := by
  have anything : YieldsOn text keyed (fun _ => True) parser := ⟨fun _ _ => trivial⟩
  exact anything.bind fun value _ => two value

theorem ite {condition : Prop} [Decidable condition] {left right : Parser α}
    (one : YieldsOn text keyed holds left) (two : YieldsOn text keyed holds right) :
    YieldsOn text keyed holds (if condition then left else right) := by
  split
  case isTrue => exact one
  case isFalse => exact two

theorem settled {parser other : Parser α} (run : ∀ state, parser state = other state.settled)
    (yields : YieldsOn text keyed holds other) : YieldsOn text keyed holds parser := by
  constructor
  intro state value after stands ok
  rw [run] at ok
  have settled : state.settled.Stands text keyed := ⟨stands.within, stands.keys⟩
  exact yields.of_ok settled ok

theorem inScope {visit : Visit} {parser : Parser α} (yields : YieldsOn text keyed holds parser)
    (enters : ∀ scope : Scope, (visit.enter scope).stringKeys = scope.stringKeys) :
    YieldsOn text keyed holds (inScope visit parser) := by
  constructor
  intro state value after stands ok
  obtain ⟨last, innerOk, -⟩ := inScope_eq_ok.mp ok
  have entered : State.Stands text keyed { state with scope := visit.enter state.scope } :=
    ⟨stands.within, (enters state.scope).trans stands.keys⟩
  exact yields.of_ok entered innerOk

theorem collect {step : Parser (Option α)} [context : Follows State.SameContext step]
    [walks : Follows State.Walks step]
    (yields : YieldsOn text keyed (∀ value ∈ ·, holds value) step) :
    YieldsOn text keyed (∀ value ∈ ·, holds value) (collect step) := by
  constructor
  intro state values after stands ok
  revert stands
  apply collect_induction (motive := fun state values _ =>
    state.Stands text keyed → ∀ value ∈ values, holds value) _ _ ok
  · intro state after last stands value member
    cases member
  · intro state value between more after round rest stands
    refine List.forall_mem_cons.mpr ⟨yields.of_ok stands round value rfl, ?_⟩
    exact rest (stands.stays (context.of_ok round) (walks.of_ok round))

theorem iterate {step : α → Parser (Option α)}
    [context : ∀ value, Follows State.SameContext (step value)]
    [walks : ∀ value, Follows State.Walks (step value)] {start : α} (initially : holds start)
    (kept : ∀ value, holds value →
      YieldsOn text keyed (∀ next ∈ ·, holds next) (step value)) :
    YieldsOn text keyed holds (iterate step start) := by
  constructor
  intro state result after stands ok
  obtain ⟨before, ⟨held, -⟩, -⟩ := iterate_invariant
    (motive := fun value state => holds value ∧ state.Stands text keyed)
    (fun held round => ⟨(kept _ held.1).of_ok held.2 round _ rfl,
      held.2.stays ((context _).of_ok round) ((walks _).of_ok round)⟩) ok ⟨initially, stands⟩
  exact held

theorem listItem {closing : Char} {trailing : Bool} {item : Parser α}
    (yields : YieldsOn text keyed holds item) [Follows State.SameContext item]
    [Follows State.Walks item] :
    YieldsOn text keyed (∀ value ∈ ·, holds value) (listItem closing trailing item) := by
  refine .bind_any fun _ => .ite .pure_none ?_
  refine .bind_any fun _ => .bind_any fun _ => .ite .pure_none ?_
  exact yields.bind fun value true => .pure_some true

theorem listUntil {closing : Char} {trailing : Bool} {item : Parser α}
    (yields : YieldsOn text keyed holds item) [Follows State.SameContext item]
    [Follows State.Walks item] :
    YieldsOn text keyed (∀ value ∈ ·, holds value) (listUntil closing trailing item) := by
  refine .bind_any fun _ => .ite (.bind_any fun _ => .pure (by simp)) ?_
  refine yields.bind fun first true => yields.listItem.collect.bind fun more all => ?_
  exact .bind_any fun _ => .pure (List.forall_mem_cons.mpr ⟨true, all⟩)

end YieldsOn

end Parser

end Qml
