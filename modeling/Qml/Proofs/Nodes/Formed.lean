import Qml.Grammar.Statement
import Qml.Proofs.Nodes.Basic
import Qml.Proofs.Parser.Yields
import Qml.Proofs.Scope

/-! # How nodes are formed

What a node owes to the production that builds it, given the places around it. A
scope counts functions and loops and keeps labels; it matches some places if
what it allows is found among them. A production that begins in such a scope
yields nodes that are well formed at those places. -/

namespace Qml

open Qml.Parser

/-! ## Single nodes -/

/-- Whether a statement at a place may return: in the body of a function, and in a
captured value, which only declarative text has. -/
def Place.allowsReturn (dialect : Dialect) : Place → Bool
  | functionBody => true
  | value | handler => dialect ≠ .script
  | _ => false

def ExprKind.Formed (dialect : Dialect) : ExprKind → Prop
  | .array _ source => source.isSome = decide (dialect ≠ .script)
  | .object entries =>
    ∀ entry ∈ entries, entry.kind ≠ .value → ∃ accessor, entry.value.kind = .function accessor
  | .unary operator _ operand => operator.isStep = true → operand.isAssignable = true
  | .binary operator _ _ => operator.precedence?.isSome = true
  | .assign _ target _ => target.isAssignable = true
  | .sequence items => 2 ≤ items.length
  | .element _ => dialect ≠ .script
  | _ => True

/-- A jump has its target inside its function. A block with string keys is the
value of a member and does not stand deeper in it. -/
def StatementKind.Formed (dialect : Dialect) (places : List Place) : StatementKind → Prop
  | .return_ _ => ∃ place ∈ places, place.allowsReturn dialect = true
  | .break_ label | .continue_ label =>
    ∃ place ∈ Place.inFunction places, place.isTarget label = true
  | .declare _ declarators => declarators ≠ []
  | .forInLoop left _ _ => Grammar.declaresSeveral left = false
  | .guarded _ handler finalizer => handler.isSome = true ∨ finalizer.isSome = true
  | .function inner => inner.name.isSome = true
  | .pragma _ => dialect ≠ .script
  | .objectBlock _ => dialect ≠ .script ∧ places.head? = some .value
  | _ => True

def Declaration.isReadonly : Declaration → Bool
  | .property inner => inner.readonly
  | .aliased target => target.readonly

def Declaration.Formed : Declaration → Prop
  | .property inner => inner.readonly = true → inner.value.isSome = true
  | .aliased inner => ∀ path, inner.target.Contains path → path.segments ≠ []

def Member.Formed : Member → Prop
  | .element inner => inner.typeName.isElementType = true
  | .group path _ _ => path.segments ≠ []
  | .declaration inner => inner.Formed
  | .defaultDeclaration inner => inner.Formed ∧ inner.isReadonly = false
  | .signal _ => True
  | .method name inner _ => inner.name = some name
  | .binding path (.expression _) _ => path.segments ≠ []
  | .binding path (.handler value) _ =>
    path.isHandler = true ∧ value.node.kind.isDeclarative = false

def Node.Formed (dialect : Dialect) (places : List Place) : Node → Prop
  | .expr inner => inner.kind.Formed dialect
  | .statement inner => inner.kind.Formed dialect places
  | .function _ => True
  | .element inner => inner.typeName.segments ≠ []
  | .member inner => inner.Formed

/-! ## Nodes with all that is in them -/

inductive Node.WellFormed (dialect : Dialect) : List Place → Node → Prop
  | intro {places : List Place} {node : Node} (formed : node.Formed dialect places)
      (parts : ∀ part ∈ node.parts, WellFormed dialect (part.place.toList ++ places) part.node) :
      WellFormed dialect places node

namespace Node.WellFormed

variable {dialect : Dialect} {outer : List Place} {root : Node}

theorem formed (whole : root.WellFormed dialect outer) : root.Formed dialect outer := by
  cases whole with
  | intro formed parts => exact formed

theorem part (whole : root.WellFormed dialect outer) (part : Part) (member : part ∈ root.parts) :
    part.node.WellFormed dialect (part.place.toList ++ outer) := by
  cases whole with
  | intro formed parts => exact parts part member

theorem of_contains (whole : root.WellFormed dialect outer) {places : List Place} {node : Node}
    (inside : root.Contains places node) : node.WellFormed dialect (places ++ outer) := by
  induction inside with
  | here => exact whole
  | part within member induction =>
      rw [List.append_assoc]
      exact induction.part _ member

end Node.WellFormed

def Tree.WellFormed (dialect : Dialect) (tree : Tree) : Prop :=
  ∀ root ∈ tree.roots, root.WellFormed dialect []

theorem Tree.WellFormed.of_contains {dialect : Dialect} {tree : Tree}
    (whole : tree.WellFormed dialect) {places : List Place} {node : Node}
    (inside : tree.Contains places node) : node.WellFormed dialect places := by
  obtain ⟨root, isRoot, within⟩ := inside
  simpa using (whole root isRoot).of_contains within

abbrev Expr.WellFormed (dialect : Dialect) (places : List Place) (expr : Expr) : Prop :=
  (Node.expr expr).WellFormed dialect places

abbrev Statement.WellFormed (dialect : Dialect) (places : List Place) (statement : Statement) :
    Prop :=
  (Node.statement statement).WellFormed dialect places

abbrev Member.WellFormed (dialect : Dialect) (places : List Place) (member : Member) : Prop :=
  (Node.member member).WellFormed dialect places

def StatementKind.Built (dialect : Dialect) (places : List Place) (kind : StatementKind) : Prop :=
  kind.isDeclarative = false ∧ ∀ span, Statement.WellFormed dialect places ⟨kind, span⟩

def Statement.Built (dialect : Dialect) (places : List Place) (statement : Statement) : Prop :=
  statement.kind.isDeclarative = false ∧ statement.WellFormed dialect places

section

variable {dialect : Dialect} {places : List Place}

theorem StatementKind.built {kind : StatementKind} (script : kind.isDeclarative = false)
    (formed : kind.Formed dialect places)
    (parts : ∀ part ∈ kind.parts, part.node.WellFormed dialect (part.place.toList ++ places)) :
    kind.Built dialect places :=
  ⟨script, fun _ => .intro formed parts⟩

theorem Expr.WellFormed.withSpan {expr : Expr} (whole : expr.WellFormed dialect places)
    (span : Span) : Expr.WellFormed dialect places ⟨expr.kind, span⟩ :=
  .intro whole.formed whole.part

end

/-! ## Scopes -/

/-- What a scope allows is found among some places. -/
structure Scope.Matches (dialect : Dialect) (places : List Place) (scope : Scope) : Prop where
  returns : scope.functions ≠ 0 → ∃ place ∈ places, place.allowsReturn dialect = true
  loops : scope.loops ≠ 0 → ∃ place ∈ Place.inFunction places, place.isTarget none = true
  labels : ∀ label ∈ scope.labels,
    ∃ place ∈ Place.inFunction places, place.isTarget (some label) = true

namespace Scope.Matches

variable {dialect : Dialect} {places : List Place} {scope : Scope}

theorem outermost : Scope.outermost.Matches dialect [] :=
  ⟨fun inside => absurd rfl inside, fun inside => absurd rfl inside, nofun⟩

theorem of_sameButKeys {before after : State} (fits : before.scope.Matches dialect places)
    (same : before.SameButKeys after) : after.scope.Matches dialect places := by
  rcases same.scope_eq with same | keyed
  · rw [same]
    exact fits
  · rw [keyed]
    exact ⟨fits.returns, fits.loops, fits.labels⟩

/-- A place inside a function hides nothing that is around it. -/
theorem push (fits : scope.Matches dialect places) {place : Place}
    (inside : place ≠ .functionBody) : scope.Matches dialect (place :: places) := by
  have kept : Place.inFunction (place :: places) = place :: Place.inFunction places :=
    Place.inFunction_cons inside
  refine ⟨fun returns => ?_, fun loops => ?_, fun label member => ?_⟩
  · obtain ⟨found, among, allows⟩ := fits.returns returns
    exact ⟨found, List.mem_cons_of_mem place among, allows⟩
  · obtain ⟨found, among, target⟩ := fits.loops loops
    exact ⟨found, kept ▸ List.mem_cons_of_mem place among, target⟩
  · obtain ⟨found, among, target⟩ := fits.labels label member
    exact ⟨found, kept ▸ List.mem_cons_of_mem place among, target⟩

theorem deeper (fits : scope.Matches dialect places) :
    (Scope.deeper.enter scope).Matches dialect places :=
  ⟨fits.returns, fits.loops, fits.labels⟩

theorem inBlock (fits : scope.Matches dialect places) :
    (Scope.inBlock.enter scope).Matches dialect places :=
  ⟨fits.returns, fits.loops, fits.labels⟩

theorem inLoop (fits : scope.Matches dialect places) {place : Place}
    (loop : place.isTarget none = true) :
    (Scope.inLoop.enter scope).Matches dialect (place :: places) := by
  have inside := Place.ne_functionBody_of_isTarget loop
  have pushed := fits.push inside
  refine ⟨pushed.returns, fun _ => ⟨place, ?_, loop⟩, pushed.labels⟩
  simp [Place.inFunction_cons inside]

theorem inLabel (fits : scope.Matches dialect places) (label : String) :
    ((Scope.inLabel label).enter scope).Matches dialect (.labeled label :: places) := by
  have pushed : scope.Matches dialect (.labeled label :: places) := fits.push nofun
  refine ⟨pushed.returns, pushed.loops, fun found member => ?_⟩
  rcases List.mem_append.mp member with outer | own
  · exact pushed.labels found outer
  · cases List.mem_singleton.mp own
    exact ⟨.labeled label, by simp [Place.inFunction], by simp [Place.isTarget]⟩

theorem inFunction (scope : Scope) :
    (Scope.inFunction.enter scope).Matches dialect (.functionBody :: places) :=
  ⟨fun _ => ⟨.functionBody, List.mem_cons_self, rfl⟩, fun inside => absurd rfl inside, nofun⟩

/-- A captured value hides no loop and no label around it. -/
theorem inValue (fits : scope.Matches dialect places) (declarative : dialect ≠ .script)
    {place : Place} (captured : place.isCaptured = true) :
    (Scope.inValue.enter scope).Matches dialect (place :: places) := by
  have inside := Place.ne_functionBody_of_isCaptured captured
  have allows : place.allowsReturn dialect = true := by
    cases place <;> first | exact decide_eq_true declarative | cases captured
  have pushed := fits.push inside
  exact ⟨fun _ => ⟨place, List.mem_cons_self, allows⟩, pushed.loops, pushed.labels⟩

end Scope.Matches

/-! ## Parsers -/

namespace Parser

variable {α β : Type} {dialect : Dialect} {places : List Place} {holds : α → Prop}
  {holds' : β → Prop}

/-- A parser whose results all have a property if its scope matches some places. -/
structure YieldsAt (dialect : Dialect) (places : List Place) (holds : α → Prop)
    (parser : Parser α) : Prop where
  of_ok : ∀ {state value after}, state.scope.Matches dialect places →
    parser state = .ok value after → holds value

theorem Yields.at {parser : Parser α} (yields : Yields holds parser) :
    YieldsAt dialect places holds parser :=
  ⟨fun _ ok => yields.of_ok ok⟩

namespace YieldsAt

theorem pure {value : α} (true : holds value) : YieldsAt dialect places holds (pure value) :=
  (Yields.pure true).at

theorem pure_none : YieldsAt dialect places (∀ value ∈ ·, holds value) (Pure.pure none) :=
  Yields.pure_none.at

theorem pure_some {value : α} (true : holds value) :
    YieldsAt dialect places (∀ value ∈ ·, holds value) (Pure.pure (some value)) :=
  .pure (by simpa using true)

theorem of_ne_ok {parser : Parser α}
    (fails : ∀ {state value after}, parser state ≠ .ok value after) :
    YieldsAt dialect places holds parser :=
  (Yields.of_ne_ok fails).at

theorem mono {wider : α → Prop} {parser : Parser α} (yields : YieldsAt dialect places holds parser)
    (wide : ∀ value, holds value → wider value) : YieldsAt dialect places wider parser :=
  ⟨fun fits ok => wide _ (yields.of_ok fits ok)⟩

theorem bind {parser : Parser α} {next : α → Parser β} [keeps : Follows State.SameButKeys parser]
    (one : YieldsAt dialect places holds parser)
    (two : ∀ value, holds value → YieldsAt dialect places holds' (next value)) :
    YieldsAt dialect places holds' (parser >>= next) := by
  constructor
  intro state result after fits ok
  obtain ⟨value, between, first, rest⟩ := bind_eq_ok.mp ok
  exact (two value (one.of_ok fits first)).of_ok (fits.of_sameButKeys (keeps.of_ok first)) rest

theorem bind_any {parser : Parser α} {next : α → Parser β} [Follows State.SameButKeys parser]
    (two : ∀ value, YieldsAt dialect places holds' (next value)) :
    YieldsAt dialect places holds' (parser >>= next) := by
  have anything : YieldsAt dialect places (fun _ => True) parser := ⟨fun _ _ => trivial⟩
  exact anything.bind fun value _ => two value

theorem bind_scope {next : Scope → Parser α}
    (two : ∀ scope : Scope, scope.Matches dialect places →
      YieldsAt dialect places holds (next scope)) :
    YieldsAt dialect places holds (scope >>= next) :=
  ⟨fun {state} {_ _} fits ok => (two state.scope fits).of_ok fits ok⟩

theorem ite_of {condition : Prop} [Decidable condition] {left right : Parser α}
    (one : condition → YieldsAt dialect places holds left)
    (two : ¬ condition → YieldsAt dialect places holds right) :
    YieldsAt dialect places holds (if condition then left else right) := by
  split
  case isTrue true => exact one true
  case isFalse false => exact two false

theorem ite {condition : Prop} [Decidable condition] {left right : Parser α}
    (one : YieldsAt dialect places holds left) (two : YieldsAt dialect places holds right) :
    YieldsAt dialect places holds (if condition then left else right) :=
  ite_of (fun _ => one) fun _ => two

theorem settled {parser other : Parser α} (run : ∀ state, parser state = other state.settled)
    (yields : YieldsAt dialect places holds other) : YieldsAt dialect places holds parser := by
  constructor
  intro state value after fits ok
  rw [run] at ok
  have settled : state.settled.scope.Matches dialect places := fits
  exact yields.of_ok settled ok

theorem inScope {visit : Visit} {inner : List Place} {parser : Parser α}
    (yields : YieldsAt dialect inner holds parser)
    (enters : ∀ scope : Scope, scope.Matches dialect places →
      (visit.enter scope).Matches dialect inner) :
    YieldsAt dialect places holds (inScope visit parser) := by
  constructor
  intro state value after fits ok
  obtain ⟨last, innerOk, -⟩ := inScope_eq_ok.mp ok
  exact yields.of_ok (enters state.scope fits) innerOk

theorem collect {step : Parser (Option α)} [keeps : Follows State.SameButKeys step]
    (yields : YieldsAt dialect places (∀ value ∈ ·, holds value) step) :
    YieldsAt dialect places (∀ value ∈ ·, holds value) (collect step) := by
  constructor
  intro state values after fits ok
  revert fits
  apply collect_induction (motive := fun state values _ =>
    state.scope.Matches dialect places → ∀ value ∈ values, holds value) _ _ ok
  · intro state after last fits value member
    cases member
  · intro state value between more after round rest fits
    refine List.forall_mem_cons.mpr ⟨yields.of_ok fits round value rfl, ?_⟩
    exact rest (fits.of_sameButKeys (keeps.of_ok round))

theorem iterate {step : α → Parser (Option α)}
    [keeps : ∀ value, Follows State.SameButKeys (step value)] {start : α} (initially : holds start)
    (kept : ∀ value, holds value →
      YieldsAt dialect places (∀ next ∈ ·, holds next) (step value)) :
    YieldsAt dialect places holds (iterate step start) := by
  constructor
  intro state result after fits ok
  obtain ⟨before, ⟨held, -⟩, -⟩ := iterate_invariant
    (motive := fun value state => holds value ∧ state.scope.Matches dialect places)
    (fun held round => ⟨(kept _ held.1).of_ok held.2 round _ rfl,
      held.2.of_sameButKeys ((keeps _).of_ok round)⟩) ok ⟨initially, fits⟩
  exact held

theorem listItem {closing : Char} {trailing : Bool} {item : Parser α}
    (yields : YieldsAt dialect places holds item) [Follows State.SameButKeys item] :
    YieldsAt dialect places (∀ value ∈ ·, holds value) (listItem closing trailing item) := by
  refine .bind_any fun _ => .ite .pure_none ?_
  refine .bind_any fun _ => .bind_any fun _ => .ite .pure_none ?_
  exact yields.bind fun value true => .pure_some true

theorem listUntil {closing : Char} {trailing : Bool} {item : Parser α}
    (yields : YieldsAt dialect places holds item) [Follows State.SameButKeys item] :
    YieldsAt dialect places (∀ value ∈ ·, holds value) (listUntil closing trailing item) := by
  refine .bind_any fun _ => .ite (.bind_any fun _ => .pure (by simp)) ?_
  refine yields.bind fun first true => yields.listItem.collect.bind fun more all => ?_
  exact .bind_any fun _ => .pure (List.forall_mem_cons.mpr ⟨true, all⟩)

end YieldsAt

end Parser

end Qml
