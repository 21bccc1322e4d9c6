import Qml.Tree.Basic

/-! # Nodes of a tree

What stands in a tree, at any depth, and which places are around it there. Only
those places are kept that matter to jumps and to values: bodies of loops and
functions, cases, labels, and the values of members. -/

namespace Qml

inductive Node where
  | expr (expr : Expr)
  | statement (statement : Statement)
  | function (function : Function)
  | element (element : Element)
  | member (member : Member)

/-- A place in a tree that matters to what stands there. The value of a member is
a place of its own, whether the member is a binding or declares a property; so is
the script of a handler. -/
inductive Place where
  | loopBody
  | switchCase
  | labeled (label : String)
  | functionBody
  | value
  | handler
deriving DecidableEq, Repr

/-- A node directly in another one, with its place if that matters. -/
structure Part where
  place : Option Place
  node : Node

/-! ## Parts -/

@[simp] def ExprKind.parts : ExprKind → List Part
  | .number _ | .string _ | .regexp _ _ | .atom _ | .name _ => []
  | .array elements _ => (elements.filterMap id).map fun element => ⟨none, .expr element⟩
  | .object entries => entries.map fun entry => ⟨none, .expr entry.value⟩
  | .function inner => [⟨none, .function inner⟩]
  | .dot base _ => [⟨none, .expr base⟩]
  | .subscript base index => [⟨none, .expr base⟩, ⟨none, .expr index⟩]
  | .call callee arguments =>
    ⟨none, .expr callee⟩ :: arguments.map fun argument => ⟨none, .expr argument⟩
  | .construct callee arguments =>
    ⟨none, .expr callee⟩ :: arguments.map fun argument => ⟨none, .expr argument⟩
  | .unary _ _ operand => [⟨none, .expr operand⟩]
  | .binary _ left right => [⟨none, .expr left⟩, ⟨none, .expr right⟩]
  | .conditional test consequent alternate =>
    [⟨none, .expr test⟩, ⟨none, .expr consequent⟩, ⟨none, .expr alternate⟩]
  | .assign _ target value => [⟨none, .expr target⟩, ⟨none, .expr value⟩]
  | .sequence items => items.map fun item => ⟨none, .expr item⟩
  | .element inner => [⟨none, .element inner⟩]

@[simp] def SwitchCase.parts (case : SwitchCase) : List Part :=
  (case.test.toList.map fun test => ⟨some .switchCase, .expr test⟩) ++
    case.body.map fun statement => ⟨some .switchCase, .statement statement⟩

@[simp] def StatementKind.parts : StatementKind → List Part
  | .empty | .break_ _ | .continue_ _ | .debugger | .pragma _ => []
  | .block body => body.map fun statement => ⟨none, .statement statement⟩
  | .expression value => [⟨none, .expr value⟩]
  | .declare _ declarators =>
    (declarators.filterMap Declarator.init).map fun init => ⟨none, .expr init⟩
  | .function inner => [⟨none, .function inner⟩]
  | .return_ value => value.toList.map fun value => ⟨none, .expr value⟩
  | .throw value => [⟨none, .expr value⟩]
  | .conditional test consequent alternate =>
    ⟨none, .expr test⟩ :: ⟨none, .statement consequent⟩ ::
      alternate.toList.map fun alternate => ⟨none, .statement alternate⟩
  | .whileLoop test body => [⟨none, .expr test⟩, ⟨some .loopBody, .statement body⟩]
  | .doWhileLoop body test => [⟨some .loopBody, .statement body⟩, ⟨none, .expr test⟩]
  | .forLoop init test update body =>
    (init.toList.map fun init => ⟨none, .statement init⟩) ++
      (test.toList.map fun test => ⟨none, .expr test⟩) ++
      (update.toList.map fun update => ⟨none, .expr update⟩) ++
      [⟨some .loopBody, .statement body⟩]
  | .forInLoop left right body =>
    [⟨none, .statement left⟩, ⟨none, .expr right⟩, ⟨some .loopBody, .statement body⟩]
  | .switch discriminant cases => ⟨none, .expr discriminant⟩ :: cases.flatMap SwitchCase.parts
  | .guarded body handler finalizer =>
    [body, (handler.map CatchClause.body).getD [], finalizer.getD []].flatMap fun block =>
      block.map fun statement => ⟨none, .statement statement⟩
  | .labeled label body => [⟨some (.labeled label), .statement body⟩]
  | .with_ object body => [⟨none, .expr object⟩, ⟨none, .statement body⟩]
  | .objectBlock members => members.map fun member => ⟨none, .member member⟩

@[simp] def Declaration.parts : Declaration → List Part
  | .property inner =>
    inner.value.toList.map fun value => ⟨some .value, .statement value.node⟩
  | .aliased _ => []

@[simp] def BindingValue.parts : BindingValue → List Part
  | .expression value => [⟨some .value, .statement value.node⟩]
  | .handler value => [⟨some .handler, .statement value.node⟩]

@[simp] def Member.parts : Member → List Part
  | .element inner => [⟨none, .element inner⟩]
  | .group _ members _ => members.map fun member => ⟨none, .member member⟩
  | .declaration inner | .defaultDeclaration inner => inner.parts
  | .signal _ => []
  | .method _ function _ => [⟨none, .function function⟩]
  | .binding _ value _ => value.parts

@[simp] def Node.parts : Node → List Part
  | .expr inner => inner.kind.parts
  | .statement inner => inner.kind.parts
  | .function inner => inner.body.map fun statement => ⟨some .functionBody, .statement statement⟩
  | .element inner => inner.members.map fun member => ⟨none, .member member⟩
  | .member inner => inner.parts

/-! ## Nodes at any depth -/

/-- A node stands in another one, or is that node itself. The places are those
around it, from the innermost one outwards. -/
inductive Node.Contains (root : Node) : List Place → Node → Prop
  | here : Contains root [] root
  | part {places : List Place} {parent : Node} {part : Part} (outer : Contains root places parent)
      (member : part ∈ parent.parts) : Contains root (part.place.toList ++ places) part.node

theorem Node.Contains.trans {root middle node : Node} {outer inner : List Place}
    (first : root.Contains outer middle) (second : middle.Contains inner node) :
    root.Contains (inner ++ outer) node := by
  induction second with
  | here => exact first
  | part within member induction =>
      rw [List.append_assoc]
      exact .part induction member

def Tree.roots : Tree → List Node
  | .document content => [.element content.root]
  | .script statements => statements.map Node.statement

/-- A node stands in a tree, with these places around it. -/
def Tree.Contains (tree : Tree) (places : List Place) (node : Node) : Prop :=
  ∃ root ∈ tree.roots, root.Contains places node

/-- A path stands in the brackets of another one, at any depth, or is that path
itself. -/
inductive AliasPath.Contains (root : AliasPath) : AliasPath → Prop
  | here : Contains root root
  | subscript {path inner : AliasPath} {segment : AliasSegment} (outer : Contains root path)
      (among : segment ∈ path.segments) (member : inner ∈ segment.subscripts) :
      Contains root inner

/-! ## Listing nodes -/

def Node.listed : (depth : Nat) → Node → List (List Place × Node)
  | 0, root => [([], root)]
  | depth + 1, root =>
    ([], root) :: root.parts.flatMap fun part =>
      (part.node.listed depth).map fun (places, node) => (places ++ part.place.toList, node)

theorem Node.contains_of_listed {depth : Nat} {root node : Node} {places : List Place}
    (found : (places, node) ∈ root.listed depth) : root.Contains places node := by
  induction depth generalizing root places with
  | zero =>
      cases List.mem_singleton.mp found
      exact .here
  | succ depth induction =>
      rcases List.mem_cons.mp found with own | deeper
      · cases own
        exact .here
      · obtain ⟨part, member, among⟩ := List.mem_flatMap.mp deeper
        obtain ⟨⟨inner, other⟩, listed, same⟩ := List.mem_map.mp among
        cases same
        have outer : root.Contains (part.place.toList ++ []) part.node := .part .here member
        rw [List.append_nil] at outer
        exact outer.trans (induction listed)

def Tree.has (depth : Nat) (test : List Place → Node → Bool) (tree : Tree) : Bool :=
  tree.roots.any fun root => (root.listed depth).any fun (places, node) => test places node

theorem Tree.exists_of_has {ε : Type} {outcome : Except ε Tree} {depth : Nat}
    {test : List Place → Node → Bool} (found : outcome.toOption.any (Tree.has depth test) = true) :
    ∃ tree places node, outcome = .ok tree ∧ tree.Contains places node ∧
      test places node = true := by
  cases outcome with
  | error error => cases found
  | ok tree =>
      obtain ⟨root, isRoot, among⟩ := List.any_eq_true.mp found
      obtain ⟨⟨places, node⟩, listed, passes⟩ := List.any_eq_true.mp among
      exact ⟨tree, places, node, rfl, ⟨root, isRoot, Node.contains_of_listed listed⟩, passes⟩

/-! ## Places around a node -/

namespace Place

/-- Whether a jump to a label, or without one, may end at a place. -/
def isTarget : (label : Option String) → Place → Bool
  | none, loopBody | none, switchCase => true
  | some label, labeled other => label = other
  | _, _ => false

def isCaptured : Place → Bool
  | value | handler => true
  | _ => false

def inFunction (places : List Place) : List Place :=
  places.takeWhile (· ≠ functionBody)

theorem inFunction_cons {place : Place} {places : List Place} (inside : place ≠ functionBody) :
    inFunction (place :: places) = place :: inFunction places :=
  List.takeWhile_cons_of_pos (decide_eq_true inside)

theorem ne_functionBody_of_isTarget {label : Option String} {place : Place}
    (target : place.isTarget label = true) : place ≠ functionBody := by
  rintro rfl
  cases label <;> cases target

theorem ne_functionBody_of_isCaptured {place : Place} (captured : place.isCaptured = true) :
    place ≠ functionBody := by
  rintro rfl
  cases captured

theorem isTarget_eq_false_of_isCaptured {label : Option String} {place : Place}
    (captured : place.isCaptured = true) : place.isTarget label = false := by
  cases place <;> cases captured <;> cases label <;> rfl

end Place

def StatementKind.jump? : StatementKind → Option (Option String)
  | .break_ label | .continue_ label => some label
  | _ => none

def StatementKind.isDeclarative : StatementKind → Bool
  | .pragma _ | .objectBlock _ => true
  | _ => false

end Qml
