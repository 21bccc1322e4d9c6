import Qml.Proofs.Nodes.Member

/-! # Where elements occur

An element is the root of a document, a member or an expression. The first two
begin with the name of a type, while any name before a brace makes an expression an
element. Elements may also stand in the script of a handler, and then hold values
that are no script. -/

namespace Qml

/-! ## Names of types -/

theorem Node.parent_of_element {parent : Node} {part : Part} {element : Element}
    (member : part ∈ parent.parts) (isElement : part.node = .element element) :
    part.place = none ∧
      (parent = .member (.element element) ∨ ∃ span, parent = .expr ⟨.element element, span⟩) := by
  obtain ⟨place, node⟩ := part
  cases isElement
  cases parent with
  | expr inner =>
      obtain ⟨kind, span⟩ := inner
      cases kind <;> simp_all
  | statement inner =>
      obtain ⟨kind, span⟩ := inner
      cases kind <;> simp_all
  | function inner => simp at member
  | element inner => simp at member
  | member inner =>
      cases inner with
      | declaration inner | defaultDeclaration inner => cases inner <;> simp at member
      | binding path value span => cases value <;> simp at member
      | _ => simp_all

/-- An element has the name of a type unless it is an expression. -/
theorem element_is_typed_or_expression {options : Options} {source : String} {tree : Tree}
    (ok : (parse options source).outcome = .ok tree) {places : List Place} {element : Element}
    (inside : tree.Contains places (.element element)) :
    element.typeName.segments ≠ [] ∧
      (element.typeName.isElementType = true ∨
        ∃ span, tree.Contains places (.expr ⟨.element element, span⟩)) := by
  obtain ⟨whole, typedRoot⟩ := parse_wellFormed ok
  refine ⟨(whole.of_contains inside).formed, ?_⟩
  obtain ⟨root, isRoot, within⟩ := inside
  generalize isElement : Node.element element = node at within
  cases within with
  | here =>
      subst isElement
      cases tree with
      | document document =>
          cases List.mem_singleton.mp isRoot
          exact .inl (typedRoot document rfl)
      | script statements =>
          obtain ⟨statement, -, different⟩ := List.mem_map.mp isRoot
          cases different
  | part outer member =>
      obtain ⟨noPlace, isMember | ⟨span, isExpr⟩⟩ := Node.parent_of_element member isElement.symm
      · subst isMember
        have formed : (Member.element element).Formed :=
          (whole.of_contains ⟨root, isRoot, outer⟩).formed
        exact .inl formed
      · subst isExpr
        rw [noPlace]
        exact .inr ⟨span, root, isRoot, outer⟩

theorem exists_untyped_element :
    ∃ tree places element, (parse {} "A { b: c { } }").outcome = .ok tree ∧
      tree.Contains places (.element element) ∧ element.typeName.isElementType = false := by
  have found : (parse {} "A { b: c { } }").outcome.toOption.any
      (Tree.has 4 fun _ node => match node with
        | .element element => !element.typeName.isElementType
        | _ => false) = true := by decide +kernel
  obtain ⟨tree, places, node, accepted, inside, passes⟩ := Tree.exists_of_has found
  cases node with
  | element element =>
      have untyped : element.typeName.isElementType = false := by simpa using passes
      exact ⟨tree, places, element, accepted, inside, untyped⟩
  | _ => cases passes

theorem element_is_typed_or_expression_plain :
    ∃ tree places element, (parse {} "A { b: c { } }").outcome = .ok tree ∧
      tree.Contains places (.element element) ∧
      element.typeName.segments ≠ [] ∧
      (element.typeName.isElementType = true ∨
        ∃ span, tree.Contains places (.expr ⟨.element element, span⟩)) := by
  obtain ⟨tree, places, element, accepted, inside, -⟩ := exists_untyped_element
  exact ⟨tree, places, element, accepted, inside, element_is_typed_or_expression accepted inside⟩

theorem element_without_type :
    ¬ ∀ options source tree places element, (parse options source).outcome = .ok tree →
      tree.Contains places (.element element) → element.typeName.isElementType = true := by
  intro claimed
  obtain ⟨tree, places, element, accepted, inside, untyped⟩ := exists_untyped_element
  have typed := claimed _ _ tree places element accepted inside
  rw [untyped] at typed
  cases typed

/-! ## Handlers -/

/-- A node stands in an element that is an expression in another node. -/
def Node.InElement (root : Node) (places : List Place) (node : Node) : Prop :=
  ∃ outer inner element span, places = inner ++ outer ∧
    root.Contains outer (.expr ⟨.element element, span⟩) ∧
    (Node.expr ⟨.element element, span⟩).Contains inner node

theorem Node.InElement.part {root parent : Node} {places : List Place}
    (inside : root.InElement places parent) {part : Part} (member : part ∈ parent.parts) :
    root.InElement (part.place.toList ++ places) part.node := by
  obtain ⟨outer, inner, element, span, rfl, around, within⟩ := inside
  exact ⟨outer, part.place.toList ++ inner, element, span, (List.append_assoc ..).symm, around,
    .part within member⟩

/-- Whether a node is one that plain script has too. -/
def Node.isScript : Node → Bool
  | .expr _ | .statement _ | .function _ => true
  | .element _ | .member _ => false

def Part.isScript (part : Part) : Bool :=
  part.node.isScript && !part.place.any Place.isCaptured

theorem ExprKind.isScript_parts {kind : ExprKind}
    (noElement : ∀ element, kind ≠ .element element) : kind.parts.all Part.isScript = true := by
  cases kind with
  | element inner => exact absurd rfl (noElement inner)
  | array elements source =>
      refine List.all_eq_true.mpr fun part member => ?_
      obtain ⟨expr, -, rfl⟩ := List.mem_map.mp member
      rfl
  | _ => simp [Part.isScript, Node.isScript]

theorem StatementKind.isScript_parts {kind : StatementKind}
    (noBlock : ∀ members, kind ≠ .objectBlock members) :
    kind.parts.all Part.isScript = true := by
  cases kind with
  | objectBlock members => exact absurd rfl (noBlock members)
  | declare kind declarators =>
      refine List.all_eq_true.mpr fun part member => ?_
      obtain ⟨init, -, rfl⟩ := List.mem_map.mp member
      rfl
  | _ => simp [Part.isScript, Node.isScript, Place.isCaptured, Function.comp_def]

/-- What is in script is script again, except in an element and in a block with
string keys. -/
theorem Node.isScript_parts {node : Node} (script : node.isScript = true)
    (noBlock : ∀ members span, node ≠ .statement ⟨.objectBlock members, span⟩) :
    (∃ element span, node = .expr ⟨.element element, span⟩) ∨
      node.parts.all Part.isScript = true := by
  cases node with
  | expr inner =>
      obtain ⟨kind, span⟩ := inner
      by_cases isElement : ∃ element, kind = .element element
      · obtain ⟨element, rfl⟩ := isElement
        exact .inl ⟨element, span, rfl⟩
      · exact .inr (ExprKind.isScript_parts fun element same => isElement ⟨element, same⟩)
  | statement inner =>
      obtain ⟨kind, span⟩ := inner
      refine .inr (StatementKind.isScript_parts fun members same => ?_)
      exact noBlock members span (same ▸ rfl)
  | function inner => simp [Part.isScript, isScript, Place.isCaptured, Function.comp_def]
  | element inner => cases script
  | member inner => cases script

theorem Node.WellFormed.ne_objectBlock {dialect : Dialect} {places outer : List Place}
    {node : Node} (whole : node.WellFormed dialect (places ++ .handler :: outer))
    (noValue : ∀ place ∈ places, place.isCaptured = false) (members : List Member) (span : Span) :
    node ≠ .statement ⟨.objectBlock members, span⟩ := by
  rintro rfl
  have atValue : (places ++ .handler :: outer).head? = some .value := whole.formed.2
  cases places with
  | nil => cases atValue
  | cons place places =>
      cases atValue
      cases noValue .value List.mem_cons_self

/-- What stands in a handler is script at a place that is no value, or it stands in
an element that the handler builds. -/
theorem Statement.WellFormed.in_handler {dialect : Dialect} {outer : List Place}
    {statement : Statement} (whole : statement.WellFormed dialect (.handler :: outer))
    {places : List Place} {node : Node}
    (inside : (Node.statement statement).Contains places node) :
    (Node.statement statement).InElement places node ∨
      node.isScript = true ∧ ∀ place ∈ places, place.isCaptured = false := by
  induction inside with
  | here => exact .inr ⟨rfl, List.forall_mem_nil _⟩
  | @part places parent part within member induction =>
      rcases induction with inElement | ⟨script, noValue⟩
      · exact .inl (inElement.part member)
      · -- No value has been entered yet, so the parent is no block with string keys.
        have noBlock := (whole.of_contains within).ne_objectBlock noValue
        rcases Node.isScript_parts script noBlock with ⟨element, span, rfl⟩ | parts
        · refine .inl ⟨places, part.place.toList, element, span, rfl, within, ?_⟩
          simpa using Node.Contains.part .here member
        · have isScript := List.all_eq_true.mp parts part member
          simp only [Part.isScript, Bool.and_eq_true, Bool.not_eq_true'] at isScript
          refine .inr ⟨isScript.1, fun place among => ?_⟩
          rcases List.mem_append.mp among with own | around
          · simpa [Option.mem_toList.mp own] using isScript.2
          · exact noValue place around

/-- A handler begins as plain script: its own statement is no pragma and no block with
string keys, and all that stands in it is script without such blocks, except for what
stands in elements that it builds. -/
theorem handlers_begin_as_script {options : Options} {source : String} {tree : Tree}
    (ok : (parse options source).outcome = .ok tree) {places : List Place}
    {path : QualifiedName} {value : Captured} {span : Span}
    (inside : tree.Contains places (.member (.binding path (.handler value) span))) :
    value.node.kind.isDeclarative = false ∧
      ∀ inner node, (Node.statement value.node).Contains inner node →
        (Node.statement value.node).InElement inner node ∨
          node.isScript = true ∧
            ∀ members span, node ≠ .statement ⟨.objectBlock members, span⟩ := by
  have member := (parse_wellFormed ok).1.of_contains inside
  refine ⟨member.formed.2, fun inner node within => ?_⟩
  have whole : value.node.WellFormed options.dialect (.handler :: places) :=
    member.part ⟨some .handler, .statement value.node⟩ List.mem_cons_self
  rcases whole.in_handler within with inElement | ⟨script, noValue⟩
  · exact .inl inElement
  · exact .inr ⟨script, (whole.of_contains within).ne_objectBlock noValue⟩

def Node.isDeclarative : Node → Bool
  | .expr ⟨.element _, _⟩ => true
  | .statement inner => inner.kind.isDeclarative
  | _ => false

def Node.handler? : Node → Option Captured
  | .member (.binding _ (.handler value) _) => some value
  | _ => none

theorem Node.exists_of_handler? {node : Node} {value : Captured}
    (found : node.handler? = some value) :
    ∃ path span, node = .member (.binding path (.handler value) span) := by
  unfold handler? at found
  split at found
  case h_1 path value span =>
      cases found
      exact ⟨path, span, rfl⟩
  case h_2 => cases found

theorem exists_declarative_in_handler :
    ∃ tree places path value span inner node,
      (parse {} "A { onB: C { } }").outcome = .ok tree ∧
      tree.Contains places (.member (.binding path (.handler value) span)) ∧
      (Node.statement value.node).Contains inner node ∧ node.isDeclarative = true := by
  have found : (parse {} "A { onB: C { } }").outcome.toOption.any
      (Tree.has 1 fun _ node => node.handler?.any fun value =>
        ((Node.statement value.node).listed 1).any fun found => found.2.isDeclarative) = true := by
    decide +kernel
  obtain ⟨tree, places, handler, accepted, inside, passes⟩ := Tree.exists_of_has found
  obtain ⟨value, isHandler, builds⟩ := (Option.any_eq_true _ _).mp passes
  obtain ⟨path, span, rfl⟩ := Node.exists_of_handler? isHandler
  obtain ⟨⟨inner, node⟩, listed, declarative⟩ := List.any_eq_true.mp builds
  exact ⟨tree, places, path, value, span, inner, node, accepted, inside,
    Node.contains_of_listed listed, declarative⟩

theorem handlers_begin_as_script_element :
    ∃ tree places path value span, (parse {} "A { onB: C { } }").outcome = .ok tree ∧
      tree.Contains places (.member (.binding path (.handler value) span)) ∧
      value.node.kind.isDeclarative = false ∧
      ∀ inner node, (Node.statement value.node).Contains inner node →
        (Node.statement value.node).InElement inner node ∨
          node.isScript = true ∧
            ∀ members span, node ≠ .statement ⟨.objectBlock members, span⟩ := by
  obtain ⟨tree, places, path, value, span, -, -, accepted, inside, -⟩ :=
    exists_declarative_in_handler
  exact ⟨tree, places, path, value, span, accepted, inside,
    handlers_begin_as_script accepted inside⟩

/-- Not all that stands in the handlers of documents is plain script. -/
theorem handler_with_element :
    ¬ ∀ options source tree places path value span inner node, options.kind = .document →
      (parse options source).outcome = .ok tree →
      tree.Contains places (.member (.binding path (.handler value) span)) →
      (Node.statement value.node).Contains inner node → node.isDeclarative = false := by
  intro claimed
  obtain ⟨tree, places, path, value, span, inner, node, accepted, inside, within, declarative⟩ :=
    exists_declarative_in_handler
  have plain := claimed {} _ tree places path value span inner node rfl accepted inside within
  rw [declarative] at plain
  cases plain

end Qml
