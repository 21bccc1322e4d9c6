import Qml.Proofs.Nodes.Member

/-! # The structure of accepted trees

What a reader of a tree may rely on without a check, wherever a node stands: parts
that are never missing, operands of the right form, and names that agree. -/

namespace Qml

open Qml.Parser

def Tree.Declares (tree : Tree) (places : List Place) (declaration : Declaration) : Prop :=
  tree.Contains places (.member (.declaration declaration)) ∨
    tree.Contains places (.member (.defaultDeclaration declaration))

/-- What all nodes of a tree owe to its readers. With `sourced` every array literal
keeps its source, and without it none does. -/
structure Tree.Structured (sourced : Bool) (tree : Tree) : Prop where
  declarators_ne_nil : ∀ {places kind declarators span},
    tree.Contains places (.statement ⟨.declare kind declarators, span⟩) → declarators ≠ []
  loopVariable : ∀ {places kind declarators inner right body span},
    tree.Contains places
      (.statement ⟨.forInLoop ⟨.declare kind declarators, inner⟩ right body, span⟩) →
      declarators.length = 1
  handled : ∀ {places block handler finalizer span},
    tree.Contains places (.statement ⟨.guarded block handler finalizer, span⟩) →
      handler.isSome = true ∨ finalizer.isSome = true
  several : ∀ {places items span},
    tree.Contains places (.expr ⟨.sequence items, span⟩) → 2 ≤ items.length
  assignable : ∀ {places operator target value span},
    tree.Contains places (.expr ⟨.assign operator target value, span⟩) → target.isAssignable = true
  steppable : ∀ {places operator fixity operand span},
    tree.Contains places (.expr ⟨.unary operator fixity operand, span⟩) →
      operator = .increment ∨ operator = .decrement → operand.isAssignable = true
  binary : ∀ {places operator left right span},
    tree.Contains places (.expr ⟨.binary operator left right, span⟩) →
      ∃ precedence, operator.precedence? = some precedence
  accessor : ∀ {places entries span}, tree.Contains places (.expr ⟨.object entries, span⟩) →
    ∀ entry ∈ entries, entry.kind = .getter ∨ entry.kind = .setter →
      ∃ function, entry.value.kind = .function function
  named : ∀ {places inner span}, tree.Contains places (.statement ⟨.function inner, span⟩) →
    ∃ name, inner.name = some name
  method : ∀ {places name function source},
    tree.Contains places (.member (.method name function source)) → function.name = some name
  typeName_ne_nil : ∀ {places element},
    tree.Contains places (.element element) → element.typeName.segments ≠ []
  groupPath_ne_nil : ∀ {places path members span},
    tree.Contains places (.member (.group path members span)) → path.segments ≠ []
  bindingPath_ne_nil : ∀ {places path value span},
    tree.Contains places (.member (.binding path value span)) → path.segments ≠ []
  importPath_ne_nil : ∀ {document}, tree = .document document →
    ∀ item ∈ document.imports, item.path ≠ []
  aliasPath_ne_nil : ∀ {places target}, tree.Declares places (.aliased target) →
    ∀ path, target.target.Contains path → path.segments ≠ []
  valued : ∀ {places inner}, tree.Declares places (.property inner) → inner.readonly = true →
    inner.value.isSome = true
  writable : ∀ {places declaration},
    tree.Contains places (.member (.defaultDeclaration declaration)) →
      declaration.isReadonly = false
  arraySource : ∀ {places elements source span},
    tree.Contains places (.expr ⟨.array elements source, span⟩) → source.isSome = sourced

theorem QualifiedName.segments_ne_nil_of_isHandler {name : QualifiedName}
    (handler : name.isHandler = true) : name.segments ≠ [] := by
  intro nothing
  simp [isHandler, last, nothing, isHandlerWord] at handler

theorem Tree.WellFormed.declares {dialect : Dialect} {tree : Tree} {places : List Place}
    {declaration : Declaration} (whole : tree.WellFormed dialect)
    (declares : tree.Declares places declaration) : declaration.Formed := by
  rcases declares with inside | inside
  · exact (whole.of_contains inside).formed
  · exact (whole.of_contains inside).formed.1

theorem Tree.WellFormed.structured {dialect : Dialect} {tree : Tree}
    (whole : tree.WellFormed dialect)
    (imports : ∀ {document}, tree = .document document →
      ∀ item ∈ document.imports, item.path ≠ []) :
    tree.Structured (decide (dialect ≠ .script)) where
  declarators_ne_nil inside := (whole.of_contains inside).formed
  loopVariable {_ kind declarators inner right body span} inside := by
    have loop := whole.of_contains inside
    have single : Grammar.declaresSeveral ⟨.declare kind declarators, inner⟩ = false := loop.formed
    have left := loop.part ⟨none, .statement ⟨.declare kind declarators, inner⟩⟩ List.mem_cons_self
    have positive := List.length_pos_iff.mpr left.formed
    have atMost : ¬ 1 < declarators.length := of_decide_eq_false single
    omega
  handled inside := (whole.of_contains inside).formed
  several inside := (whole.of_contains inside).formed
  assignable inside := (whole.of_contains inside).formed
  steppable inside step := (whole.of_contains inside).formed (by rcases step with rfl | rfl <;> rfl)
  binary inside := Option.isSome_iff_exists.mp (whole.of_contains inside).formed
  accessor inside entry member isAccessor :=
    (whole.of_contains inside).formed entry member (by rcases isAccessor with h | h <;> simp [h])
  named inside := Option.isSome_iff_exists.mp (whole.of_contains inside).formed
  method inside := (whole.of_contains inside).formed
  typeName_ne_nil inside := (whole.of_contains inside).formed
  groupPath_ne_nil inside := (whole.of_contains inside).formed
  bindingPath_ne_nil {_ path value span} inside := by
    have formed := (whole.of_contains inside).formed
    cases value with
    | expression value => exact formed
    | handler value => exact QualifiedName.segments_ne_nil_of_isHandler formed.1
  importPath_ne_nil := imports
  aliasPath_ne_nil declares := whole.declares declares
  valued declares := whole.declares declares
  writable inside := (whole.of_contains inside).formed.2
  arraySource inside := (whole.of_contains inside).formed

/-! ## Imports -/

theorem Grammar.document_imports (grammar : Grammar) :
    Yields (fun document => ∀ item ∈ document.imports, item.path ≠ []) grammar.document := by
  have item : Yields (∀ item ∈ ·, item.path ≠ []) Grammar.importItem := by
    refine .bind_any fun start => .ite ?_ .pure_none
    refine .bind_any fun _ => .bind_any fun head => .bind_any fun more => .bind_any fun version =>
      .bind_any fun qualifier => .bind_any fun _ => .bind_any fun span => .pure ?_
    simp
  refine item.collect.bind fun imports paths => .bind_any fun _ =>
    .ite (.of_ne_ok unexpected_ne_ok) (.bind_any fun root => .bind_any fun _ =>
      .ite (.pure paths) (.of_ne_ok unexpected_ne_ok))

/-- Every tree that is accepted has the structure its readers rely on. Array
literals keep their source in files and do not in plain scripts. -/
theorem accepted_trees_are_structured :
    (∀ {options source tree}, (parse options source).outcome = .ok tree → tree.Structured true) ∧
      ∀ {strict source statements}, parseScript strict source = .ok statements →
        (Tree.script statements).Structured false := by
  constructor
  · intro options source tree ok
    have whole : tree.WellFormed options.dialect := (parse_wellFormed ok).1
    refine whole.structured fun {document} isDocument => ?_
    obtain ⟨after, ⟨found, rfl, documentOk⟩ | ⟨statements, rfl, -⟩⟩ := parseNormalized_eq_ok ok
    · cases isDocument
      exact (Grammar.document_imports _).of_ok documentOk
    · cases isDocument
  · intro strict source statements ok
    exact (parseScript_wellFormed ok).structured nofun

def Node.alias? : Node → Option Alias
  | .member (.declaration (.aliased target)) => some target
  | _ => none

theorem Node.eq_of_alias? {node : Node} {target : Alias} (found : node.alias? = some target) :
    node = .member (.declaration (.aliased target)) := by
  unfold alias? at found
  split at found
  case h_1 =>
      cases found
      rfl
  case h_2 => cases found

theorem accepted_trees_are_structured_alias :
    (∃ tree places target,
      (parse {} "import Q 1.0\nA { readonly property alias x: b[c.d].e }").outcome = .ok tree ∧
        tree.Declares places (.aliased target) ∧ tree.Structured true) ∧
      ∃ statements, parseScript false "for (var a in b) c = [d++, -e]" = .ok statements ∧
        (Tree.script statements).Structured false := by
  constructor
  · have found :
        (parse {} "import Q 1.0\nA { readonly property alias x: b[c.d].e }").outcome.toOption.any
        (Tree.has 1 fun _ node => node.alias?.isSome) = true := by decide +kernel
    obtain ⟨tree, places, node, accepted, inside, passes⟩ := Tree.exists_of_has found
    obtain ⟨target, isAlias⟩ := Option.isSome_iff_exists.mp passes
    rw [Node.eq_of_alias? isAlias] at inside
    exact ⟨tree, places, target, accepted, .inl inside, accepted_trees_are_structured.1 accepted⟩
  · have accepted : (parseScript false "for (var a in b) c = [d++, -e]").isOk = true := by
      decide +kernel
    obtain ⟨statements, parsed⟩ := exists_of_isOk accepted
    exact ⟨statements, parsed, accepted_trees_are_structured.2 parsed⟩

end Qml
