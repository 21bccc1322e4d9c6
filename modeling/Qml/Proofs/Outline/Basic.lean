import Qml.Tree.Basic

/-! # Outlines

The outline of a tree forgets what its nodes mean and keeps where they lie. It
has one node for each node of the tree with a place of its own, in the order of
the text: declarators, cases and entries of objects have none, and their parts
are children of the statement or expression around them. Two forms of nodes are
told apart from the rest because the source kept for a node depends on them. -/

namespace Qml

inductive NodeForm where
  | array
  | instanceTest
  | other
deriving DecidableEq, Repr

/-- A node with its span, the source that was kept for it, and its children. -/
inductive Outline where
  | node (form : NodeForm) (span : Span) (source : Option String) (children : List Outline)

namespace Outline

def form : Outline → NodeForm
  | node form _ _ _ => form

def span : Outline → Span
  | node _ span _ _ => span

def source : Outline → Option String
  | node _ _ source _ => source

def children : Outline → List Outline
  | node _ _ _ children => children

def withSource (source : String) : Outline → Outline
  | node form span _ children => node form span (some source) children

mutual

/-- A node and all nodes in it, children before their parents. -/
def nodes : Outline → List Outline
  | node form span source children => nodesOf children ++ [node form span source children]

def nodesOf : List Outline → List Outline
  | [] => []
  | outline :: more => outline.nodes ++ nodesOf more

end

end Outline

/-! ## Outlines of trees -/

def ExprKind.form : ExprKind → NodeForm
  | .array _ _ => .array
  | .binary .instanceOf _ _ => .instanceTest
  | _ => .other

def ExprKind.source : ExprKind → Option String
  | .array _ source => source
  | _ => none

mutual

def Expr.outline : Expr → Outline
  | ⟨kind, span⟩ => .node kind.form span kind.source kind.outlines

def ExprKind.outlines : ExprKind → List Outline
  | .number _ | .string _ | .regexp _ _ | .atom _ | .name _ => []
  | .array elements _ => Expr.outlineHoles elements
  | .object entries => ObjectEntry.outlineAll entries
  | .function function => [function.outline]
  | .dot object _ => [object.outline]
  | .subscript object index => [object.outline, index.outline]
  | .call callee arguments => callee.outline :: Expr.outlineAll arguments
  | .construct callee arguments => callee.outline :: Expr.outlineAll arguments
  | .unary _ _ operand => [operand.outline]
  | .binary _ left right => [left.outline, right.outline]
  | .conditional test consequent alternate =>
    [test.outline, consequent.outline, alternate.outline]
  | .assign _ target value => [target.outline, value.outline]
  | .sequence items => Expr.outlineAll items
  | .element element => [element.outline]

def Expr.outlineAll : List Expr → List Outline
  | [] => []
  | expr :: rest => expr.outline :: Expr.outlineAll rest

def Expr.outlineOption : Option Expr → List Outline
  | none => []
  | some expr => [expr.outline]

def Expr.outlineHoles : List (Option Expr) → List Outline
  | [] => []
  | expr :: rest => Expr.outlineOption expr ++ Expr.outlineHoles rest

def ObjectEntry.outline : ObjectEntry → Outline
  | ⟨_, _, value⟩ => value.outline

def ObjectEntry.outlineAll : List ObjectEntry → List Outline
  | [] => []
  | entry :: rest => entry.outline :: ObjectEntry.outlineAll rest

def Function.outline : Function → Outline
  | ⟨_, _, body, span⟩ => .node .other span none (Statement.outlineAll body)

def Statement.outline : Statement → Outline
  | ⟨kind, span⟩ => .node .other span none kind.outlines

def Statement.outlineAll : List Statement → List Outline
  | [] => []
  | statement :: rest => statement.outline :: Statement.outlineAll rest

def Statement.outlineOption : Option Statement → List Outline
  | none => []
  | some statement => [statement.outline]

def Statement.outlineBlock : Option (List Statement) → List Outline
  | none => []
  | some body => Statement.outlineAll body

def StatementKind.outlines : StatementKind → List Outline
  | .empty | .break_ _ | .continue_ _ | .debugger | .pragma _ => []
  | .block body => Statement.outlineAll body
  | .expression value => [value.outline]
  | .declare _ declarators => Declarator.outlineAll declarators
  | .function function => [function.outline]
  | .return_ value => Expr.outlineOption value
  | .throw value => [value.outline]
  | .conditional test consequent alternate =>
    test.outline :: consequent.outline :: Statement.outlineOption alternate
  | .whileLoop test body => [test.outline, body.outline]
  | .doWhileLoop body test => [body.outline, test.outline]
  | .forLoop init test update body =>
    Statement.outlineOption init ++ Expr.outlineOption test ++ Expr.outlineOption update ++
      [body.outline]
  | .forInLoop left right body => [left.outline, right.outline, body.outline]
  | .switch discriminant cases => discriminant.outline :: SwitchCase.outlineAll cases
  | .guarded block handler finalizer =>
    Statement.outlineAll block ++ CatchClause.outlineOption handler ++
      Statement.outlineBlock finalizer
  | .labeled _ body => [body.outline]
  | .with_ object body => [object.outline, body.outline]
  | .objectBlock members => Member.outlineAll members

def Declarator.outlines : Declarator → List Outline
  | ⟨_, init⟩ => Expr.outlineOption init

def Declarator.outlineAll : List Declarator → List Outline
  | [] => []
  | declarator :: rest => declarator.outlines ++ Declarator.outlineAll rest

def SwitchCase.outlines : SwitchCase → List Outline
  | ⟨test, body⟩ => Expr.outlineOption test ++ Statement.outlineAll body

def SwitchCase.outlineAll : List SwitchCase → List Outline
  | [] => []
  | case :: rest => case.outlines ++ SwitchCase.outlineAll rest

def CatchClause.outlines : CatchClause → List Outline
  | ⟨_, body⟩ => Statement.outlineAll body

def CatchClause.outlineOption : Option CatchClause → List Outline
  | none => []
  | some clause => clause.outlines

def Element.outline : Element → Outline
  | ⟨_, _, members, span⟩ => .node .other span none (Member.outlineAll members)

def Member.outline : Member → Outline
  | .element element => element.outline
  | .group _ members span => .node .other span none (Member.outlineAll members)
  | .declaration declaration => declaration.outline
  | .defaultDeclaration declaration => declaration.outline
  | .signal signal => .node .other signal.span none []
  | .method _ function source => function.outline.withSource source
  | .binding _ value span => .node .other span none [value.outline]

def Member.outlineAll : List Member → List Outline
  | [] => []
  | member :: rest => member.outline :: Member.outlineAll rest

def Declaration.outline : Declaration → Outline
  | .property property => property.outline
  | .aliased target => .node .other target.span none []

def Property.outline : Property → Outline
  | ⟨_, _, _, _, value, span⟩ => .node .other span none (Captured.outlineOption value)

def BindingValue.outline : BindingValue → Outline
  | .expression value => value.outline
  | .handler value => value.outline

def Captured.outline : Captured → Outline
  | ⟨node, source⟩ => node.outline.withSource source

def Captured.outlineOption : Option Captured → List Outline
  | none => []
  | some value => [value.outline]

end

theorem Expr.outline_eq (expr : Expr) :
    expr.outline = .node expr.kind.form expr.span expr.kind.source expr.kind.outlines := by
  cases expr
  rfl

@[simp] theorem Expr.outline_span (expr : Expr) : expr.outline.span = expr.span := by
  rw [Expr.outline_eq]
  rfl

/-! ## Outlines of lists -/

theorem eq_flatMap_of_cons {α β : Type} {act : α → List β} {all : List α → List β}
    (nil : all [] = []) (cons : ∀ head rest, all (head :: rest) = act head ++ all rest)
    {list : List α} : all list = list.flatMap act := by
  induction list with
  | nil => exact nil
  | cons head rest induction => rw [cons, induction, List.flatMap_cons]

theorem Expr.outlineAll_eq (exprs : List Expr) :
    Expr.outlineAll exprs = exprs.flatMap fun expr => [expr.outline] :=
  eq_flatMap_of_cons rfl fun _ _ => rfl

theorem Expr.outlineHoles_eq (exprs : List (Option Expr)) :
    Expr.outlineHoles exprs = exprs.flatMap Expr.outlineOption :=
  eq_flatMap_of_cons rfl fun _ _ => rfl

theorem ObjectEntry.outlineAll_eq (entries : List ObjectEntry) :
    ObjectEntry.outlineAll entries = entries.flatMap fun entry => [entry.outline] :=
  eq_flatMap_of_cons rfl fun _ _ => rfl

theorem Statement.outlineAll_eq (statements : List Statement) :
    Statement.outlineAll statements = statements.flatMap fun statement => [statement.outline] :=
  eq_flatMap_of_cons rfl fun _ _ => rfl

theorem Declarator.outlineAll_eq (declarators : List Declarator) :
    Declarator.outlineAll declarators = declarators.flatMap Declarator.outlines :=
  eq_flatMap_of_cons rfl fun _ _ => rfl

theorem SwitchCase.outlineAll_eq (cases : List SwitchCase) :
    SwitchCase.outlineAll cases = cases.flatMap SwitchCase.outlines :=
  eq_flatMap_of_cons rfl fun _ _ => rfl

theorem Member.outlineAll_eq (members : List Member) :
    Member.outlineAll members = members.flatMap fun member => [member.outline] :=
  eq_flatMap_of_cons rfl fun _ _ => rfl

/-! ## Outlines of whole texts -/

def Import.outline (item : Import) : Outline := .node .other item.span none []

def Document.outlines (document : Document) : List Outline :=
  document.imports.map Import.outline ++ [document.root.outline]

def Tree.outlines : Tree → List Outline
  | .document content => content.outlines
  | .script statements => Statement.outlineAll statements

end Qml
