import Qml.Parse

/-! # How high trees are

The height of a tree is the length of its longest chain of statements,
expressions, members and alias paths, each inside the one before. There are five
links along which the grammar builds such chains without a level of nesting, as in
`a.b.c` and `a + b + c`. Whether a step along one of these counts can be chosen for
each. -/

namespace Qml

/-- Where the grammar puts what it has read so far into a new node without a level
of nesting: the left operand of an operation, what a property or an index is taken
from, what is called, and a path in the brackets of an alias path. -/
inductive Link where
  | operand
  | object
  | indexed
  | callee
  | bracket
deriving DecidableEq, Repr

section

variable (counts : Link → Bool)

def Link.step (link : Link) : Nat := if counts link then 1 else 0

mutual

def AliasPath.height : AliasPath → Nat
  | ⟨segments⟩ => max 1 (AliasSegment.heightAll segments)

def AliasSegment.height : AliasSegment → Nat
  | ⟨_, subscripts⟩ => AliasPath.heightAll subscripts

def AliasSegment.heightAll : List AliasSegment → Nat
  | [] => 0
  | segment :: rest => max segment.height (AliasSegment.heightAll rest)

def AliasPath.heightAll : List AliasPath → Nat
  | [] => 0
  | path :: rest => max (Link.step counts .bracket + path.height) (AliasPath.heightAll rest)

end

mutual

def Expr.height : Expr → Nat
  | ⟨kind, _⟩ => kind.height

def ExprKind.height : ExprKind → Nat
  | .number _ | .string _ | .regexp _ _ | .atom _ | .name _ => 1
  | .array elements _ => 1 + Expr.heightHoles elements
  | .object entries => 1 + ObjectEntry.heightAll entries
  | .function function => 1 + function.height
  | .dot object _ => Link.step counts .object + object.height
  | .subscript object index => max (Link.step counts .indexed + object.height) (1 + index.height)
  | .call callee arguments =>
    max (Link.step counts .callee + callee.height) (1 + Expr.heightAll arguments)
  | .construct callee arguments => 1 + max callee.height (Expr.heightAll arguments)
  | .unary _ _ operand => 1 + operand.height
  | .binary _ left right => max (Link.step counts .operand + left.height) (1 + right.height)
  | .conditional test consequent alternate =>
    1 + max test.height (max consequent.height alternate.height)
  | .assign _ target value => 1 + max target.height value.height
  | .sequence items => 1 + Expr.heightAll items
  | .element element => 1 + element.height

def Expr.heightAll : List Expr → Nat
  | [] => 0
  | expr :: rest => max expr.height (Expr.heightAll rest)

def Expr.heightOption : Option Expr → Nat
  | none => 0
  | some expr => expr.height

def Expr.heightHoles : List (Option Expr) → Nat
  | [] => 0
  | expr :: rest => max (Expr.heightOption expr) (Expr.heightHoles rest)

def ObjectEntry.height : ObjectEntry → Nat
  | ⟨_, _, value⟩ => value.height

def ObjectEntry.heightAll : List ObjectEntry → Nat
  | [] => 0
  | entry :: rest => max entry.height (ObjectEntry.heightAll rest)

def Function.height : Function → Nat
  | ⟨_, _, body, _⟩ => Statement.heightAll body

def Statement.height : Statement → Nat
  | ⟨kind, _⟩ => 1 + kind.height

def Statement.heightAll : List Statement → Nat
  | [] => 0
  | statement :: rest => max statement.height (Statement.heightAll rest)

def Statement.heightOption : Option Statement → Nat
  | none => 0
  | some statement => statement.height

def Statement.heightBlock : Option (List Statement) → Nat
  | none => 0
  | some body => Statement.heightAll body

def StatementKind.height : StatementKind → Nat
  | .empty | .break_ _ | .continue_ _ | .debugger | .pragma _ => 0
  | .block body => Statement.heightAll body
  | .expression value => value.height
  | .declare _ declarators => Declarator.heightAll declarators
  | .function function => function.height
  | .return_ value => Expr.heightOption value
  | .throw value => value.height
  | .conditional test consequent alternate =>
    max test.height (max consequent.height (Statement.heightOption alternate))
  | .whileLoop test body => max test.height body.height
  | .doWhileLoop body test => max body.height test.height
  | .forLoop init test update body =>
    max (max (Statement.heightOption init) (Expr.heightOption test))
      (max (Expr.heightOption update) body.height)
  | .forInLoop left right body => max left.height (max right.height body.height)
  | .switch discriminant cases => max discriminant.height (SwitchCase.heightAll cases)
  | .guarded block handler finalizer =>
    max (Statement.heightAll block)
      (max (CatchClause.heightOption handler) (Statement.heightBlock finalizer))
  | .labeled _ body => body.height
  | .with_ object body => max object.height body.height
  | .objectBlock members => Member.heightAll members

def Declarator.height : Declarator → Nat
  | ⟨_, init⟩ => Expr.heightOption init

def Declarator.heightAll : List Declarator → Nat
  | [] => 0
  | declarator :: rest => max declarator.height (Declarator.heightAll rest)

def SwitchCase.height : SwitchCase → Nat
  | ⟨test, body⟩ => max (Expr.heightOption test) (Statement.heightAll body)

def SwitchCase.heightAll : List SwitchCase → Nat
  | [] => 0
  | case :: rest => max case.height (SwitchCase.heightAll rest)

def CatchClause.height : CatchClause → Nat
  | ⟨_, body⟩ => Statement.heightAll body

def CatchClause.heightOption : Option CatchClause → Nat
  | none => 0
  | some clause => clause.height

def Element.height : Element → Nat
  | ⟨_, _, members, _⟩ => Member.heightAll members

def Member.height : Member → Nat
  | .element element => 1 + element.height
  | .group _ members _ => 1 + Member.heightAll members
  | .declaration declaration | .defaultDeclaration declaration => 1 + declaration.height
  | .signal _ => 1
  | .method _ function _ => 1 + function.height
  | .binding _ value _ => 1 + value.height

def Member.heightAll : List Member → Nat
  | [] => 0
  | member :: rest => max member.height (Member.heightAll rest)

def Declaration.height : Declaration → Nat
  | .property property => property.height
  | .aliased target => target.target.height counts

def Property.height : Property → Nat
  | ⟨_, _, _, _, value, _⟩ => Captured.heightOption value

def BindingValue.height : BindingValue → Nat
  | .expression value | .handler value => value.height

def Captured.height : Captured → Nat
  | ⟨node, _⟩ => node.height

def Captured.heightOption : Option Captured → Nat
  | none => 0
  | some value => value.height

end

def Tree.height : Tree → Nat
  | .document content => content.root.height counts
  | .script statements => Statement.heightAll counts statements

end

/-! ## Heights of lists -/

section

variable {counts : Link → Bool} {n : Nat}

/-- The height of a list is that of its highest tree. -/
theorem heights_le {α : Type} {height : α → Nat} {heights : List α → Nat} (nil : heights [] = 0)
    (cons : ∀ head rest, heights (head :: rest) = max (height head) (heights rest))
    {trees : List α} : heights trees ≤ n ↔ ∀ tree ∈ trees, height tree ≤ n := by
  induction trees with
  | nil => simp [nil]
  | cons head rest induction => rw [cons, Nat.max_le, induction, List.forall_mem_cons]

@[simp] theorem AliasSegment.heightAll_le {segments : List AliasSegment} :
    AliasSegment.heightAll counts segments ≤ n ↔
      ∀ segment ∈ segments, segment.height counts ≤ n :=
  heights_le rfl fun _ _ => rfl

@[simp] theorem AliasPath.heightAll_le {paths : List AliasPath} :
    AliasPath.heightAll counts paths ≤ n ↔
      ∀ path ∈ paths, Link.step counts .bracket + path.height counts ≤ n :=
  heights_le rfl fun _ _ => rfl

@[simp] theorem Expr.heightAll_le {exprs : List Expr} :
    Expr.heightAll counts exprs ≤ n ↔ ∀ expr ∈ exprs, expr.height counts ≤ n :=
  heights_le rfl fun _ _ => rfl

@[simp] theorem Expr.heightOption_le {expr : Option Expr} :
    Expr.heightOption counts expr ≤ n ↔ ∀ value ∈ expr, value.height counts ≤ n := by
  cases expr <;> simp [Expr.heightOption]

@[simp] theorem Expr.heightHoles_le {exprs : List (Option Expr)} :
    Expr.heightHoles counts exprs ≤ n ↔
      ∀ expr ∈ exprs, ∀ value ∈ expr, value.height counts ≤ n := by
  have holes : Expr.heightHoles counts exprs ≤ n ↔
      ∀ expr ∈ exprs, Expr.heightOption counts expr ≤ n :=
    heights_le rfl fun _ _ => rfl
  simpa only [Expr.heightOption_le] using holes

@[simp] theorem ObjectEntry.heightAll_le {entries : List ObjectEntry} :
    ObjectEntry.heightAll counts entries ≤ n ↔ ∀ entry ∈ entries, entry.height counts ≤ n :=
  heights_le rfl fun _ _ => rfl

@[simp] theorem Statement.heightAll_le {statements : List Statement} :
    Statement.heightAll counts statements ≤ n ↔
      ∀ statement ∈ statements, statement.height counts ≤ n :=
  heights_le rfl fun _ _ => rfl

@[simp] theorem Statement.heightOption_le {statement : Option Statement} :
    Statement.heightOption counts statement ≤ n ↔ ∀ value ∈ statement, value.height counts ≤ n := by
  cases statement <;> simp [Statement.heightOption]

@[simp] theorem Statement.heightBlock_le {body : Option (List Statement)} :
    Statement.heightBlock counts body ≤ n ↔
      ∀ statements ∈ body, ∀ statement ∈ statements, statement.height counts ≤ n := by
  cases body <;> simp [Statement.heightBlock]

@[simp] theorem Declarator.heightAll_le {declarators : List Declarator} :
    Declarator.heightAll counts declarators ≤ n ↔
      ∀ declarator ∈ declarators, declarator.height counts ≤ n :=
  heights_le rfl fun _ _ => rfl

@[simp] theorem SwitchCase.heightAll_le {cases : List SwitchCase} :
    SwitchCase.heightAll counts cases ≤ n ↔ ∀ case ∈ cases, case.height counts ≤ n :=
  heights_le rfl fun _ _ => rfl

@[simp] theorem CatchClause.heightOption_le {clause : Option CatchClause} :
    CatchClause.heightOption counts clause ≤ n ↔ ∀ value ∈ clause, value.height counts ≤ n := by
  cases clause <;> simp [CatchClause.heightOption]

@[simp] theorem Member.heightAll_le {members : List Member} :
    Member.heightAll counts members ≤ n ↔ ∀ member ∈ members, member.height counts ≤ n :=
  heights_le rfl fun _ _ => rfl

@[simp] theorem Captured.heightOption_le {value : Option Captured} :
    Captured.heightOption counts value ≤ n ↔ ∀ captured ∈ value, captured.height counts ≤ n := by
  cases value <;> simp [Captured.heightOption]

attribute [simp] AliasPath.height AliasSegment.height Expr.height ExprKind.height
  ObjectEntry.height Function.height Statement.height StatementKind.height Declarator.height
  SwitchCase.height CatchClause.height Element.height Member.height Declaration.height
  Property.height BindingValue.height Captured.height

end

end Qml
