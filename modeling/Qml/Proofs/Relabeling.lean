import Qml.Grammar.Member

/-! # Labels of trees

The nodes of a tree carry labels that do not change what it says: where they lie,
and the source that was kept for them. A relabeling replaces these, so that two
trees are the same up to some labels if they become equal under a relabeling
that forgets them, or under one that moves those of the first to where the second
has them. What parsers return carries labels of the same kind, and what the grammar
asks of an expression does not depend on them. -/

namespace Qml

/-- What takes the place of each label. -/
structure Relabeling where
  position : Position → Position
  stop : Nat → Nat
  source : String → String
  arraySource : Option String → Option String

namespace Relabeling

def bare : Relabeling := ⟨fun _ => .start, fun _ => 0, fun _ => "", fun _ => none⟩

def identity : Relabeling := ⟨id, id, id, id⟩

def withoutSources : Relabeling := ⟨id, id, fun _ => "", Option.map fun _ => ""⟩

def withoutArraySources : Relabeling := ⟨id, id, id, fun _ => none⟩

end Relabeling

section

variable (labels : Relabeling)

def Span.relabel (span : Span) : Span := ⟨labels.position span.origin, labels.stop span.stop⟩

/-- A token without its spelling, which only counts for numbers. -/
def Token.relabel (token : Token) : Token :=
  ⟨token.kind, token.span.relabel labels, token.afterLineBreak,
    if token.isNumber then token.text else ""⟩

def Signal.relabel (signal : Signal) : Signal :=
  { signal with span := signal.span.relabel labels }

def Alias.relabel (target : Alias) : Alias := { target with span := target.span.relabel labels }

mutual

def Expr.relabel : Expr → Expr
  | ⟨kind, span⟩ => ⟨kind.relabel, span.relabel labels⟩

def ExprKind.relabel : ExprKind → ExprKind
  | .number value => .number value
  | .string value => .string value
  | .regexp pattern flags => .regexp pattern flags
  | .atom atom => .atom atom
  | .name name => .name name
  | .array elements source => .array (Expr.relabelHoles elements) (labels.arraySource source)
  | .object entries => .object (ObjectEntry.relabelAll entries)
  | .function function => .function function.relabel
  | .dot object property => .dot object.relabel property
  | .subscript object index => .subscript object.relabel index.relabel
  | .call callee arguments => .call callee.relabel (Expr.relabelAll arguments)
  | .construct callee arguments => .construct callee.relabel (Expr.relabelAll arguments)
  | .unary operator fixity operand => .unary operator fixity operand.relabel
  | .binary operator left right => .binary operator left.relabel right.relabel
  | .conditional test consequent alternate =>
    .conditional test.relabel consequent.relabel alternate.relabel
  | .assign operator target value => .assign operator target.relabel value.relabel
  | .sequence items => .sequence (Expr.relabelAll items)
  | .element element => .element element.relabel

def Expr.relabelAll : List Expr → List Expr
  | [] => []
  | expr :: rest => expr.relabel :: Expr.relabelAll rest

def Expr.relabelOption : Option Expr → Option Expr
  | none => none
  | some expr => some expr.relabel

def Expr.relabelHoles : List (Option Expr) → List (Option Expr)
  | [] => []
  | expr :: rest => Expr.relabelOption expr :: Expr.relabelHoles rest

def ObjectEntry.relabel : ObjectEntry → ObjectEntry
  | ⟨key, kind, value⟩ => ⟨key, kind, value.relabel⟩

def ObjectEntry.relabelAll : List ObjectEntry → List ObjectEntry
  | [] => []
  | entry :: rest => entry.relabel :: ObjectEntry.relabelAll rest

def Function.relabel : Function → Function
  | ⟨name, parameters, body, span⟩ =>
    ⟨name, parameters, Statement.relabelAll body, span.relabel labels⟩

def Statement.relabel : Statement → Statement
  | ⟨kind, span⟩ => ⟨kind.relabel, span.relabel labels⟩

def Statement.relabelAll : List Statement → List Statement
  | [] => []
  | statement :: rest => statement.relabel :: Statement.relabelAll rest

def Statement.relabelOption : Option Statement → Option Statement
  | none => none
  | some statement => some statement.relabel

def Statement.relabelBlock : Option (List Statement) → Option (List Statement)
  | none => none
  | some body => some (Statement.relabelAll body)

def StatementKind.relabel : StatementKind → StatementKind
  | .empty => .empty
  | .block body => .block (Statement.relabelAll body)
  | .expression value => .expression value.relabel
  | .declare kind declarators => .declare kind (Declarator.relabelAll declarators)
  | .function function => .function function.relabel
  | .return_ value => .return_ (Expr.relabelOption value)
  | .break_ label => .break_ label
  | .continue_ label => .continue_ label
  | .throw value => .throw value.relabel
  | .conditional test consequent alternate =>
    .conditional test.relabel consequent.relabel (Statement.relabelOption alternate)
  | .whileLoop test body => .whileLoop test.relabel body.relabel
  | .doWhileLoop body test => .doWhileLoop body.relabel test.relabel
  | .forLoop init test update body =>
    .forLoop (Statement.relabelOption init) (Expr.relabelOption test) (Expr.relabelOption update)
      body.relabel
  | .forInLoop left right body => .forInLoop left.relabel right.relabel body.relabel
  | .switch discriminant cases => .switch discriminant.relabel (SwitchCase.relabelAll cases)
  | .guarded block handler finalizer =>
    .guarded (Statement.relabelAll block) (CatchClause.relabelOption handler)
      (Statement.relabelBlock finalizer)
  | .labeled label body => .labeled label body.relabel
  | .with_ object body => .with_ object.relabel body.relabel
  | .debugger => .debugger
  | .pragma name => .pragma name
  | .objectBlock members => .objectBlock (Member.relabelAll members)

def Declarator.relabel : Declarator → Declarator
  | ⟨name, init⟩ => ⟨name, Expr.relabelOption init⟩

def Declarator.relabelAll : List Declarator → List Declarator
  | [] => []
  | declarator :: rest => declarator.relabel :: Declarator.relabelAll rest

def SwitchCase.relabel : SwitchCase → SwitchCase
  | ⟨test, body⟩ => ⟨Expr.relabelOption test, Statement.relabelAll body⟩

def SwitchCase.relabelAll : List SwitchCase → List SwitchCase
  | [] => []
  | case :: rest => case.relabel :: SwitchCase.relabelAll rest

def CatchClause.relabel : CatchClause → CatchClause
  | ⟨parameter, body⟩ => ⟨parameter, Statement.relabelAll body⟩

def CatchClause.relabelOption : Option CatchClause → Option CatchClause
  | none => none
  | some clause => some clause.relabel

def Element.relabel : Element → Element
  | ⟨typeName, target, members, span⟩ =>
    ⟨typeName, target, Member.relabelAll members, span.relabel labels⟩

def Member.relabel : Member → Member
  | .element element => .element element.relabel
  | .group path members span => .group path (Member.relabelAll members) (span.relabel labels)
  | .declaration declaration => .declaration declaration.relabel
  | .defaultDeclaration declaration => .defaultDeclaration declaration.relabel
  | .signal signal => .signal (signal.relabel labels)
  | .method name function source => .method name function.relabel (labels.source source)
  | .binding path value span => .binding path value.relabel (span.relabel labels)

def Member.relabelAll : List Member → List Member
  | [] => []
  | member :: rest => member.relabel :: Member.relabelAll rest

def Declaration.relabel : Declaration → Declaration
  | .property property => .property property.relabel
  | .aliased target => .aliased (target.relabel labels)

def Property.relabel : Property → Property
  | ⟨name, typeName, argument, readonly, value, span⟩ =>
    ⟨name, typeName, argument, readonly, Captured.relabelOption value, span.relabel labels⟩

def BindingValue.relabel : BindingValue → BindingValue
  | .expression value => .expression value.relabel
  | .handler value => .handler value.relabel

def Captured.relabel : Captured → Captured
  | ⟨node, source⟩ => ⟨node.relabel, labels.source source⟩

def Captured.relabelOption : Option Captured → Option Captured
  | none => none
  | some value => some value.relabel

end

def Import.relabel (item : Import) : Import := { item with span := item.span.relabel labels }

def Document.relabel (document : Document) : Document :=
  ⟨document.imports.map (Import.relabel labels), document.root.relabel labels⟩

def Tree.relabel : Tree → Tree
  | .document content => .document (content.relabel labels)
  | .script statements => .script (statements.map (Statement.relabel labels))

end

/-! ## Relabeling lists -/

section

variable (labels : Relabeling)

theorem eq_map_of_cons {α β : Type} {act : α → β} {all : List α → List β} (nil : all [] = [])
    (cons : ∀ head rest, all (head :: rest) = act head :: all rest) {list : List α} :
    all list = list.map act := by
  induction list with
  | nil => exact nil
  | cons head rest induction => rw [cons, induction, List.map_cons]

@[simp] theorem Expr.relabelAll_eq (exprs : List Expr) :
    Expr.relabelAll labels exprs = exprs.map (Expr.relabel labels) :=
  eq_map_of_cons rfl fun _ _ => rfl

@[simp] theorem Expr.relabelOption_eq (expr : Option Expr) :
    Expr.relabelOption labels expr = expr.map (Expr.relabel labels) := by
  cases expr <;> rfl

@[simp] theorem Expr.relabelHoles_eq (exprs : List (Option Expr)) :
    Expr.relabelHoles labels exprs = exprs.map (Option.map (Expr.relabel labels)) :=
  eq_map_of_cons rfl fun _ _ => by rw [Expr.relabelHoles, Expr.relabelOption_eq]

@[simp] theorem ObjectEntry.relabelAll_eq (entries : List ObjectEntry) :
    ObjectEntry.relabelAll labels entries = entries.map (ObjectEntry.relabel labels) :=
  eq_map_of_cons rfl fun _ _ => rfl

@[simp] theorem Statement.relabelAll_eq (statements : List Statement) :
    Statement.relabelAll labels statements = statements.map (Statement.relabel labels) :=
  eq_map_of_cons rfl fun _ _ => rfl

@[simp] theorem Statement.relabelOption_eq (statement : Option Statement) :
    Statement.relabelOption labels statement = statement.map (Statement.relabel labels) := by
  cases statement <;> rfl

@[simp] theorem Statement.relabelBlock_eq (body : Option (List Statement)) :
    Statement.relabelBlock labels body = body.map (List.map (Statement.relabel labels)) := by
  cases body <;> simp [Statement.relabelBlock]

@[simp] theorem Declarator.relabelAll_eq (declarators : List Declarator) :
    Declarator.relabelAll labels declarators = declarators.map (Declarator.relabel labels) :=
  eq_map_of_cons rfl fun _ _ => rfl

@[simp] theorem SwitchCase.relabelAll_eq (cases : List SwitchCase) :
    SwitchCase.relabelAll labels cases = cases.map (SwitchCase.relabel labels) :=
  eq_map_of_cons rfl fun _ _ => rfl

@[simp] theorem CatchClause.relabelOption_eq (clause : Option CatchClause) :
    CatchClause.relabelOption labels clause = clause.map (CatchClause.relabel labels) := by
  cases clause <;> rfl

@[simp] theorem Member.relabelAll_eq (members : List Member) :
    Member.relabelAll labels members = members.map (Member.relabel labels) :=
  eq_map_of_cons rfl fun _ _ => rfl

@[simp] theorem Captured.relabelOption_eq (value : Option Captured) :
    Captured.relabelOption labels value = value.map (Captured.relabel labels) := by
  cases value <;> rfl

attribute [simp] Expr.relabel ExprKind.relabel ObjectEntry.relabel Function.relabel
  Statement.relabel StatementKind.relabel Declarator.relabel SwitchCase.relabel
  CatchClause.relabel Element.relabel Member.relabel Declaration.relabel Property.relabel
  BindingValue.relabel Captured.relabel

end

/-! ## Keeping all labels -/

@[simp] theorem Span.relabel_identity (span : Span) : span.relabel .identity = span := rfl

mutual

theorem Expr.relabel_identity : ∀ expr : Expr, expr.relabel .identity = expr
  | ⟨kind, span⟩ => by rw [Expr.relabel, kind.relabel_identity, span.relabel_identity]

theorem ExprKind.relabel_identity : ∀ kind : ExprKind, kind.relabel .identity = kind
  | .number _ | .string _ | .regexp _ _ | .atom _ | .name _ => rfl
  | .array elements source => by
      rw [ExprKind.relabel, Expr.relabelHoles_identity elements]
      rfl
  | .object entries => by rw [ExprKind.relabel, ObjectEntry.relabelAll_identity entries]
  | .function function => by rw [ExprKind.relabel, function.relabel_identity]
  | .dot object property => by rw [ExprKind.relabel, object.relabel_identity]
  | .subscript object index => by
      rw [ExprKind.relabel, object.relabel_identity, index.relabel_identity]
  | .call callee arguments | .construct callee arguments => by
      rw [ExprKind.relabel, callee.relabel_identity, Expr.relabelAll_identity arguments]
  | .unary operator fixity operand => by rw [ExprKind.relabel, operand.relabel_identity]
  | .binary operator left right => by
      rw [ExprKind.relabel, left.relabel_identity, right.relabel_identity]
  | .conditional test consequent alternate => by
      rw [ExprKind.relabel, test.relabel_identity, consequent.relabel_identity,
        alternate.relabel_identity]
  | .assign operator target value => by
      rw [ExprKind.relabel, target.relabel_identity, value.relabel_identity]
  | .sequence items => by rw [ExprKind.relabel, Expr.relabelAll_identity items]
  | .element element => by rw [ExprKind.relabel, element.relabel_identity]

theorem Expr.relabelAll_identity : ∀ exprs : List Expr,
    Expr.relabelAll .identity exprs = exprs
  | [] => rfl
  | expr :: rest => by
      rw [Expr.relabelAll, expr.relabel_identity, Expr.relabelAll_identity rest]

theorem Expr.relabelOption_identity : ∀ expr : Option Expr,
    Expr.relabelOption .identity expr = expr
  | none => rfl
  | some expr => by rw [Expr.relabelOption, expr.relabel_identity]

theorem Expr.relabelHoles_identity : ∀ exprs : List (Option Expr),
    Expr.relabelHoles .identity exprs = exprs
  | [] => rfl
  | expr :: rest => by
      rw [Expr.relabelHoles, Expr.relabelOption_identity expr, Expr.relabelHoles_identity rest]

theorem ObjectEntry.relabel_identity : ∀ entry : ObjectEntry, entry.relabel .identity = entry
  | ⟨key, kind, value⟩ => by rw [ObjectEntry.relabel, value.relabel_identity]

theorem ObjectEntry.relabelAll_identity : ∀ entries : List ObjectEntry,
    ObjectEntry.relabelAll .identity entries = entries
  | [] => rfl
  | entry :: rest => by
      rw [ObjectEntry.relabelAll, entry.relabel_identity, ObjectEntry.relabelAll_identity rest]

theorem Function.relabel_identity : ∀ function : Function, function.relabel .identity = function
  | ⟨name, parameters, body, span⟩ => by
      rw [Function.relabel, Statement.relabelAll_identity body, span.relabel_identity]

theorem Statement.relabel_identity : ∀ statement : Statement,
    statement.relabel .identity = statement
  | ⟨kind, span⟩ => by rw [Statement.relabel, kind.relabel_identity, span.relabel_identity]

theorem Statement.relabelAll_identity : ∀ statements : List Statement,
    Statement.relabelAll .identity statements = statements
  | [] => rfl
  | statement :: rest => by
      rw [Statement.relabelAll, statement.relabel_identity, Statement.relabelAll_identity rest]

theorem Statement.relabelOption_identity : ∀ statement : Option Statement,
    Statement.relabelOption .identity statement = statement
  | none => rfl
  | some statement => by rw [Statement.relabelOption, statement.relabel_identity]

theorem Statement.relabelBlock_identity : ∀ body : Option (List Statement),
    Statement.relabelBlock .identity body = body
  | none => rfl
  | some body => by rw [Statement.relabelBlock, Statement.relabelAll_identity body]

theorem StatementKind.relabel_identity : ∀ kind : StatementKind, kind.relabel .identity = kind
  | .empty | .break_ _ | .continue_ _ | .debugger | .pragma _ => rfl
  | .block body => by rw [StatementKind.relabel, Statement.relabelAll_identity body]
  | .expression value => by rw [StatementKind.relabel, value.relabel_identity]
  | .declare kind declarators => by
      rw [StatementKind.relabel, Declarator.relabelAll_identity declarators]
  | .function function => by rw [StatementKind.relabel, function.relabel_identity]
  | .return_ value => by rw [StatementKind.relabel, Expr.relabelOption_identity value]
  | .throw value => by rw [StatementKind.relabel, value.relabel_identity]
  | .conditional test consequent alternate => by
      rw [StatementKind.relabel, test.relabel_identity, consequent.relabel_identity,
        Statement.relabelOption_identity alternate]
  | .whileLoop test body | .doWhileLoop body test => by
      rw [StatementKind.relabel, test.relabel_identity, body.relabel_identity]
  | .forLoop init test update body => by
      rw [StatementKind.relabel, Statement.relabelOption_identity init,
        Expr.relabelOption_identity test, Expr.relabelOption_identity update, body.relabel_identity]
  | .forInLoop left right body => by
      rw [StatementKind.relabel, left.relabel_identity, right.relabel_identity,
        body.relabel_identity]
  | .switch discriminant cases => by
      rw [StatementKind.relabel, discriminant.relabel_identity,
        SwitchCase.relabelAll_identity cases]
  | .guarded block handler finalizer => by
      rw [StatementKind.relabel, Statement.relabelAll_identity block,
        CatchClause.relabelOption_identity handler, Statement.relabelBlock_identity finalizer]
  | .labeled label body => by rw [StatementKind.relabel, body.relabel_identity]
  | .with_ object body => by
      rw [StatementKind.relabel, object.relabel_identity, body.relabel_identity]
  | .objectBlock members => by rw [StatementKind.relabel, Member.relabelAll_identity members]

theorem Declarator.relabel_identity : ∀ declarator : Declarator,
    declarator.relabel .identity = declarator
  | ⟨name, init⟩ => by rw [Declarator.relabel, Expr.relabelOption_identity init]

theorem Declarator.relabelAll_identity : ∀ declarators : List Declarator,
    Declarator.relabelAll .identity declarators = declarators
  | [] => rfl
  | declarator :: rest => by
      rw [Declarator.relabelAll, declarator.relabel_identity, Declarator.relabelAll_identity rest]

theorem SwitchCase.relabel_identity : ∀ case : SwitchCase, case.relabel .identity = case
  | ⟨test, body⟩ => by
      rw [SwitchCase.relabel, Expr.relabelOption_identity test, Statement.relabelAll_identity body]

theorem SwitchCase.relabelAll_identity : ∀ cases : List SwitchCase,
    SwitchCase.relabelAll .identity cases = cases
  | [] => rfl
  | case :: rest => by
      rw [SwitchCase.relabelAll, case.relabel_identity, SwitchCase.relabelAll_identity rest]

theorem CatchClause.relabel_identity : ∀ clause : CatchClause, clause.relabel .identity = clause
  | ⟨parameter, body⟩ => by rw [CatchClause.relabel, Statement.relabelAll_identity body]

theorem CatchClause.relabelOption_identity : ∀ clause : Option CatchClause,
    CatchClause.relabelOption .identity clause = clause
  | none => rfl
  | some clause => by rw [CatchClause.relabelOption, clause.relabel_identity]

theorem Element.relabel_identity : ∀ element : Element, element.relabel .identity = element
  | ⟨typeName, target, members, span⟩ => by
      rw [Element.relabel, Member.relabelAll_identity members, span.relabel_identity]

theorem Member.relabel_identity : ∀ member : Member, member.relabel .identity = member
  | .element element => by rw [Member.relabel, element.relabel_identity]
  | .group path members span => by
      rw [Member.relabel, Member.relabelAll_identity members, span.relabel_identity]
  | .declaration declaration | .defaultDeclaration declaration => by
      rw [Member.relabel, declaration.relabel_identity]
  | .signal signal => rfl
  | .method name function source => by
      rw [Member.relabel, function.relabel_identity]
      rfl
  | .binding path value span => by
      rw [Member.relabel, value.relabel_identity, span.relabel_identity]

theorem Member.relabelAll_identity : ∀ members : List Member,
    Member.relabelAll .identity members = members
  | [] => rfl
  | member :: rest => by
      rw [Member.relabelAll, member.relabel_identity, Member.relabelAll_identity rest]

theorem Declaration.relabel_identity : ∀ declaration : Declaration,
    declaration.relabel .identity = declaration
  | .property property => by rw [Declaration.relabel, property.relabel_identity]
  | .aliased target => rfl

theorem Property.relabel_identity : ∀ property : Property, property.relabel .identity = property
  | ⟨name, typeName, argument, readonly, value, span⟩ => by
      rw [Property.relabel, Captured.relabelOption_identity value, span.relabel_identity]

theorem BindingValue.relabel_identity : ∀ value : BindingValue, value.relabel .identity = value
  | .expression value | .handler value => by rw [BindingValue.relabel, value.relabel_identity]

theorem Captured.relabel_identity : ∀ value : Captured, value.relabel .identity = value
  | ⟨node, source⟩ => by
      rw [Captured.relabel, node.relabel_identity]
      rfl

theorem Captured.relabelOption_identity : ∀ value : Option Captured,
    Captured.relabelOption .identity value = value
  | none => rfl
  | some value => by rw [Captured.relabelOption, value.relabel_identity]

end

theorem Document.relabel_identity (document : Document) :
    document.relabel .identity = document := by
  have imports : document.imports.map (Import.relabel .identity) = document.imports :=
    List.map_id' _
  rw [Document.relabel, imports, document.root.relabel_identity]

theorem Tree.relabel_identity : ∀ tree : Tree, tree.relabel .identity = tree
  | .document content => by rw [Tree.relabel, content.relabel_identity]
  | .script statements => by
      rw [Tree.relabel, ← Statement.relabelAll_eq, Statement.relabelAll_identity statements]

/-! ## Labels of what parsers return -/

/-- A type whose values may carry labels. Of a token some of the spelling is lost
when it is relabeled, but no more of it when that is done again. -/
class Labeled (α : Type) where
  relabel : Relabeling → α → α
  relabel_identity : ∀ labels value, relabel .identity (relabel labels value) = relabel labels value

class Unlabeled (α : Type) [Labeled α] : Prop where
  relabel_eq : ∀ labels (value : α), Labeled.relabel labels value = value

def Relabeling.Same {α : Type} [Labeled α] (labels : Relabeling) (first second : α) : Prop :=
  Labeled.relabel labels first = Labeled.relabel labels second

/-- What takes the place of the labels on either side of a comparison. Either the
same labels are forgotten on both sides, or those of the second side stay and
those of the first are moved to where they stand in the second. -/
structure Labels where
  first : Relabeling
  second : Relabeling
  moves : second = first ∨ second = .identity
  arraySource_none : first.arraySource none = second.arraySource none

namespace Labels

def both (labels : Relabeling) : Labels := ⟨labels, labels, .inl rfl, rfl⟩

def moved (labels : Relabeling) (keepsNone : labels.arraySource none = none) : Labels :=
  ⟨labels, .identity, .inr rfl, keepsNone⟩

def Same {α : Type} [Labeled α] (labels : Labels) (first second : α) : Prop :=
  Labeled.relabel labels.first first = Labeled.relabel labels.second second

theorem same_of_unmoved {α : Type} [Labeled α] {labels : Labels}
    (unmoved : labels.second = labels.first) (value : α) : labels.Same value value := by
  unfold Same
  rw [unmoved]

theorem exists_same {α : Type} [Labeled α] (labels : Labels) (value : α) :
    ∃ other, labels.Same value other := by
  unfold Same
  rcases labels.moves with both | moved
  · exact ⟨value, by rw [both]⟩
  · exact ⟨Labeled.relabel labels.first value, by rw [moved, Labeled.relabel_identity]⟩

theorem forall_of_same {α : Type} [Labeled α] (labels : Labels) {motive : α → Prop}
    (holds : ∀ {value other}, labels.Same value other → motive value) (value : α) :
    motive value :=
  (labels.exists_same value).elim fun _ same => holds same

end Labels

theorem Relabeling.Same.both {α : Type} [Labeled α] {labels : Relabeling} {first second : α}
    (same : labels.Same first second) : (Labels.both labels).Same first second := same

section

variable {α : Type} [Labeled α]

instance : Labeled (Option α) where
  relabel labels := Option.map (Labeled.relabel labels)
  relabel_identity labels value := by
    rw [Option.map_map]
    exact Option.map_congr fun value _ => Labeled.relabel_identity labels value

instance : Labeled (List α) where
  relabel labels := List.map (Labeled.relabel labels)
  relabel_identity labels values := by
    rw [List.map_map]
    exact List.map_congr_left fun value _ => Labeled.relabel_identity labels value

instance : Labeled (α × String) where
  relabel labels pair := (Labeled.relabel labels pair.1, labels.source pair.2)
  relabel_identity labels pair := by
    rw [Labeled.relabel_identity]
    rfl

instance : Labeled Span := ⟨Span.relabel, fun _ _ => rfl⟩

instance : Labeled Token where
  relabel := Token.relabel
  relabel_identity labels token := by
    by_cases number : token.isNumber = true <;>
      simp_all [Token.relabel, Token.isNumber]

instance : Labeled Expr := ⟨Expr.relabel, fun _ _ => Expr.relabel_identity _⟩

instance : Labeled ObjectEntry := ⟨ObjectEntry.relabel, fun _ _ => ObjectEntry.relabel_identity _⟩

instance : Labeled Function := ⟨Function.relabel, fun _ _ => Function.relabel_identity _⟩

instance : Labeled Statement := ⟨Statement.relabel, fun _ _ => Statement.relabel_identity _⟩

instance : Labeled StatementKind :=
  ⟨StatementKind.relabel, fun _ _ => StatementKind.relabel_identity _⟩

instance : Labeled Declarator := ⟨Declarator.relabel, fun _ _ => Declarator.relabel_identity _⟩

instance : Labeled SwitchCase := ⟨SwitchCase.relabel, fun _ _ => SwitchCase.relabel_identity _⟩

instance : Labeled CatchClause := ⟨CatchClause.relabel, fun _ _ => CatchClause.relabel_identity _⟩

instance : Labeled Element := ⟨Element.relabel, fun _ _ => Element.relabel_identity _⟩

instance : Labeled Member := ⟨Member.relabel, fun _ _ => Member.relabel_identity _⟩

instance : Labeled Declaration := ⟨Declaration.relabel, fun _ _ => Declaration.relabel_identity _⟩

instance : Labeled BindingValue :=
  ⟨BindingValue.relabel, fun _ _ => BindingValue.relabel_identity _⟩

instance : Labeled Captured := ⟨Captured.relabel, fun _ _ => Captured.relabel_identity _⟩

instance : Labeled Signal := ⟨Signal.relabel, fun _ _ => rfl⟩

instance : Labeled Alias := ⟨Alias.relabel, fun _ _ => rfl⟩

instance : Labeled Import := ⟨Import.relabel, fun _ _ => rfl⟩

instance : Labeled Document := ⟨Document.relabel, fun _ _ => Document.relabel_identity _⟩

instance : Labeled Tree := ⟨Tree.relabel, fun _ _ => Tree.relabel_identity _⟩

instance : Labeled Unit := ⟨fun _ => id, fun _ _ => rfl⟩

instance : Labeled Bool := ⟨fun _ => id, fun _ _ => rfl⟩

instance : Labeled String := ⟨fun _ => id, fun _ _ => rfl⟩

instance : Labeled QualifiedName := ⟨fun _ => id, fun _ _ => rfl⟩

instance : Labeled AliasPath := ⟨fun _ => id, fun _ _ => rfl⟩

instance : Labeled Grammar.AliasProgress := ⟨fun _ => id, fun _ _ => rfl⟩

instance : Labeled SignalParameter := ⟨fun _ => id, fun _ _ => rfl⟩

instance : Labeled (String × Bool) := ⟨fun _ => id, fun _ _ => rfl⟩

instance : Unlabeled Unit := ⟨fun _ _ => rfl⟩

instance : Unlabeled Bool := ⟨fun _ _ => rfl⟩

instance : Unlabeled String := ⟨fun _ _ => rfl⟩

instance : Unlabeled QualifiedName := ⟨fun _ _ => rfl⟩

instance : Unlabeled AliasPath := ⟨fun _ _ => rfl⟩

instance : Unlabeled Grammar.AliasProgress := ⟨fun _ _ => rfl⟩

instance : Unlabeled SignalParameter := ⟨fun _ _ => rfl⟩

instance : Unlabeled (String × Bool) := ⟨fun _ _ => rfl⟩

instance [unlabeled : Unlabeled α] : Unlabeled (Option α) := by
  constructor
  intro labels value
  cases value with
  | none => rfl
  | some value => exact congrArg some (unlabeled.relabel_eq labels value)

instance [unlabeled : Unlabeled α] : Unlabeled (List α) := by
  constructor
  intro labels values
  exact (List.map_congr_left fun value _ => unlabeled.relabel_eq labels value).trans
    (List.map_id' values)

attribute [simp] Labeled.relabel Relabeling.Same Labels.Same

end

/-! ## What does not depend on labels -/

section

variable (labels : Relabeling)

@[simp] theorem Expr.relabel_span (expr : Expr) :
    (expr.relabel labels).span = expr.span.relabel labels := by
  cases expr
  rfl

@[simp] theorem Expr.relabel_kind (expr : Expr) :
    (expr.relabel labels).kind = expr.kind.relabel labels := by
  cases expr
  rfl

@[simp] theorem Function.relabel_name (function : Function) :
    (function.relabel labels).name = function.name := by
  cases function
  rfl

theorem Expr.isAssignable_relabel (expr : Expr) :
    (expr.relabel labels).isAssignable = expr.isAssignable := by
  rcases expr with ⟨kind, span⟩
  cases kind <;> rfl

theorem Expr.segments?_relabel (expr : Expr) :
    (expr.relabel labels).segments? = expr.segments? := by
  fun_induction Expr.segments? expr with
  | case1 name span => rfl
  | case2 object property span induction => simp [Expr.segments?, induction]
  | case3 expr notName notDot =>
      rcases expr with ⟨kind, span⟩
      cases kind with
      | name name => exact absurd rfl (notName name span)
      | dot object property => exact absurd rfl (notDot object property span)
      | _ => rfl

theorem Grammar.relabel_of_simpleAtom? {kind : TokenKind} {atom : ExprKind}
    (simple : simpleAtom? kind = some atom) : atom.relabel labels = atom := by
  cases kind <;> cases simple <;> rfl

theorem Grammar.declaresSeveral_relabel (statement : Statement) :
    declaresSeveral (statement.relabel labels) = declaresSeveral statement := by
  rcases statement with ⟨kind, span⟩
  cases kind <;> simp [declaresSeveral]

theorem Grammar.joinSequence_relabel (first rest : Expr) :
    (joinSequence first rest).relabel labels =
      joinSequence (first.relabel labels) (rest.relabel labels) := by
  rcases rest with ⟨kind, span⟩
  cases kind <;> simp [joinSequence, Span.through, Span.relabel]

theorem Grammar.sequenceOf_relabel (first : Expr) (more : List Expr) :
    (sequenceOf first more).relabel labels =
      sequenceOf (first.relabel labels) (more.map (Expr.relabel labels)) := by
  induction more generalizing first with
  | nil => rfl
  | cons second more induction => simp [sequenceOf, joinSequence_relabel, induction]

end

namespace Labels.Same

variable {labels : Labels} {α : Type}

theorem relabel_eq [Labeled α] {first second : α} (same : labels.Same first second) :
    Labeled.relabel labels.first first = Labeled.relabel labels.second second := same

theorem eq [Labeled α] [unlabeled : Unlabeled α] {first second : α}
    (same : labels.Same first second) : first = second := by
  have relabeled := same.relabel_eq
  rwa [unlabeled.relabel_eq, unlabeled.relabel_eq] at relabeled

section

variable {first second : Token} (same : labels.Same first second)

include same

theorem kind_eq : first.kind = second.kind := by
  have kinds := congrArg Token.kind same.relabel_eq
  exact kinds

theorem isPunctuation_eq (mark : Char) : first.isPunctuation mark = second.isPunctuation mark := by
  simp [Token.isPunctuation, same.kind_eq]

theorem isOperator_eq (operator : Operator) :
    first.isOperator operator = second.isOperator operator := by
  simp [Token.isOperator, same.kind_eq]

theorem isKeyword_eq (keyword : Keyword) : first.isKeyword keyword = second.isKeyword keyword := by
  simp [Token.isKeyword, same.kind_eq]

theorem isName_eq (text : String) : first.isName text = second.isName text := by
  simp [Token.isName, same.kind_eq]

theorem isEnd_eq : first.isEnd = second.isEnd := by simp [Token.isEnd, same.kind_eq]

theorem isString_eq : first.isString = second.isString := by
  simp [Token.isString, same.kind_eq]

theorem isNumber_eq : first.isNumber = second.isNumber := by
  simp [Token.isNumber, same.kind_eq]

theorem afterLineBreak_eq : first.afterLineBreak = second.afterLineBreak := by
  have breaks := congrArg Token.afterLineBreak same.relabel_eq
  exact breaks

theorem span : labels.Same first.span second.span := congrArg Token.span same

theorem text_eq (number : first.isNumber = true) : first.text = second.text := by
  have number' : second.isNumber = true := same.isNumber_eq ▸ number
  have texts := congrArg Token.text same
  simpa [Labeled.relabel, Token.relabel, number, number'] using texts

end

theorem origin_eq {first second : Span} (same : labels.Same first second) :
    labels.first.position first.origin = labels.second.position second.origin :=
  congrArg Span.origin same

theorem stop_eq {first second : Span} (same : labels.Same first second) :
    labels.first.stop first.stop = labels.second.stop second.stop :=
  congrArg Span.stop same

theorem endingAt {first second : Span} {stop other : Nat} (same : labels.Same first second)
    (stops : labels.first.stop stop = labels.second.stop other) :
    labels.Same (first.endingAt stop) (second.endingAt other) := by
  have origins := same.origin_eq
  simp [Span.endingAt, Span.relabel, origins, stops]

theorem through {first second left right : Span} (same : labels.Same first second)
    (ends : labels.Same left right) : labels.Same (first.through left) (second.through right) :=
  same.endingAt ends.stop_eq

section

variable {first second : Expr} (same : labels.Same first second)

include same

theorem exprSpan : labels.Same first.span second.span := by
  have spans := congrArg Expr.span same
  simpa using spans

theorem exprKind : first.kind.relabel labels.first = second.kind.relabel labels.second := by
  have kinds := congrArg Expr.kind same.relabel_eq
  simpa using kinds

theorem isAssignable_eq : first.isAssignable = second.isAssignable := by
  rw [← first.isAssignable_relabel labels.first, ← second.isAssignable_relabel labels.second]
  exact congrArg Expr.isAssignable same

theorem qualifiedName?_eq : first.qualifiedName? = second.qualifiedName? := by
  have segments : first.segments? = second.segments? := by
    rw [← first.segments?_relabel labels.first, ← second.segments?_relabel labels.second]
    exact congrArg Expr.segments? same
  unfold Expr.qualifiedName?
  rw [segments]

theorem sequenceOf {more others : List Expr} (rest : labels.Same more others) :
    labels.Same (Grammar.sequenceOf first more) (Grammar.sequenceOf second others) := by
  have firsts : first.relabel labels.first = second.relabel labels.second := same
  have rests : more.map (Expr.relabel labels.first) = others.map (Expr.relabel labels.second) :=
    rest
  change Expr.relabel labels.first _ = Expr.relabel labels.second _
  rw [Grammar.sequenceOf_relabel, Grammar.sequenceOf_relabel, firsts, rests]

end

theorem isNone_eq [Labeled α] {first second : Option α} (same : labels.Same first second) :
    first.isNone = second.isNone := by
  have nones := congrArg Option.isNone same.relabel_eq
  simpa [Labeled.relabel] using nones

theorem filterMap_id [Labeled α] {first second : List (Option α)}
    (same : labels.Same first second) :
    labels.Same (first.filterMap id) (second.filterMap id) := by
  have commutes : ∀ (side : Relabeling) (values : List (Option α)),
      (values.filterMap id).map (Labeled.relabel side) =
        (values.map (Labeled.relabel side)).filterMap id := by
    intro side values
    rw [List.filterMap_map, List.map_filterMap]
    rfl
  change List.map _ _ = List.map _ _
  rw [commutes, commutes]
  exact congrArg (List.filterMap id) same.relabel_eq

theorem declaresSeveral_eq {first second : Statement} (same : labels.Same first second) :
    Grammar.declaresSeveral first = Grammar.declaresSeveral second := by
  rw [← Grammar.declaresSeveral_relabel labels.first first,
    ← Grammar.declaresSeveral_relabel labels.second second]
  exact congrArg Grammar.declaresSeveral same

end Labels.Same

theorem Labels.Same.expr_eq {expr other : Expr} (same : (both .identity).Same expr other) :
    expr = other := by
  rw [← expr.relabel_identity, ← other.relabel_identity]
  exact same

theorem Labels.Same.tree_eq {tree other : Tree} (same : (both .identity).Same tree other) :
    tree = other := by
  rw [← tree.relabel_identity, ← other.relabel_identity]
  exact same

theorem Labels.Same.statements_eq {statements others : List Statement}
    (same : (both .identity).Same statements others) : statements = others := by
  have kept := Tree.relabel_identity (.script statements)
  have kept' := Tree.relabel_identity (.script others)
  rw [Tree.relabel] at kept kept'
  exact Tree.script.inj (kept.symm.trans ((congrArg Tree.script same).trans kept'))

end Qml
