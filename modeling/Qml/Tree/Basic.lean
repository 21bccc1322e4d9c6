import Qml.Number.Binary64
import Qml.Source.Position
import Qml.Text.Blank
import Qml.Token.Word
import Qml.Tree.Alias
import Qml.Tree.Name

/-! # Trees

What a text means: a document of elements, or a script of statements. Elements
hold script in their values, and script may hold elements again, so the node
types are declared together. Each node with a place of its own has a span. -/

namespace Qml

inductive EntryKind where
  | value
  | getter
  | setter
deriving DecidableEq, Repr

inductive VariableKind where
  | var
  | const
deriving DecidableEq, Repr

inductive Fixity where
  | before
  | after
deriving DecidableEq, Repr

structure SignalParameter where
  typeName : String
  name : String
deriving DecidableEq, Repr

structure Signal where
  name : String
  parameters : List SignalParameter
  span : Span
deriving DecidableEq, Repr

structure Alias where
  name : String
  readonly : Bool
  target : AliasPath
  span : Span

/-- An import: `import Module.Path 1.0 as Name` if `dotted` is set, and otherwise
`import "path" as Name`. The version is kept as written. -/
structure Import where
  path : List String
  version : Option String
  qualifier : Option String
  dotted : Bool
  span : Span
deriving DecidableEq, Repr

def Import.moduleName (item : Import) : String := ".".intercalate item.path

mutual

/-- An expression; parentheses around it belong to its span. -/
structure Expr where
  kind : ExprKind
  span : Span

/-- Forms of expressions. An array literal has holes where nothing stands
between two commas; in a document it also keeps its source. -/
inductive ExprKind where
  | number (value : Binary64)
  | string (value : String)
  | regexp (pattern flags : String)
  | atom (atom : Atom)
  | name (name : String)
  | array (elements : List (Option Expr)) (source : Option String)
  | object (entries : List ObjectEntry)
  | function (function : Function)
  | dot (object : Expr) (property : String)
  | subscript (object index : Expr)
  | call (callee : Expr) (arguments : List Expr)
  | construct (callee : Expr) (arguments : List Expr)
  | unary (operator : Operator) (fixity : Fixity) (operand : Expr)
  | binary (operator : Operator) (left right : Expr)
  | conditional (test consequent alternate : Expr)
  | assign (operator : Operator) (target value : Expr)
  | sequence (items : List Expr)
  | element (element : Element)

/-- An entry of an object literal; the value of an accessor is its function. -/
structure ObjectEntry where
  key : String
  kind : EntryKind
  value : Expr

structure Function where
  name : Option String
  parameters : List String
  body : List Statement
  span : Span

structure Statement where
  kind : StatementKind
  span : Span

/-- Forms of statements. The last two occur only in declarative texts. -/
inductive StatementKind where
  | empty
  | block (body : List Statement)
  | expression (value : Expr)
  | declare (kind : VariableKind) (declarators : List Declarator)
  | function (function : Function)
  | return_ (value : Option Expr)
  | break_ (label : Option String)
  | continue_ (label : Option String)
  | throw (value : Expr)
  | conditional (test : Expr) (consequent : Statement) (alternate : Option Statement)
  | whileLoop (test : Expr) (body : Statement)
  | doWhileLoop (body : Statement) (test : Expr)
  | forLoop (init : Option Statement) (test update : Option Expr) (body : Statement)
  | forInLoop (left : Statement) (right : Expr) (body : Statement)
  | switch (discriminant : Expr) (cases : List SwitchCase)
  | guarded (block : List Statement) (handler : Option CatchClause)
      (finalizer : Option (List Statement))
  | labeled (label : String) (body : Statement)
  | with_ (object : Expr) (body : Statement)
  | debugger
  | pragma (name : String)
  | objectBlock (members : List Member)

structure Declarator where
  name : String
  init : Option Expr

/-- A case of a `switch`; the default case has no test. -/
structure SwitchCase where
  test : Option Expr
  body : List Statement

structure CatchClause where
  parameter : String
  body : List Statement

/-- An element, `Type { members }` or `Type on target { members }`. -/
structure Element where
  typeName : QualifiedName
  target : Option String
  members : List Member
  span : Span

inductive Member where
  | element (element : Element)
  | group (path : QualifiedName) (members : List Member) (span : Span)
  | declaration (declaration : Declaration)
  | defaultDeclaration (declaration : Declaration)
  | signal (signal : Signal)
  | method (name : String) (function : Function) (source : String)
  | binding (path : QualifiedName) (value : BindingValue) (span : Span)

inductive Declaration where
  | property (property : Property)
  | aliased (target : Alias)

structure Property where
  name : String
  typeName : String
  argument : Option String
  readonly : Bool
  value : Option Captured
  span : Span

/-- The value of a binding. A handler is script that runs when a signal fires;
any other value may itself be declarative. -/
inductive BindingValue where
  | expression (value : Captured)
  | handler (value : Captured)

/-- A statement with the source that it was parsed from. The source runs up to
the token after the statement. -/
structure Captured where
  node : Statement
  source : String

end

structure Document where
  imports : List Import
  root : Element

inductive Tree where
  | document (document : Document)
  | script (statements : List Statement)

namespace Expr

def name? (expr : Expr) : Option String :=
  match expr.kind with
  | .name name => some name
  | _ => none

def isAssignable (expr : Expr) : Bool :=
  match expr.kind with
  | .name _ | .dot _ _ | .subscript _ _ | .call _ _ => true
  | _ => false

def segments? : Expr → Option (List String)
  | ⟨.name name, _⟩ => some [name]
  | ⟨.dot object property, _⟩ => (object.segments?).map (· ++ [property])
  | _ => none

def qualifiedName? (expr : Expr) : Option QualifiedName :=
  expr.segments?.map fun segments => ⟨segments⟩

end Expr

def Statement.expression? (statement : Statement) : Option Expr :=
  match statement.kind with
  | .expression value => some value
  | _ => none

namespace BindingValue

def captured : BindingValue → Captured
  | expression value => value
  | handler value => value

def isHandler : BindingValue → Bool
  | expression _ => false
  | handler _ => true

end BindingValue

def Captured.trimmedSource (captured : Captured) : String :=
  Text.trim captured.source

end Qml
