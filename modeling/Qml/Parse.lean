import Qml.Grammar.Nesting

/-! # Parsing texts

The ways into the library: a file as a document or a script of declarative
text, and a plain script. -/

namespace Qml

inductive FileKind where
  | document
  | script
deriving DecidableEq, Repr

/-- How a file is parsed. `file` is named in errors, `strict` demands every
semicolon, `helper` and `component` occur in the source of tests with
`instanceof`, and `limit` bounds the nesting. -/
structure Options where
  kind : FileKind := .document
  file : Option String := none
  strict : Bool := false
  helper : String := "__qmlweb_instanceof"
  component : String := "__component"
  limit : Nat := 64
deriving DecidableEq, Repr

namespace Options

def grammar (options : Options) (text : List Char) : Grammar :=
  .within ⟨text, options.strict, .declarative options.helper options.component⟩ options.limit

def error (options : Options) (text : List Char) (fault : Fault) : Error :=
  { (Error.ofFault fault).withExcerpt text with file := options.file }

def tree (options : Options) (text : List Char) : Parser Tree :=
  match options.kind with
  | .document => return .document (← (options.grammar text).document)
  | .script => return .script (← (options.grammar text).script)

end Options

structure Report where
  outcome : Except Error Tree
  skipped : List SkippedToken

/-- Parses a text as it stands. `parse` brings it into normal form first. -/
def parseNormalized (options : Options) (text : List Char) : Report :=
  match options.tree text (.ofText text) with
  | .ok tree state => ⟨.ok tree, state.skipped⟩
  | .error fault state => ⟨.error (options.error text fault), state.skipped⟩

/-- Parses the content of a file. Line breaks of all kinds count as line feeds,
and positions and captured source are those of the text in that form. -/
def parse (options : Options) (source : String) : Report :=
  parseNormalized options (Text.normalize source).toList

def scriptLimit : Nat := 64

def scriptGrammar (strict : Bool) (text : List Char) : Grammar :=
  .within ⟨text, strict, .script⟩ scriptLimit

def parseScript (strict : Bool) (source : String) : Except Error (List Statement) :=
  let text := source.toList
  match (scriptGrammar strict text).script (.ofText text) with
  | .ok statements _ => .ok statements
  | .error fault _ => .error (.ofFault fault)

end Qml
