import Qml.Parser.Loop
import Qml.Tree.Basic

/-! # Grammars

A text is parsed either as plain script or as declarative text, which adds
elements and pragmas to script. A grammar fixes that choice, and how the
productions that nest are parsed one level deeper: every cycle among the
productions goes through one of those, so each production is defined from the
ones before it. -/

namespace Qml

/-- Which of the two languages a text is in. In declarative text, a test with
`instanceof` is read as a call of `helper`, which also receives `component`. -/
inductive Dialect where
  | script
  | declarative (helper component : String)
deriving DecidableEq, Repr

/-- What stays the same throughout one parse. In a strict parse no semicolon may
be left out and no list may end in a comma. -/
structure Setting where
  source : List Char
  strict : Bool
  dialect : Dialect
deriving DecidableEq

/-- The productions that nest, as they are parsed one level deeper. -/
structure Deeper where
  statement : Parser Statement
  assignment : (noIn : Bool) → Parser Expr
  unary : (calls : Bool) → Parser Expr
  atom : (calls : Bool) → Parser Expr
  members : Parser (List Member)

/-- No level is left: every nesting is refused. -/
def Deeper.forbidden : Deeper where
  statement := Parser.refuse .nestingTooDeep
  assignment _ := Parser.refuse .nestingTooDeep
  unary _ := Parser.refuse .nestingTooDeep
  atom _ := Parser.refuse .nestingTooDeep
  members := Parser.refuse .nestingTooDeep

structure Grammar extends Setting where
  deeper : Deeper

namespace Grammar

open Qml.Parser

variable (grammar : Grammar)

/-! ## Semicolons -/

def canOmitSemicolon : Parser Bool := do
  let current ← token
  return !grammar.strict &&
    (current.afterLineBreak || current.isEnd || current.isPunctuation '}')

def semicolon : Parser Unit := do
  if ← atPunctuation ';' then
    let _ ← advance
  else if ← grammar.canOmitSemicolon then
    return ()
  else
    unexpected

/-! ## Captured source -/

/-- Parses and returns the source up to the token after, as the patches have it
read. -/
def capture {α : Type} (parser : Parser α) : Parser (α × String) := do
  let start ← offset
  let value ← parser
  let stop ← offset
  let source ← effectiveText grammar.source start stop
  return (value, String.ofList source)

/-- Captures in a context where `return` is allowed, as in a function's body. -/
def captureBody {α : Type} (parser : Parser α) : Parser (α × String) :=
  inScope Scope.inValue (grammar.capture parser)

end Grammar

end Qml
