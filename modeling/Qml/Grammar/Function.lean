import Qml.Grammar.Basic

/-! # Functions and blocks

Statements as they occur inside other constructs, blocks of statements, and
functions, which have a block as their body. -/

namespace Qml.Grammar

open Qml.Parser

variable (grammar : Grammar)

def pragma : Parser Statement := do
  let dot ← advance
  let _ ← advance
  let name ← expectWord
  skipPunctuation ';'
  return ⟨.pragma name, ← spanFrom dot.span⟩

/-- In declarative text a statement may be a pragma; a dot cannot begin any
other statement. -/
def pragmaOr (otherwise : Parser Statement) : Parser Statement := do
  if ← atPunctuation '.' then
    if (← peek).isName "pragma" then pragma else unexpected
  else
    otherwise

/-- A statement inside another construct. No value is awaited there: what awaits
one takes it as its first statement. -/
def statement : Parser Statement :=
  match grammar.dialect with
  | .script => grammar.deeper.statement
  | .declarative _ _ => do
    let _ ← takeAwaited
    pragmaOr grammar.deeper.statement

def blockItem : Parser (Option Statement) := do
  if ← atPunctuation '}' then
    return none
  else if ← atEnd then
    unexpected
  else
    return some (← grammar.statement)

def block : Parser (List Statement) := do
  let _ ← expectPunctuation '{'
  let statements ← collect grammar.blockItem
  let _ ← advance
  return statements

def functionName (required : Bool) : Parser (Option String) := do
  match (← token).kind.name? with
  | some name =>
    let _ ← advance
    return some name
  | none => if required then expected "name" else return none

def function (named : Bool) (start : Span) : Parser Function := do
  let name ← functionName named
  let _ ← expectPunctuation '('
  let parameters ← listUntil ')' false expectName
  let body ← inScope Scope.inFunction grammar.block
  return ⟨name, parameters, body, ← spanFrom start⟩

end Qml.Grammar
