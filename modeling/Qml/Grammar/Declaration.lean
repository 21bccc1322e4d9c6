import Qml.Grammar.Statement

/-! # Declarations

Values of properties, and the declarations of properties, aliases and signals. -/

namespace Qml.Grammar

open Qml.Parser

variable (grammar : Grammar)

/-! ## Values -/

def functionValue (start : Span) : Parser Statement := do
  let function ← grammar.functionAtom start
  return ⟨.expression function, function.span⟩

/-- A value is a block whose keys are strings, a function without a name, or
what is given as `otherwise`. -/
def valueOr (otherwise : Parser Statement) : Parser Statement := do
  let start ← token
  if start.isPunctuation '{' && (← peek).isString then
    let members ← grammar.memberBlock
    return ⟨.objectBlock members, ← spanFrom start.span⟩
  else if start.isKeyword .function then
    let _ ← advance
    grammar.functionValue start.span
  else
    otherwise

def bareExpression : Parser Statement := do
  let start ← token
  let value ← grammar.expression false false
  return ⟨.expression value, ← spanFrom start.span⟩

def capturedValue (parser : Parser Statement) : Parser Captured := do
  let (node, source) ← grammar.captureBody parser
  return ⟨node, source⟩

/-- A statement, which is a value if one is awaited, or else `otherwise`. -/
def slot (otherwise : Parser Statement) : Parser Statement := do
  let awaited ← takeAwaited
  pragmaOr (if awaited then grammar.valueOr otherwise else otherwise)

def propertyValue : Parser Captured := do
  awaitValue
  grammar.capturedValue (grammar.slot grammar.deeper.statement)

def keyedValue : Parser Captured := do
  awaitValue
  grammar.capturedValue (grammar.slot grammar.bareExpression)

def handlerValue : Parser Captured :=
  grammar.capturedValue grammar.deeper.statement

/-! ## Aliases -/

/-- An alias path in the making: the paths around the innermost bracket that is
open, the segments read so far, and whether a segment must come next. -/
structure AliasProgress where
  enclosing : List (List AliasSegment)
  segments : List AliasSegment
  awaitsSegment : Bool

def addSubscript (segments : List AliasSegment) (path : AliasPath) : List AliasSegment :=
  match segments with
  | [] => []
  | [last] => [{ last with subscripts := last.subscripts ++ [path] }]
  | segment :: next :: more => segment :: addSubscript (next :: more) path

def aliasSegment? (found : Token) : Option AliasSegment :=
  match found.kind with
  | .name name => some ⟨name, []⟩
  | .number _ => some ⟨found.text, []⟩
  | _ => none

def unbalancedPath {α : Type} : Parser α := do
  fail .unbalancedAliasPath (← token).span.origin

def aliasStep (progress : AliasProgress) : Parser (Option AliasProgress) := do
  let current ← token
  if progress.awaitsSegment then
    match aliasSegment? current with
    | none => expected "name"
    | some segment =>
      let _ ← advance
      return some ⟨progress.enclosing, progress.segments ++ [segment], false⟩
  else if current.isPunctuation '.' then
    let _ ← advance
    return some { progress with awaitsSegment := true }
  else if current.isPunctuation '[' then
    let _ ← advance
    return some ⟨progress.segments :: progress.enclosing, [], true⟩
  else if current.isPunctuation ']' then
    match progress.enclosing with
    | [] => unbalancedPath
    | parent :: rest =>
      let _ ← advance
      return some ⟨rest, addSubscript parent ⟨progress.segments⟩, false⟩
  else
    return none

def aliasPath : Parser AliasPath := do
  let progress ← iterate aliasStep ⟨[], [], true⟩
  if progress.enclosing.isEmpty then
    return ⟨progress.segments⟩
  else
    unbalancedPath

def aliasTail (readonly : Bool) (start : Span) (name : String) : Parser Alias := do
  let _ ← expectPunctuation ':'
  let target ← aliasPath
  skipPunctuation ';'
  return ⟨name, readonly, target, ← spanFrom start⟩

/-! ## Properties -/

/-- The name of a type, which may also be a reserved word. -/
def typeName? : TokenKind → Option String
  | .name name => some name
  | .keyword keyword => some keyword.text
  | _ => none

def typeName : Parser String := do
  match typeName? (← token).kind with
  | some name =>
    let _ ← advance
    return name
  | none => expected "type name"

def typeArgument : Parser (Option String) := do
  if ← atOperator .less then
    let _ ← advance
    let argument ← expectName
    if ← atOperator .greater then
      let _ ← advance
      return some argument
    else
      expected "'>'"
  else
    return none

/-- The value after the name of a property. Only a property that can be written
may do without. -/
def initialValue (readonly : Bool) : Parser (Option Captured) := do
  if ← atPunctuation ':' then
    let _ ← advance
    return some (← grammar.propertyValue)
  else if readonly then
    refuse .readonlyWithoutValue
  else
    skipPunctuation ';'
    return none

def declaration (readonly : Bool) (start : Span) : Parser Declaration := do
  let type ← typeName
  let argument ← typeArgument
  let name ← expectName
  if type = "alias" then
    return .aliased (← aliasTail readonly start name)
  else
    let value ← grammar.initialValue readonly
    return .property ⟨name, type, argument, readonly, value, ← spanFrom start⟩

/-! ## Signals -/

def parameterType? : TokenKind → Option String
  | .name name => some name
  | .keyword .var => some "var"
  | _ => none

def signalParameter : Parser SignalParameter := do
  match parameterType? (← token).kind with
  | some type =>
    let _ ← advance
    let name ← expectName
    return ⟨type, name⟩
  | none => expected "parameter type"

def signalParameters : Parser (List SignalParameter) := do
  if ← atPunctuation '(' then
    let _ ← advance
    listUntil ')' false signalParameter
  else
    return []

def signal (start : Span) : Parser Signal := do
  let name ← expectName
  let parameters ← signalParameters
  skipPunctuation ';'
  return ⟨name, parameters, ← spanFrom start⟩

end Qml.Grammar
