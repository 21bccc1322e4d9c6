import Qml.Grammar.Declaration

/-! # Members

What stands between the braces of an element. If the first key of a block is a
string, all of its keys are, its members are divided by commas, and so it is in
the blocks inside it. -/

namespace Qml.Grammar

open Qml.Parser

variable (grammar : Grammar)

def dottedWord : Parser (Option String) := do
  if ← atPunctuation '.' then
    let _ ← advance
    return some (← expectWord)
  else
    return none

def qualifiedName : Parser QualifiedName := do
  let first ← expectWord
  let more ← collect dottedWord
  return ⟨first :: more⟩

def method : Parser Member := do
  let start ← token
  let (function, source) ← grammar.capture do
    let _ ← advance
    grammar.function true start.span
  return .method (function.name.getD "") function source

/-- A member after the word `signal`, which lies at `start`: a binding of that
name or the declaration of a signal. -/
def signalMember (start : Span) : Parser Member := do
  if ← atPunctuation ':' then
    let _ ← advance
    let value ← grammar.capturedValue grammar.statement
    return .binding ⟨["signal"]⟩ (.expression value) (← spanFrom start)
  else
    return .signal (← signal start)

def elementTarget : Parser (Option String) := do
  if ← atName "on" then
    let _ ← advance
    return some (← expectName)
  else
    return none

def elementTail (typeName : QualifiedName) (start : Span) : Parser Element := do
  let target ← elementTarget
  let members ← grammar.memberBlock
  return ⟨typeName, target, members, ← spanFrom start⟩

def bindingValue (stringKeys : Bool) (path : QualifiedName) : Parser BindingValue := do
  if stringKeys then
    return .expression (← grammar.keyedValue)
  else if path.isHandler then
    return .handler (← grammar.handlerValue)
  else
    return .expression (← grammar.propertyValue)

/-- A member that begins with a qualified name, at `start`: an element, a group
of properties or a binding. -/
def pathMember (stringKeys : Bool) (start : Span) : Parser Member := do
  let path ← qualifiedName
  if !stringKeys && path.isElementType then
    return .element (← grammar.elementTail path start)
  else if ← atPunctuation '{' then
    let members ← grammar.memberBlock
    return .group path members (← spanFrom start)
  else
    let _ ← expectPunctuation ':'
    let value ← grammar.bindingValue stringKeys path
    return .binding path value (← spanFrom start)

/-- A member that begins with a name, at `start`. Where keys are not strings,
`readonly` and `property` may begin a declaration. -/
def namedMember (stringKeys : Bool) (name : String) (start : Span) : Parser Member := do
  let next ← peek
  if !stringKeys && name = "readonly" && next.isName "property" then
    let _ ← advance
    let _ ← advance
    return .declaration (← grammar.declaration true start)
  else if !stringKeys && name = "property" && !next.isPunctuation ':' then
    let _ ← advance
    return .declaration (← grammar.declaration false start)
  else
    grammar.pathMember stringKeys start

def keyedMember (key : String) (start : Span) : Parser Member := do
  let _ ← advance
  let _ ← expectPunctuation ':'
  let value ← grammar.keyedValue
  return .binding ⟨[key]⟩ (.expression value) (← spanFrom start)

def defaultMember (start : Span) : Parser Member := do
  let _ ← advance
  let _ ← expectNameOf "property"
  return .defaultDeclaration (← grammar.declaration false start)

/-- A member told by its first token. A token that begins no member is passed
over; the member begins at `start`. -/
def memberByToken (first stringKeys : Bool) (start : Span) : Parser (Option Member) := do
  match (← token).kind with
  | .name name => return some (← grammar.namedMember stringKeys name start)
  | .keyword .default => return some (← grammar.defaultMember start)
  | .string key =>
    if first || stringKeys then
      enterStringKeys
      return some (← grammar.keyedMember key start)
    else
      unexpected
  | .number _ | .operator _ | .atom _ | .malformed _ => unexpected
  | .punctuation ';' =>
    if stringKeys then
      unexpected
    else
      let _ ← advance
      return none
  | .keyword _ | .regexp _ _ | .punctuation _ | .endOfInput =>
    skipToken start
    return none

/-- A member of a block whose keys are strings. A comma stands before every
member but the first, and may also stand after the last. -/
def memberAfterComma (first : Bool) (start : Span) : Parser (Option Member) := do
  if first then
    grammar.memberByToken first true start
  else
    let _ ← expectPunctuation ','
    if ← atPunctuation '}' then
      return none
    else
      grammar.memberByToken first true start

def member (first : Bool) : Parser (Option Member) := do
  let start ← token
  if (← scope).stringKeys then
    grammar.memberAfterComma first start.span
  else if start.isKeyword .function then
    return some (← grammar.method)
  else if start.isName "signal" then
    let _ ← advance
    return some (← grammar.signalMember start.span)
  else
    grammar.memberByToken first false start.span

def memberRound (first : Bool) : Parser (Option (Option Member)) := do
  if ← atPunctuation '}' then
    return none
  else if ← atEnd then
    unexpected
  else
    return some (← grammar.member first)

def members : Parser (List Member) := do
  match ← grammar.memberRound true with
  | none => return []
  | some first =>
    let more ← collect (grammar.memberRound false)
    return (first :: more).filterMap id

end Qml.Grammar
