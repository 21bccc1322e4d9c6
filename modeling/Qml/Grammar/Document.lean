import Qml.Grammar.Member

/-! # Documents

A document is a list of imports and one root element. -/

namespace Qml.Grammar

open Qml.Parser

variable (grammar : Grammar)

/-! ## Imports -/

/-- The first part of what is imported, and whether it is a dotted name. -/
def importHead? : TokenKind → Option (String × Bool)
  | .name name => some (name, true)
  | .string path => some (path, false)
  | _ => none

def importHead : Parser (String × Bool) := do
  match importHead? (← token).kind with
  | some head =>
    let _ ← advance
    return head
  | none => expected "module name"

def importVersion : Parser (Option String) := do
  let current ← token
  if current.isNumber then
    let _ ← advance
    return some current.text
  else
    return none

def importQualifier : Parser (Option String) := do
  if ← atName "as" then
    let _ ← advance
    return some (← expectName)
  else
    return none

def importItem : Parser (Option Import) := do
  let start ← token
  if start.isName "import" then
    let _ ← advance
    let (head, dotted) ← importHead
    let more ← collect dottedWord
    let version ← importVersion
    let qualifier ← importQualifier
    skipPunctuation ';'
    return some ⟨head :: more, version, qualifier, dotted, ← spanFrom start.span⟩
  else
    return none

/-! ## The root -/

def rootElement : Parser Element := do
  let start ← token
  match ← grammar.member false with
  | some (.element element) => return element
  | _ => fail .missingRootElement start.span.origin

def document : Parser Document := do
  let imports ← collect importItem
  if ← atEnd then
    unexpected
  else
    let root ← grammar.rootElement
    if ← atEnd then
      return ⟨imports, root⟩
    else
      unexpected

end Qml.Grammar
