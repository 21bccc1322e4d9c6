import Qml.Parser.Basic

/-! # Repetition

Each round of a repetition consumes a token, and none goes on after the end of
the text. The tokens that remain are therefore a clock that outlasts every
repetition; if it did run out, the current token would be refused. -/

namespace Qml.Parser

def remaining : Parser (List Token) := fun state => .ok state.cursor.remaining state

/-- Repeats a step until it yields nothing, at most once for each tick of the
clock. -/
def collectWithin {α : Type} (step : Parser (Option α)) : (clock : List Token) → Parser (List α)
  | [] => unexpected
  | _ :: clock => do
    match ← step with
    | none => return []
    | some value =>
      let more ← collectWithin step clock
      return value :: more

def iterateWithin {α : Type} (step : α → Parser (Option α)) :
    (clock : List Token) → α → Parser α
  | [], _ => unexpected
  | _ :: clock, value => do
    match ← step value with
    | none => return value
    | some next => iterateWithin step clock next

def collect {α : Type} (step : Parser (Option α)) : Parser (List α) := do
  let clock ← remaining
  collectWithin step clock

def iterate {α : Type} (step : α → Parser (Option α)) (start : α) : Parser α := do
  let clock ← remaining
  iterateWithin step clock start

/-- An item after a comma, unless the list ends here. With `trailing` the list
may also end after the comma. -/
def listItem {α : Type} (closing : Char) (trailing : Bool) (item : Parser α) :
    Parser (Option α) := do
  if ← atPunctuation closing then
    return none
  else
    let _ ← expectPunctuation ','
    if trailing && (← atPunctuation closing) then
      return none
    else
      return some (← item)

def listUntil {α : Type} (closing : Char) (trailing : Bool) (item : Parser α) :
    Parser (List α) := do
  if ← atPunctuation closing then
    let _ ← advance
    return []
  else
    let first ← item
    let more ← collect (listItem closing trailing item)
    let _ ← advance
    return first :: more

end Qml.Parser
