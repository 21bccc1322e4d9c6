import Qml.Parser.State

/-! # Parsing tokens

The steps that all productions are made of: looking at tokens, consuming them,
refusing them, and parsing in another context. -/

namespace Qml.Parser

/-! ## Looking and moving -/

def token : Parser Token := fun state => .ok state.cursor.current state

def peek : Parser Token := fun state => .ok state.cursor.peek state

def advance : Parser Token := fun state =>
  .ok state.cursor.current { state with cursor := state.cursor.advance }

def offset : Parser Nat := fun state => .ok state.cursor.offset state

def spanFrom (start : Span) : Parser Span := fun state =>
  .ok (start.endingAt state.cursor.previousEnd) state

/-! ## Failing -/

def fail {α : Type} (cause : Cause) (position : Position) : Parser α := fun state =>
  .error ⟨cause, position⟩ state

def mismatch (found : Token) (expected : Option String) : Cause :=
  match found.kind, expected with
  | .malformed fault, _ => .lexical fault.message
  | .endOfInput, none => .unexpectedEnd
  | kind, _ => .unexpectedToken kind.describe expected

def unexpected {α : Type} : Parser α := do
  let current ← token
  fail (mismatch current none) current.span.origin

def expected {α : Type} (what : String) : Parser α := do
  let current ← token
  fail (mismatch current (some what)) current.span.origin

def refuseAt {α : Type} (place : Span) (rule : BrokenRule) : Parser α :=
  fail (.broken rule) place.origin

def refuse {α : Type} (rule : BrokenRule) : Parser α := do
  let current ← token
  refuseAt current.span rule

/-! ## Context -/

def scope : Parser Scope := fun state => .ok state.scope state

/-- The state at the end of a visit that began in the state `before`. -/
def leave (visit : Visit) (before after : State) : State :=
  { after with scope := visit.leave before.scope after.scope }

/-- Parses in a changed context and takes the change back, also after a
failure. -/
def inScope {α : Type} (visit : Visit) (parser : Parser α) : Parser α := fun state =>
  match parser { state with scope := visit.enter state.scope } with
  | .ok value after => .ok value (leave visit state after)
  | .error fault after => .error fault (leave visit state after)

def enterStringKeys : Parser Unit := fun state =>
  .ok () { state with scope := state.scope.withStringKeys }

def awaitValue : Parser Unit := fun state =>
  .ok () { state with awaitsValue := true }

/-- Whether the statement to come is the value of a property. It is so only for
one statement. -/
def takeAwaited : Parser Bool := fun state =>
  .ok state.awaitsValue { state with awaitsValue := false }

/-! ## Records -/

def recordPatch (patch : Patch) : Parser Unit := fun state =>
  .ok () { state with patches := state.patches ++ [patch] }

def skipToken (place : Span) : Parser Unit := do
  let current ← advance
  fun state =>
    .ok () { state with
      skipped := state.skipped ++
        [⟨current.kind.describe, place.origin.line, place.origin.column⟩] }

/-- The text from `start` up to `stop` as the patches made so far have it read. -/
def effectiveText (source : List Char) (start stop : Nat) : Parser (List Char) := fun state =>
  .ok (Patch.effectiveText source state.patches start stop) state

/-! ## Single tokens -/

def atPunctuation (mark : Char) : Parser Bool := do
  return (← token).isPunctuation mark

def atOperator (operator : Operator) : Parser Bool := do
  return (← token).isOperator operator

def atKeyword (keyword : Keyword) : Parser Bool := do
  return (← token).isKeyword keyword

def atName (text : String) : Parser Bool := do
  return (← token).isName text

def atEnd : Parser Bool := do
  return (← token).isEnd

def expectPunctuation (mark : Char) : Parser Token := do
  if ← atPunctuation mark then advance else expected ("punc " ++ mark.toString)

def expectNameOf (text : String) : Parser Token := do
  if ← atName text then advance else expected ("name " ++ text)

def expectKeyword (keyword : Keyword) : Parser Token := do
  if ← atKeyword keyword then advance else expected ("keyword " ++ keyword.text)

def expectName : Parser String := do
  match (← token).kind.name? with
  | some name =>
    let _ ← advance
    return name
  | none => expected "name"

def expectWord : Parser String := do
  match (← token).kind.word? with
  | some word =>
    let _ ← advance
    return word
  | none => expected "name"

def skipPunctuation (mark : Char) : Parser Unit := do
  if ← atPunctuation mark then
    let _ ← advance
  else
    return ()

end Qml.Parser
