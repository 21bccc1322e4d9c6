import Qml.Grammar.Expression

/-! # Statements

A statement is told by its first token. Reserved words begin most of them; the
rest are expressions, labels and blocks. -/

namespace Qml.Grammar

open Qml.Parser

variable (grammar : Grammar)

/-! ## Variables -/

def declarator (noIn : Bool) : Parser Declarator := do
  let name ← expectName
  if ← atOperator .assign then
    let _ ← advance
    let init ← grammar.expression false noIn
    return ⟨name, some init⟩
  else
    return ⟨name, none⟩

def declaratorStep (noIn : Bool) : Parser (Option Declarator) := do
  if ← atPunctuation ',' then
    let _ ← advance
    return some (← grammar.declarator noIn)
  else
    return none

def declarators (noIn : Bool) : Parser (List Declarator) := do
  let first ← grammar.declarator noIn
  let more ← collect (grammar.declaratorStep noIn)
  return first :: more

def declareTail (kind : VariableKind) : Parser StatementKind := do
  let declarators ← grammar.declarators false
  grammar.semicolon
  return .declare kind declarators

/-! ## Jumps -/

def checkJump (keyword : Keyword) (label : Option String) : Parser Unit := do
  let scope ← scope
  match label with
  | some name => if scope.labels.contains name then pure () else refuse (.unknownLabel name)
  | none => if scope.loops = 0 then refuse (.jumpOutsideLoop keyword) else pure ()

/-- The label of a jump, which stands on the same line. -/
def jumpLabel : Parser (Option String) := do
  if ← grammar.canOmitSemicolon then
    return none
  else
    match (← token).kind.name? with
    | some name =>
      let _ ← advance
      return some name
    | none => return none

def jump (keyword : Keyword) : Parser (Option String) := do
  let label ← grammar.jumpLabel
  grammar.semicolon
  checkJump keyword label
  return label

def returnTail (start : Span) : Parser StatementKind := do
  if (← scope).functions = 0 then
    refuseAt start .returnOutsideFunction
  else if ← atPunctuation ';' then
    let _ ← advance
    return .return_ none
  else if ← grammar.canOmitSemicolon then
    return .return_ none
  else
    let value ← grammar.expression true false
    grammar.semicolon
    return .return_ (some value)

def throwTail : Parser StatementKind := do
  if (← token).afterLineBreak then
    refuse .lineBreakAfterThrow
  else
    let value ← grammar.expression true false
    grammar.semicolon
    return .throw value

/-! ## Loops -/

def loopBody : Parser Statement :=
  inScope Scope.inLoop grammar.statement

def doTail : Parser StatementKind := do
  let body ← grammar.loopBody
  let _ ← expectKeyword .while_
  let test ← grammar.parenthesized
  grammar.semicolon
  return .doWhileLoop body test

def whileTail : Parser StatementKind := do
  let test ← grammar.parenthesized
  let body ← grammar.loopBody
  return .whileLoop test body

def forInit : Parser Statement := do
  let start ← token
  if start.isKeyword .var then
    let _ ← advance
    let declarators ← grammar.declarators true
    return ⟨.declare .var declarators, ← spanFrom start.span⟩
  else
    let value ← grammar.expression true true
    return ⟨.expression value, ← spanFrom start.span⟩

def declaresSeveral (statement : Statement) : Bool :=
  match statement.kind with
  | .declare _ declarators => 1 < declarators.length
  | _ => false

/-- The rest of `for (left in`, from the word `in` on. The loop has one variable
and `left` begins at `start`. -/
def forInTail (start : Span) (left : Statement) : Parser StatementKind := do
  if declaresSeveral left then
    refuseAt start .severalLoopVariables
  else
    let _ ← advance
    let right ← grammar.expression true false
    let _ ← expectPunctuation ')'
    let body ← grammar.loopBody
    return .forInLoop left right body

def optionalExpression (mark : Char) : Parser (Option Expr) := do
  if ← atPunctuation mark then
    return none
  else
    return some (← grammar.expression true false)

def forClauses (init : Option Statement) : Parser StatementKind := do
  let _ ← expectPunctuation ';'
  let test ← grammar.optionalExpression ';'
  let _ ← expectPunctuation ';'
  let update ← grammar.optionalExpression ')'
  let _ ← expectPunctuation ')'
  let body ← grammar.loopBody
  return .forLoop init test update body

def forTail : Parser StatementKind := do
  let _ ← expectPunctuation '('
  let start ← token
  if start.isPunctuation ';' then
    grammar.forClauses none
  else
    let init ← grammar.forInit
    if ← atOperator .in_ then
      grammar.forInTail start.span init
    else
      grammar.forClauses (some init)

/-! ## Branches -/

def ifTail : Parser StatementKind := do
  let test ← grammar.parenthesized
  let consequent ← grammar.statement
  if ← atKeyword .else_ then
    let _ ← advance
    let alternate ← grammar.statement
    return .conditional test consequent (some alternate)
  else
    return .conditional test consequent none

def caseLabel : Parser (Option (Option Expr)) := do
  let current ← token
  if current.isPunctuation '}' then
    return none
  else if current.isKeyword .case_ then
    let _ ← advance
    let test ← grammar.expression true false
    let _ ← expectPunctuation ':'
    return some (some test)
  else if current.isKeyword .default then
    let _ ← advance
    let _ ← expectPunctuation ':'
    return some none
  else
    unexpected

def endsCase (found : Token) : Bool :=
  found.isPunctuation '}' || found.isEnd || found.isKeyword .case_ || found.isKeyword .default

def caseItem : Parser (Option Statement) := do
  if endsCase (← token) then
    return none
  else
    return some (← grammar.statement)

def switchCase : Parser (Option SwitchCase) := do
  match ← grammar.caseLabel with
  | none => return none
  | some test =>
    let body ← collect grammar.caseItem
    return some ⟨test, body⟩

def switchBlock : Parser (List SwitchCase) := do
  let _ ← expectPunctuation '{'
  let cases ← inScope Scope.inLoop (collect grammar.switchCase)
  let _ ← advance
  return cases

def switchTail : Parser StatementKind := do
  let discriminant ← grammar.parenthesized
  let cases ← grammar.switchBlock
  return .switch discriminant cases

def catchClause : Parser (Option CatchClause) := do
  if ← atKeyword .catch_ then
    let _ ← advance
    let _ ← expectPunctuation '('
    let parameter ← expectName
    let _ ← expectPunctuation ')'
    let body ← grammar.block
    return some ⟨parameter, body⟩
  else
    return none

def finallyClause : Parser (Option (List Statement)) := do
  if ← atKeyword .finally_ then
    let _ ← advance
    let body ← grammar.block
    return some body
  else
    return none

def tryTail : Parser StatementKind := do
  let block ← grammar.block
  let handler ← grammar.catchClause
  let finalizer ← grammar.finallyClause
  if handler.isNone && finalizer.isNone then
    refuse .tryWithoutHandler
  else
    return .guarded block handler finalizer

def withTail : Parser StatementKind := do
  let object ← grammar.parenthesized
  let body ← grammar.statement
  return .with_ object body

/-! ## All statements -/

def keywordStatement (keyword : Keyword) (start : Span) : Parser StatementKind :=
  match keyword with
  | .break_ => return .break_ (← grammar.jump keyword)
  | .continue_ => return .continue_ (← grammar.jump keyword)
  | .debugger => do
    grammar.semicolon
    return .debugger
  | .do_ => grammar.doTail
  | .for_ => grammar.forTail
  | .function => return .function (← grammar.function true start)
  | .if_ => grammar.ifTail
  | .return_ => grammar.returnTail start
  | .switch => grammar.switchTail
  | .throw => grammar.throwTail
  | .try_ => grammar.tryTail
  | .var => grammar.declareTail .var
  | .const => grammar.declareTail .const
  | .while_ => grammar.whileTail
  | .with_ => grammar.withTail
  | .case_ | .catch_ | .default | .else_ | .finally_ =>
    refuseAt start (.misplacedKeyword keyword)

def simpleStatement : Parser Statement := do
  let start ← token
  let value ← grammar.expression true false
  grammar.semicolon
  return ⟨.expression value, ← spanFrom start.span⟩

def labeledStatement (label : String) (start : Span) : Parser Statement := do
  let body ← inScope (Scope.inLabel label) grammar.statement
  return ⟨.labeled label body, ← spanFrom start⟩

def anyStatement : Parser Statement := do
  let start ← token
  match start.kind with
  | .name label =>
    if (← peek).isPunctuation ':' then
      let _ ← advance
      let _ ← advance
      grammar.labeledStatement label start.span
    else
      grammar.simpleStatement
  | .keyword keyword =>
    let _ ← advance
    let kind ← grammar.keywordStatement keyword start.span
    return ⟨kind, ← spanFrom start.span⟩
  | .punctuation '{' =>
    let body ← grammar.block
    return ⟨.block body, ← spanFrom start.span⟩
  | .punctuation ';' =>
    let _ ← advance
    return ⟨.empty, start.span⟩
  | .punctuation '[' | .punctuation '(' => grammar.simpleStatement
  | .string _ | .number _ | .regexp _ _ | .operator _ | .atom _ => grammar.simpleStatement
  | .punctuation _ | .endOfInput | .malformed _ => unexpected

def scriptItem : Parser (Option Statement) := do
  if ← atEnd then
    return none
  else
    return some (← grammar.statement)

def script : Parser (List Statement) :=
  collect grammar.scriptItem

end Qml.Grammar
