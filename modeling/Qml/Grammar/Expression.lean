import Qml.Grammar.Function

/-! # Expressions

From comma sequences down to names and literals. In declarative text an element
may stand where an expression of a sequence may, an array literal keeps its
source, and each test with `instanceof` leaves a patch. -/

namespace Qml.Grammar

open Qml.Parser

variable (grammar : Grammar)

/-! ## Sequences -/

def memberBlock : Parser (List Member) := do
  let _ ← expectPunctuation '{'
  let members ← grammar.deeper.members
  let _ ← expectPunctuation '}'
  return members

/-- Turns a name before a brace into the element that begins there. -/
def elementOr (start : Span) (expr : Expr) : Parser Expr := do
  match ← atPunctuation '{', expr.qualifiedName? with
  | true, some typeName =>
    let members ← grammar.memberBlock
    let span ← spanFrom start
    return ⟨.element ⟨typeName, none, members, span⟩, span⟩
  | _, _ => return expr

def sequenceItem (noIn : Bool) : Parser Expr := do
  let start ← token
  let expr ← grammar.deeper.assignment noIn
  match grammar.dialect with
  | .script => return expr
  | .declarative _ _ => grammar.elementOr start.span expr

/-- A sequence of an expression and a later one, of which a sequence is taken
apart. -/
def joinSequence (first rest : Expr) : Expr :=
  let items := match rest.kind with
    | .sequence more => more
    | _ => [rest]
  ⟨.sequence (first :: items), first.span.through rest.span⟩

def sequenceOf (first : Expr) : List Expr → Expr
  | [] => first
  | second :: more => joinSequence first (sequenceOf second more)

def sequenceStep (noIn : Bool) : Parser (Option Expr) := do
  if ← atPunctuation ',' then
    let _ ← advance
    return some (← grammar.sequenceItem noIn)
  else
    return none

def sequenceTail (commas noIn : Bool) (first : Expr) : Parser Expr := do
  if commas then
    let more ← collect (grammar.sequenceStep noIn)
    return sequenceOf first more
  else
    return first

/-- An expression; with `commas` it may be a sequence, with `noIn` the operator
`in` ends it. -/
def expression (commas noIn : Bool) : Parser Expr := do
  let first ← grammar.sequenceItem noIn
  grammar.sequenceTail commas noIn first

/-- Like `expression`, but no element may come first. -/
def scriptExpression (commas noIn : Bool) : Parser Expr := do
  let first ← grammar.deeper.assignment noIn
  grammar.sequenceTail commas noIn first

def parenthesized : Parser Expr := do
  let _ ← expectPunctuation '('
  let expr ← grammar.expression true false
  let _ ← expectPunctuation ')'
  return expr

/-! ## Lists, arrays and objects -/

/-- One item of a list of expressions. With `holes`, nothing may stand before a
comma. -/
def listedExpression (holes : Bool) : Parser (Option Expr) := do
  if holes && (← atPunctuation ',') then
    return none
  else
    return some (← grammar.expression false false)

def expressionList (closing : Char) (trailing holes : Bool) : Parser (List (Option Expr)) :=
  listUntil closing trailing (grammar.listedExpression holes)

def arguments : Parser (List Expr) := do
  let items ← grammar.expressionList ')' false false
  return items.filterMap id

def scriptArray (opening : Span) : Parser Expr := do
  let elements ← grammar.expressionList ']' (!grammar.strict) true
  return ⟨.array elements none, ← spanFrom opening⟩

def withArraySource (source : List Char) (expr : Expr) : Expr :=
  match expr.kind with
  | .array elements _ => { expr with kind := .array elements (some (String.ofList source)) }
  | _ => expr

def array (opening : Span) : Parser Expr := do
  let expr ← grammar.scriptArray opening
  match grammar.dialect with
  | .script => return expr
  | .declarative _ _ =>
    let stop ← offset
    let source ← effectiveText grammar.source opening.stop stop
    return withArraySource ('[' :: source) expr

/-- The key of an entry: a word, a string, or a number as it is spelled. -/
def propertyName : Parser String := do
  let current ← token
  match current.kind with
  | .number _ =>
    let _ ← advance
    return current.text
  | .string value =>
    let _ ← advance
    return value
  | _ => expectWord

/-- The kind of accessor that a key announces, unless a colon follows it. -/
def accessorKind? (keyToken : Token) : Option EntryKind :=
  if keyToken.isName "get" then some .getter
  else if keyToken.isName "set" then some .setter
  else none

def objectEntry : Parser ObjectEntry := do
  let keyToken ← token
  let key ← propertyName
  match accessorKind? keyToken, ← atPunctuation ':' with
  | some kind, false =>
    let key ← propertyName
    let function ← grammar.function false keyToken.span
    return ⟨key, kind, ⟨.function function, ← spanFrom keyToken.span⟩⟩
  | _, _ =>
    let _ ← expectPunctuation ':'
    let value ← grammar.expression false false
    return ⟨key, .value, value⟩

def object (opening : Span) : Parser Expr := do
  let entries ← listUntil '}' (!grammar.strict) grammar.objectEntry
  return ⟨.object entries, ← spanFrom opening⟩

/-! ## Atoms and what follows them -/

def subscript (calls : Bool) (expr : Expr) : Parser (Option Expr) := do
  if ← atPunctuation '.' then
    let _ ← advance
    let property ← expectWord
    return some ⟨.dot expr property, ← spanFrom expr.span⟩
  else if ← atPunctuation '[' then
    let _ ← advance
    let index ← grammar.expression true false
    let _ ← expectPunctuation ']'
    return some ⟨.subscript expr index, ← spanFrom expr.span⟩
  else if calls && (← atPunctuation '(') then
    let _ ← advance
    let arguments ← grammar.arguments
    return some ⟨.call expr arguments, ← spanFrom expr.span⟩
  else
    return none

def subscripts (calls : Bool) (expr : Expr) : Parser Expr :=
  iterate (grammar.subscript calls) expr

def construction (start : Span) : Parser Expr := do
  let callee ← grammar.deeper.atom false
  if ← atPunctuation '(' then
    let _ ← advance
    let arguments ← grammar.arguments
    return ⟨.construct callee arguments, ← spanFrom start⟩
  else
    return ⟨.construct callee [], ← spanFrom start⟩

def parenthesizedAtom (start : Span) : Parser Expr := do
  let inner ← grammar.expression true false
  let _ ← expectPunctuation ')'
  return ⟨inner.kind, ← spanFrom start⟩

def functionAtom (start : Span) : Parser Expr := do
  let function ← grammar.function false start
  return ⟨.function function, ← spanFrom start⟩

def simpleAtom? : TokenKind → Option ExprKind
  | .atom atom => some (.atom atom)
  | .number value => some (.number value)
  | .string value => some (.string value)
  | .regexp pattern flags => some (.regexp pattern flags)
  | .name name => some (.name name)
  | _ => none

def bareAtom : Parser Expr := do
  let current ← token
  match current.kind with
  | .operator .new =>
    let _ ← advance
    grammar.construction current.span
  | .punctuation '(' =>
    let _ ← advance
    grammar.parenthesizedAtom current.span
  | .punctuation '[' =>
    let _ ← advance
    grammar.array current.span
  | .punctuation '{' =>
    let _ ← advance
    grammar.object current.span
  | .keyword .function =>
    let _ ← advance
    grammar.functionAtom current.span
  | kind =>
    match simpleAtom? kind with
    | some atom =>
      let _ ← advance
      return ⟨atom, current.span⟩
    | none => unexpected

def atom (calls : Bool) : Parser Expr := do
  let expr ← grammar.bareAtom
  grammar.subscripts calls expr

/-! ## Operators -/

/-- Applies a unary operator. A step needs an assignable operand, and is blamed
at `start`. -/
def applyUnary (operator : Operator) (fixity : Fixity) (operand : Expr) (start : Span) :
    Parser Expr := do
  if operator.isStep && !operand.isAssignable then
    refuseAt start (.invalidStep operator)
  else
    return ⟨.unary operator fixity operand, ← spanFrom start⟩

/-- A step after an expression, if there is one on the same line. -/
def stepAfter (expr : Expr) : Parser (Option Expr) := do
  let current ← token
  match current.kind with
  | .operator operator =>
    if operator.isStep && !current.afterLineBreak then
      let _ ← advance
      return some (← applyUnary operator .after expr (← spanFrom expr.span))
    else
      return none
  | _ => return none

def stepped (calls : Bool) : Parser Expr := do
  let expr ← grammar.atom calls
  iterate stepAfter expr

def unary (calls : Bool) : Parser Expr := do
  let current ← token
  match current.kind with
  | .operator operator =>
    if operator.isUnary then
      let _ ← advance
      let operand ← grammar.deeper.unary calls
      applyUnary operator .before operand current.span
    else
      grammar.stepped calls
  | _ => grammar.stepped calls

/-- The operator that a token is, with its precedence, if it binds tighter than
`least`. -/
def binaryOperator? (noIn : Bool) (least : Nat) (found : Token) : Option (Operator × Nat) :=
  match found.kind with
  | .operator operator =>
    if noIn && operator = .in_ then none
    else
      match operator.precedence? with
      | some precedence => if least < precedence then some (operator, precedence) else none
      | none => none
  | _ => none

/-- The text of the call that a test with `instanceof` is read as. -/
def instanceTest (helper component : String) (left right : List Char) : List Char :=
  helper.toList ++ ['('] ++ left ++ [',', ' '] ++ Text.literal right ++ [',', ' '] ++
    component.toList ++ [')']

def instancePatch (source : List Char) (helper component : String) (left right : Span) : Patch :=
  ⟨left.start, right.stop,
    instanceTest helper component (left.text source) (right.text source)⟩

def applyBinary (operator : Operator) (left right : Expr) : Parser Expr := do
  match grammar.dialect, operator with
  | .declarative helper component, .instanceOf =>
    recordPatch (instancePatch grammar.source helper component left.span right.span)
  | _, _ => pure ()
  return ⟨.binary operator left right, left.span.through right.span⟩

/-- The next operator after an expression with its right operand, if it binds
tighter than `least`. The operand is extended by what binds tighter still. -/
def operatorRound (noIn : Bool) (least : Nat) (tighter : Nat → Expr → Parser Expr)
    (left : Expr) : Parser (Option Expr) := do
  match binaryOperator? noIn least (← token) with
  | none => return none
  | some (operator, precedence) =>
    let _ ← advance
    let operand ← grammar.unary true
    let right ← tighter precedence operand
    return some (← grammar.applyBinary operator left right)

/-- Extends an expression by the operators that bind tighter than `least` and
their right operands. Operators of one precedence associate to the left.
Precedence grows with each level of this recursion, and `room` bounds how often
it still can. -/
def climb (noIn : Bool) : (room least : Nat) → Expr → Parser Expr
  | 0, _, left => return left
  | room + 1, least, left =>
    iterate (grammar.operatorRound noIn least fun precedence operand =>
      climb noIn room precedence operand) left

def operators (noIn : Bool) (least : Nat) (left : Expr) : Parser Expr :=
  grammar.climb noIn (Operator.greatestPrecedence - least) least left

def operation (noIn : Bool) : Parser Expr := do
  let left ← grammar.unary true
  grammar.operators noIn 0 left

def conditional (noIn : Bool) : Parser Expr := do
  let test ← grammar.operation noIn
  if ← atOperator .question then
    let _ ← advance
    let consequent ← grammar.expression false false
    let _ ← expectPunctuation ':'
    let alternate ← grammar.expression false noIn
    return ⟨.conditional test consequent alternate, test.span.through alternate.span⟩
  else
    return test

def assignmentOperator? (found : Token) : Option Operator :=
  match found.kind with
  | .operator operator => if operator.isAssignment then some operator else none
  | _ => none

def assignment (noIn : Bool) : Parser Expr := do
  let start ← token
  let left ← grammar.conditional noIn
  match assignmentOperator? (← token) with
  | none => return left
  | some operator =>
    if left.isAssignable then
      let _ ← advance
      let value ← grammar.deeper.assignment noIn
      return ⟨.assign operator left value, left.span.through value.span⟩
    else
      refuseAt start.span .invalidAssignment

end Qml.Grammar
