/-! # Words and operators

The words that are not names, and the operators. Each is written in exactly one
way; the texts are listed longest first where a shorter one begins a longer
one, so that the first match is the longest. -/

namespace Qml

inductive Keyword where
  | break_ | case_ | catch_ | const | continue_ | debugger | default | do_ | else_ | finally_
  | for_ | function | if_ | return_ | switch | throw | try_ | var | while_ | with_
deriving DecidableEq, Repr

namespace Keyword

def all : List Keyword :=
  [.break_, .case_, .catch_, .const, .continue_, .debugger, .default, .do_, .else_, .finally_,
   .for_, .function, .if_, .return_, .switch, .throw, .try_, .var, .while_, .with_]

def text : Keyword → String
  | break_ => "break"
  | case_ => "case"
  | catch_ => "catch"
  | const => "const"
  | continue_ => "continue"
  | debugger => "debugger"
  | default => "default"
  | do_ => "do"
  | else_ => "else"
  | finally_ => "finally"
  | for_ => "for"
  | function => "function"
  | if_ => "if"
  | return_ => "return"
  | switch => "switch"
  | throw => "throw"
  | try_ => "try"
  | var => "var"
  | while_ => "while"
  | with_ => "with"

def ofText? (text : String) : Option Keyword :=
  all.find? fun keyword => keyword.text == text

theorem mem_all (keyword : Keyword) : keyword ∈ all := by
  cases keyword <;> decide

end Keyword

inductive Atom where
  | false | null | true | undefined
deriving DecidableEq, Repr

namespace Atom

def all : List Atom := [.false, .null, .true, .undefined]

def text : Atom → String
  | .false => "false"
  | .null => "null"
  | .true => "true"
  | .undefined => "undefined"

def ofText? (text : String) : Option Atom :=
  all.find? fun atom => atom.text == text

theorem mem_all (atom : Atom) : atom ∈ all := by
  cases atom <;> decide

end Atom

inductive Operator where
  | in_ | instanceOf | typeOf | new | void | delete
  | increment | decrement
  | not | complement
  | multiply | divide | remainder
  | add | subtract
  | shiftLeft | shiftRight | shiftRightUnsigned
  | less | greater | atMost | atLeast
  | equal | notEqual | identical | notIdentical
  | bitAnd | bitXor | bitOr
  | and | or
  | question
  | assign | assignAdd | assignSubtract | assignMultiply | assignDivide | assignRemainder
  | assignShiftLeft | assignShiftRight | assignShiftRightUnsigned
  | assignBitAnd | assignBitXor | assignBitOr
deriving DecidableEq, Repr

namespace Operator

def text : Operator → String
  | in_ => "in"
  | instanceOf => "instanceof"
  | typeOf => "typeof"
  | new => "new"
  | void => "void"
  | delete => "delete"
  | increment => "++"
  | decrement => "--"
  | not => "!"
  | complement => "~"
  | multiply => "*"
  | divide => "/"
  | remainder => "%"
  | add => "+"
  | subtract => "-"
  | shiftLeft => "<<"
  | shiftRight => ">>"
  | shiftRightUnsigned => ">>>"
  | less => "<"
  | greater => ">"
  | atMost => "<="
  | atLeast => ">="
  | equal => "=="
  | notEqual => "!="
  | identical => "==="
  | notIdentical => "!=="
  | bitAnd => "&"
  | bitXor => "^"
  | bitOr => "|"
  | and => "&&"
  | or => "||"
  | question => "?"
  | assign => "="
  | assignAdd => "+="
  | assignSubtract => "-="
  | assignMultiply => "*="
  | assignDivide => "/="
  | assignRemainder => "%="
  | assignShiftLeft => "<<="
  | assignShiftRight => ">>="
  | assignShiftRightUnsigned => ">>>="
  | assignBitAnd => "&="
  | assignBitXor => "^="
  | assignBitOr => "|="

def words : List Operator := [.in_, .instanceOf, .typeOf, .new, .void, .delete]

/-- The operators that are spelled with signs, longer spellings first. -/
def signs : List Operator :=
  [.assignShiftRightUnsigned,
   .identical, .notIdentical, .shiftRightUnsigned, .assignShiftLeft, .assignShiftRight,
   .increment, .decrement, .equal, .notEqual, .atMost, .atLeast, .and, .or,
   .assignAdd, .assignSubtract, .assignMultiply, .assignDivide, .assignRemainder,
   .assignBitAnd, .assignBitOr, .assignBitXor, .shiftLeft, .shiftRight,
   .add, .subtract, .multiply, .divide, .remainder, .less, .greater, .assign,
   .not, .complement, .bitAnd, .bitOr, .bitXor, .question]

def all : List Operator := words ++ signs

def ofText? (text : String) : Option Operator :=
  all.find? fun operator => operator.text == text

def isWord (operator : Operator) : Bool := words.contains operator

theorem mem_all (operator : Operator) : operator ∈ all := by
  cases operator <;> decide

/-- How tightly an operator binds its two operands; nothing for an operator
that does not stand between operands. -/
def precedence? : Operator → Option Nat
  | or => some 1
  | and => some 2
  | bitOr => some 3
  | bitXor => some 4
  | bitAnd => some 5
  | equal | notEqual | identical | notIdentical => some 6
  | less | greater | atMost | atLeast | in_ | instanceOf => some 7
  | shiftLeft | shiftRight | shiftRightUnsigned => some 8
  | add | subtract => some 9
  | multiply | divide | remainder => some 10
  | _ => none

def greatestPrecedence : Nat := 10

theorem precedence?_le {operator : Operator} {precedence : Nat}
    (binary : operator.precedence? = some precedence) :
    1 ≤ precedence ∧ precedence ≤ greatestPrecedence := by
  cases operator <;> simp [precedence?] at binary <;> subst binary <;> decide

def isAssignment : Operator → Bool
  | assign | assignAdd | assignSubtract | assignMultiply | assignDivide | assignRemainder
  | assignShiftLeft | assignShiftRight | assignShiftRightUnsigned
  | assignBitAnd | assignBitXor | assignBitOr => true
  | _ => false

def isUnary : Operator → Bool
  | typeOf | void | delete | increment | decrement | not | complement | subtract | add => true
  | _ => false

/-- Whether an operator changes its only operand, which must then be assignable. -/
def isStep : Operator → Bool
  | increment | decrement => true
  | _ => false

end Operator

end Qml
