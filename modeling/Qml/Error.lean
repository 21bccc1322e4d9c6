import Qml.Source.Excerpt
import Qml.Source.Position
import Qml.Token.Word

/-! # Errors

Every failure has a cause and a place. The grammar fails with just these; an
error for the user also names the file and shows the lines around the place. -/

namespace Qml

inductive BrokenRule where
  | nestingTooDeep
  | returnOutsideFunction
  | lineBreakAfterThrow
  | misplacedKeyword (keyword : Keyword)
  | unknownLabel (label : String)
  | jumpOutsideLoop (keyword : Keyword)
  | severalLoopVariables
  | tryWithoutHandler
  | invalidAssignment
  | invalidStep (operator : Operator)
  | readonlyWithoutValue
  | other (message : String)
deriving DecidableEq

def BrokenRule.message : BrokenRule → String
  | nestingTooDeep => "nesting too deep"
  | returnOutsideFunction => "'return' outside of function"
  | lineBreakAfterThrow => "Illegal newline after 'throw'"
  | misplacedKeyword keyword => "Unexpected keyword " ++ keyword.text
  | unknownLabel label => "Label " ++ label ++ " without matching loop or statement"
  | jumpOutsideLoop keyword => keyword.text ++ " not inside a loop or switch"
  | severalLoopVariables => "Only one variable declaration allowed in for..in loop"
  | tryWithoutHandler => "Missing catch/finally blocks"
  | invalidAssignment => "Invalid assignment"
  | invalidStep operator => "Invalid use of " ++ operator.text ++ " operator"
  | readonlyWithoutValue => "Expected ': ...'"
  | other message => message

inductive Cause where
  | unexpectedToken (found : String) (expected : Option String)
  | unexpectedEnd
  | unbalancedAliasPath
  | missingRootElement
  | broken (rule : BrokenRule)
  | lexical (message : String)
deriving DecidableEq

namespace Cause

def message : Cause → String
  | unexpectedToken found none => "Unexpected token " ++ found
  | unexpectedToken found (some expected) =>
    "Unexpected token " ++ found ++ ", expected " ++ expected
  | unexpectedEnd => "Unexpected end of input"
  | unbalancedAliasPath => "Unbalanced brackets in alias path"
  | missingRootElement => "Expected a root element"
  | broken rule => rule.message
  | lexical message => message

/-- Whether the lexer, and not the grammar, refused the text. -/
def isLexical : Cause → Bool
  | lexical _ => true
  | _ => false

end Cause

/-- A failure as the grammar reports it. -/
structure Fault where
  cause : Cause
  position : Position
deriving DecidableEq

/-- A failure as the user sees it. -/
structure Error where
  cause : Cause
  position : Position
  excerpt : String
  file : Option String
deriving DecidableEq

namespace Error

def ofFault (fault : Fault) : Error :=
  ⟨fault.cause, fault.position, "", none⟩

def withFile (error : Error) (file : String) : Error :=
  { error with file := some file }

def withExcerpt (error : Error) (text : List Char) : Error :=
  { error with excerpt := Excerpt.around text error.position.line }

def message (error : Error) : String := error.cause.message

def render (error : Error) : String :=
  error.message ++ " (" ++ error.position.text ++ ")\n" ++ error.excerpt

end Error

end Qml
