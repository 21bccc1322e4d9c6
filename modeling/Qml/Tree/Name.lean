import Qml.Text.Lines
import Qml.Text.Uppercase

/-! # Qualified names

Types and properties are named by segments between dots. The last segment
decides what a name stands for: an element type, a signal handler, or any other
property. -/

namespace Qml

structure QualifiedName where
  segments : List String
deriving DecidableEq, Repr

/-- Whether a word names an element type: it begins with an upper-case
character. -/
def isElementWord (word : String) : Bool :=
  word.toList.head?.any Text.isUppercase

def isHandlerPart (c : Char) : Bool :=
  c.isAlphanum || c = '_' || c = '$'

/-- Whether a word ends a handler's name after its `on` and optional underscore:
a capital letter and then plain name characters. -/
def isSignalWord : List Char → Bool
  | [] => false
  | c :: rest => c.isUpper && rest.all isHandlerPart

/-- Whether a word names a signal handler, like `onClicked` or `on_Clicked`. -/
def isHandlerWord (word : String) : Bool :=
  match word.toList with
  | 'o' :: 'n' :: '_' :: rest => isSignalWord rest
  | 'o' :: 'n' :: rest => isSignalWord rest
  | _ => false

namespace QualifiedName

def ofText (text : String) : QualifiedName :=
  ⟨(Text.splitOn '.' text.toList).map String.ofList⟩

def last (name : QualifiedName) : String := name.segments.getLast?.getD ""

def text (name : QualifiedName) : String := ".".intercalate name.segments

def isElementType (name : QualifiedName) : Bool := isElementWord name.last

def isHandler (name : QualifiedName) : Bool := isHandlerWord name.last

end QualifiedName

end Qml
