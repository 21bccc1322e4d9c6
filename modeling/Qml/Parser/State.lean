import Qml.Error
import Qml.Source.Patch
import Qml.Token.Lexer

/-! # Parser state

A parser walks over the tokens of a text. Beside its place it keeps the context
that decides which statements are allowed, the patches made so far, and the
tokens it passed over. -/

namespace Qml

/-- A place in a list of tokens. After the last token, which is the end, the
end stays current. -/
structure Cursor where
  current : Token
  upcoming : List Token
  previousEnd : Nat
deriving DecidableEq

namespace Cursor

def emptyEnd : Token := ⟨.endOfInput, .startOfInput, false, ""⟩

def ofTokens : List Token → Cursor
  | [] => ⟨emptyEnd, [], 0⟩
  | token :: rest => ⟨token, rest, 0⟩

def ofText (text : List Char) : Cursor := ofTokens (tokens text)

def peek (cursor : Cursor) : Token :=
  match cursor.upcoming with
  | [] => { cursor.current with afterLineBreak := false }
  | token :: _ => token

def advance (cursor : Cursor) : Cursor :=
  ⟨cursor.peek, cursor.upcoming.tail, cursor.current.span.stop⟩

def offset (cursor : Cursor) : Nat := cursor.current.span.start

def remaining (cursor : Cursor) : List Token := cursor.current :: cursor.upcoming

end Cursor

/-- The context of a statement: how deep it is nested, in how many functions and
loops it lies, which labels it may jump to, and whether the blocks around it
have string keys. -/
structure Scope where
  depth : Nat
  functions : Nat
  loops : Nat
  labels : List String
  stringKeys : Bool
deriving DecidableEq, Repr

def Scope.withStringKeys (scope : Scope) : Scope := { scope with stringKeys := true }

/-- A change of context for a part of the text, and how it is taken back at the
end of that part. What cannot be undone is put back from the context before. The
keys of a block are no part of the change, but may have turned into strings. -/
structure Visit where
  enter : Scope → Scope
  leave : (before after : Scope) → Scope
  leave_enter : ∀ scope, leave scope (enter scope) = scope
  leave_keyed : ∀ scope, leave scope (enter scope).withStringKeys = scope ∨
    leave scope (enter scope).withStringKeys = scope.withStringKeys

namespace Scope

def outermost : Scope := ⟨0, 0, 0, [], false⟩

def deeper : Visit where
  enter scope := { scope with depth := scope.depth + 1 }
  leave _ after := { after with depth := after.depth - 1 }
  leave_enter _ := rfl
  leave_keyed _ := .inr rfl

/-- The context of a block's members. They may turn its keys into strings. -/
def inBlock : Visit where
  enter scope := { scope with depth := scope.depth + 1 }
  leave before after := { after with depth := after.depth - 1, stringKeys := before.stringKeys }
  leave_enter _ := rfl
  leave_keyed _ := .inl rfl

def inLoop : Visit where
  enter scope := { scope with loops := scope.loops + 1 }
  leave _ after := { after with loops := after.loops - 1 }
  leave_enter _ := rfl
  leave_keyed _ := .inr rfl

def inLabel (label : String) : Visit where
  enter scope := { scope with labels := scope.labels ++ [label] }
  leave _ after := { after with labels := after.labels.dropLast }
  leave_enter scope := by simp
  leave_keyed scope := by simp [withStringKeys]

/-- The context of a function's body. Jumps cannot leave it. -/
def inFunction : Visit where
  enter scope := { scope with functions := scope.functions + 1, loops := 0, labels := [] }
  leave before after :=
    { after with
      functions := after.functions - 1
      loops := before.loops
      labels := before.labels }
  leave_enter _ := rfl
  leave_keyed _ := .inr rfl

/-- The context of a captured value, in which `return` is allowed. -/
def inValue : Visit where
  enter scope := { scope with functions := scope.functions + 1 }
  leave _ after := { after with functions := after.functions - 1 }
  leave_enter _ := rfl
  leave_keyed _ := .inr rfl

end Scope

structure SkippedToken where
  description : String
  line : Nat
  column : Nat
deriving DecidableEq, Repr

def SkippedToken.message : String := "skipping unrecognized token in element body"

/-- The state of a parser. `awaitsValue` tells whether the statement to come is
the value of a property. -/
structure State where
  cursor : Cursor
  scope : Scope
  awaitsValue : Bool
  patches : List Patch
  skipped : List SkippedToken
deriving DecidableEq

def State.ofText (text : List Char) : State := ⟨.ofText text, .outermost, false, [], []⟩

/-- A parser may fail, and keeps its state when it does. -/
abbrev Parser (α : Type) := EStateM Fault State α

end Qml
