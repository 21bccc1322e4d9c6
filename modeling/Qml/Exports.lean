import Qml.Parse

/-! # Exports of scripts

Other files see of a script its pragmas and the names that its outermost
statements declare. -/

namespace Qml

structure Exports where
  pragmas : List String
  names : List String
deriving DecidableEq, Repr

namespace Exports

def namesOf (statement : Statement) : List String :=
  match statement.kind with
  | .declare _ declarators => declarators.map Declarator.name
  | .function function => function.name.toList
  | _ => []

def pragmaOf? (statement : Statement) : Option String :=
  match statement.kind with
  | .pragma name => some name
  | _ => none

/-- Pragmas and names in the order of the statements. -/
def ofScript (statements : List Statement) : Exports :=
  ⟨statements.filterMap pragmaOf?, statements.flatMap namesOf⟩

theorem ofScript_append (first second : List Statement) :
    ofScript (first ++ second) =
      ⟨(ofScript first).pragmas ++ (ofScript second).pragmas,
        (ofScript first).names ++ (ofScript second).names⟩ := by
  simp [ofScript]

end Exports

def parseExports (source : String) : Except Error Exports :=
  match (parse { kind := .script } source).outcome with
  | .ok (.script statements) => .ok (.ofScript statements)
  | .ok (.document _) => .ok ⟨[], []⟩
  | .error error => .error error

end Qml
