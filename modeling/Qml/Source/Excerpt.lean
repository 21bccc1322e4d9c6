import Qml.Text.Lines

/-! # Excerpts

An excerpt shows the lines around a failure, each under its number, with a mark
on the failing one. -/

namespace Qml.Excerpt

/-- How many lines an excerpt shows on either side of the failing line. -/
def context : Nat := 3

def row (marked number : Nat) (line : List Char) : String :=
  (if number = marked then ">>" else "  ") ++ toString number ++ "  " ++ String.ofList line ++ "\n"

def numberedLines (text : List Char) : List (Nat × List Char) :=
  (Text.lines text).zipIdx.map fun (line, index) => (index + 1, line)

def shows (marked number : Nat) : Bool :=
  marked ≤ number + context && number ≤ marked + context

def around (text : List Char) (marked : Nat) : String :=
  String.join (((numberedLines text).filter fun (number, _) => shows marked number).map
    fun (number, line) => row marked number line)

end Qml.Excerpt
