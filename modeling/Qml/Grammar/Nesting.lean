import Qml.Grammar.Document

/-! # Nesting

The grammar with a limit on nesting. With no room left every nesting is
refused; with more room, the nesting productions are those of the grammar with
one level less. -/

namespace Qml

namespace Deeper

open Qml.Parser

/-- The nesting productions with `room` levels left. Each waits for a state, so
that a level is built only when it is entered. -/
def within (setting : Setting) : (room : Nat) → Deeper
  | 0 => forbidden
  | room + 1 =>
    { statement := fun state =>
        inScope Scope.deeper (Grammar.anyStatement ⟨setting, within setting room⟩) state
      assignment := fun noIn state =>
        inScope Scope.deeper (Grammar.assignment ⟨setting, within setting room⟩ noIn) state
      unary := fun calls state =>
        inScope Scope.deeper (Grammar.unary ⟨setting, within setting room⟩ calls) state
      atom := fun calls state =>
        inScope Scope.deeper (Grammar.atom ⟨setting, within setting room⟩ calls) state
      members := fun state =>
        inScope Scope.inBlock (Grammar.members ⟨setting, within setting room⟩) state }

end Deeper

def Grammar.within (setting : Setting) (limit : Nat) : Grammar :=
  ⟨setting, Deeper.within setting limit⟩

end Qml
