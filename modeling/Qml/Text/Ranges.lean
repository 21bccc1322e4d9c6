/-! # Sets of characters as ranges

A Unicode property is a list of ranges of code points. -/

namespace Qml.Text

/-- A set of characters, as inclusive ranges of code points. -/
structure Ranges where
  pairs : List (Nat × Nat)

namespace Ranges

def ofPairs (pairs : List (Nat × Nat)) : Ranges := ⟨pairs⟩

def contains (ranges : Ranges) (c : Char) : Bool :=
  ranges.pairs.any fun (first, last) => first ≤ c.toNat && c.toNat ≤ last

end Ranges

end Qml.Text
