import Qml.Text.Bytes

/-! # Patches

Captured source is not always read as written: some stretches of it stand for
other text. A patch says which, and the text itself is never changed. Patches
are kept in the order in which they were made. -/

namespace Qml

/-- The bytes from `start` up to `stop` read as `replacement`. -/
structure Patch where
  start : Nat
  stop : Nat
  replacement : List Char
deriving DecidableEq

namespace Patch

/-- Whether a patch and a stretch have a point in common, end points included. -/
def touches (patch : Patch) (start stop : Nat) : Bool :=
  patch.start ≤ stop && start ≤ patch.stop

/-- The text from `start` up to `stop` as the patches have it read. Only the
first patch that touches the stretch counts. -/
def effectiveText (source : List Char) (patches : List Patch) (start stop : Nat) : List Char :=
  match patches.find? fun patch => patch.touches start stop with
  | none => Text.clippedSlice source start stop
  | some patch =>
    Text.clippedSlice source start patch.start ++ patch.replacement ++
      Text.clippedSlice source patch.stop stop

theorem effectiveText_of_untouched {source : List Char} {patches : List Patch} {start stop : Nat}
    (untouched : ∀ patch ∈ patches, patch.touches start stop = false) :
    effectiveText source patches start stop = Text.clippedSlice source start stop := by
  have absent : patches.find? (fun patch => patch.touches start stop) = none := by
    simpa using untouched
  simp [effectiveText, absent]

theorem effectiveText_append {source : List Char} {earlier own : List Patch} {start stop : Nat}
    (before : ∀ patch ∈ earlier, patch.stop < start) :
    effectiveText source (earlier ++ own) start stop = effectiveText source own start stop := by
  have untouched : earlier.find? (fun patch => patch.touches start stop) = none := by
    rw [List.find?_eq_none]
    intro patch member
    have behind := before patch member
    simp only [touches, Bool.and_eq_true, decide_eq_true_eq, not_and]
    omega
  unfold effectiveText
  rw [List.find?_append, untouched, Option.none_or]

end Patch

end Qml
