import Qml.Proofs.Comparison.Nesting
import Qml.Proofs.Text.Slice

/-! # Comparing a text with one that holds it

A text may be part of another one, so that its places come to lie elsewhere, but
every stretch of it reads the same. A parse of the text is then compared with a parse
of the other, with all labels of the first moved to where they lie in the second. -/

namespace Qml

open Qml.Parser

def Patch.relabel (labels : Relabeling) (patch : Patch) : Patch :=
  ⟨labels.stop patch.start, labels.stop patch.stop, patch.replacement⟩

/-- Moving labels carries a text into another one: what lies between two places
stands between the places to which they are moved. -/
structure Relabeling.Carries (labels : Relabeling) (text other : List Char) : Prop where
  offset_eq : ∀ place, (labels.position place).offset = labels.stop place.offset
  le_iff : ∀ {place place'}, labels.stop place ≤ labels.stop place' ↔ place ≤ place'
  slice_eq : ∀ start stop,
    Text.slice other (labels.stop start) (labels.stop stop) = Text.slice text start stop
  within : ∀ {place}, place ≤ Text.byteLength text → labels.stop place ≤ Text.byteLength other
  source_eq : ∀ source, labels.source source = source
  arraySource_eq : ∀ source, labels.arraySource source = source

namespace Relabeling.Carries

variable {labels : Relabeling} {text other : List Char} (carries : labels.Carries text other)

include carries

theorem instancePatch_eq (helper component : String) {left right left' right' : Span}
    (sameLeft : left' = left.relabel labels) (sameRight : right' = right.relabel labels) :
    Grammar.instancePatch other helper component left' right' =
      (Grammar.instancePatch text helper component left right).relabel labels := by
  have moved : ∀ span : Span, (span.relabel labels).text other = span.text text := by
    intro span
    simp only [Span.text, Span.start, Span.relabel, carries.offset_eq, carries.slice_eq]
  subst sameLeft sameRight
  simp only [Grammar.instancePatch, moved, Patch.relabel, Span.start]
  simp only [Span.relabel, carries.offset_eq]

theorem clippedSlice_eq (start : Nat) {stop : Nat} (inside : stop ≤ Text.byteLength text) :
    Text.clippedSlice other (labels.stop start) (labels.stop stop) =
      Text.clippedSlice text start stop := by
  rw [Text.clippedSlice_eq_slice (carries.within inside), Text.clippedSlice_eq_slice inside,
    carries.slice_eq]

/-- A stretch reads the same with the patches that were moved with it, whatever
patches lie before the text. -/
theorem effectiveText_eq {earlier patches : List Patch}
    (before : ∀ patch ∈ earlier, ∀ place, patch.stop < labels.stop place) (start : Nat) {stop : Nat}
    (inside : stop ≤ Text.byteLength text) :
    Patch.effectiveText other (earlier ++ patches.map (Patch.relabel labels)) (labels.stop start)
      (labels.stop stop) = Patch.effectiveText text patches start stop := by
  rw [Patch.effectiveText_append fun patch member => before patch member start]
  have touches : (fun patch : Patch => patch.touches (labels.stop start) (labels.stop stop)) ∘
      Patch.relabel labels = fun patch => patch.touches start stop := by
    funext patch
    simp only [Function.comp_apply, Patch.touches, Patch.relabel, carries.le_iff]
  unfold Patch.effectiveText
  rw [List.find?_map, touches]
  cases found : patches.find? (fun patch => patch.touches start stop) with
  | none => exact carries.clippedSlice_eq start inside
  | some patch =>
      have touched := List.find?_some found
      simp only [Patch.touches, Bool.and_eq_true, decide_eq_true_eq] at touched
      simp only [Option.map_some, Patch.relabel]
      rw [carries.clippedSlice_eq start (Nat.le_trans touched.1 inside),
        carries.clippedSlice_eq patch.stop inside]

end Relabeling.Carries

/-- A declarative text and another that holds it, with patches from before the text,
compared with all labels moved. The tokens are shared up to the tails. -/
def Comparison.carried (options : Options) {labels : Relabeling} {text other : List Char}
    (carries : labels.Carries text other) (earlier : List Patch)
    (before : ∀ patch ∈ earlier, ∀ place, patch.stop < labels.stop place)
    {firstTail secondTail : List Token} (tails : firstTail = [] ↔ secondTail = []) :
    Comparison where
  first := (options.grammar text).toSetting
  second := (options.grammar other).toSetting
  labels := .moved labels (carries.arraySource_eq none)
  firstTail := firstTail
  secondTail := secondTail
  excused _ := True
  closed := True
  inside place := place ≤ Text.byteLength text
  samePatches patches others := others = earlier ++ patches.map (Patch.relabel labels)
  sameSkipped _ _ := True
  strict_of_strict strict := strict
  script_of_script script := script
  arraySource_eq := nofun
  excused_of_script := nofun
  excused_of_strict _ _ _ := trivial
  excused_of_tail _ _ := trivial
  secondTail_eq_nil := tails.mp
  secondTail_ne_nil := mt tails.mpr
  looksLike _ _ := .inl trivial
  samePatches_append same left right := by
    have patch := carries.instancePatch_eq options.helper options.component left.symm right.symm
    rw [same, List.map_append, List.append_assoc]
    exact congrArg (fun patch => earlier ++ (_ ++ [patch])) patch
  source_eq := by
    rintro - patches others start start' stop stop' rfl - inside starts stops
    have starts' : start' = labels.position start := starts.symm
    have stops' : stop' = labels.position stop := stops.symm
    rw [starts', stops', carries.offset_eq, carries.offset_eq]
    change labels.source _ = String.ofList (Patch.effectiveText other _ _ _)
    rw [carries.source_eq, carries.effectiveText_eq before _ inside]
    rfl
  arraySource_some_eq := by
    rintro - patches others start start' stop stop' rfl - inside starts stops
    have starts' : start' = labels.stop start := starts.symm
    have stops' : stop' = labels.position stop := stops.symm
    rw [starts', stops', carries.offset_eq]
    change labels.arraySource _ = some (String.ofList ('[' :: Patch.effectiveText other _ _ _))
    rw [carries.arraySource_eq, carries.effectiveText_eq before _ inside]
    rfl
  sameSkipped_append _ _ _ := trivial

theorem Comparison.fits_carried {options : Options} {labels : Relabeling} {text other : List Char}
    (carries : labels.Carries text other) {earlier : List Patch}
    (before : ∀ patch ∈ earlier, ∀ place, patch.stop < labels.stop place)
    {firstTail secondTail : List Token} (tails : firstTail = [] ↔ secondTail = [])
    {ahead : List Token}
    (inside : ∀ token ∈ ahead, token.span.start ≤ Text.byteLength text ∧
      token.span.stop ≤ Text.byteLength text)
    (semicolon : ∀ {front last token rest}, ahead = front ++ last :: token :: rest →
      firstTail = token :: rest → last.isPunctuation ';' = true) :
    (carried options carries earlier before tails).Fits ahead where
  braces crossing := absurd crossing.1 (Dialect.declarative_ne_script _ _)
  jumps relaxing := absurd relaxing (not_relaxing rfl)
  semicolon _ := semicolon
  places := inside

end Qml
