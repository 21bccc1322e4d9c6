import Qml.Proofs.Comparison.Document
import Qml.Proofs.Outline.Document

/-! # Declarative text extends script

What is accepted as plain script is accepted as declarative text, with the same
statements. Only the array literals differ, which keep their source in
declarative text. In a relaxed parse a line break may stand for a semicolon
before a brace, which in declarative text begins the members of an element; so
there no brace may come after a line break. -/

namespace Qml

open Qml.Parser Qml.Outline

def Comparison.scriptExtension (text : List Char) (strict : Bool) (helper component : String) :
    Comparison where
  first := ⟨text, strict, .script⟩
  second := ⟨text, strict, .declarative helper component⟩
  labels := .both .withoutArraySources
  firstTail := []
  secondTail := []
  excused _ := True
  closed := False
  inside _ := True
  samePatches _ _ := True
  sameSkipped _ _ := True
  strict_of_strict strict := strict
  script_of_script := nofun
  arraySource_eq _ _ _ _ := rfl
  excused_of_script _ _ _ := trivial
  excused_of_strict _ _ _ := trivial
  excused_of_tail _ _ := trivial
  secondTail_eq_nil _ := rfl
  secondTail_ne_nil absurd := absurd
  looksLike absent _ := Token.looksLike_of_nil absent
  samePatches_append _ _ _ := trivial
  source_eq absurd := (absurd rfl).elim
  arraySource_some_eq absurd := (absurd rfl).elim
  sameSkipped_append _ _ _ := trivial

/-- In a relaxed parse, no brace comes after a line break. -/
def BracesOnSameLine (strict : Bool) (text : List Char) : Prop :=
  strict = false → ∀ token ∈ tokens text, token.isPunctuation '{' → token.afterLineBreak = false

variable {text : List Char} {strict : Bool} {helper component : String}

theorem script_ok_of_script (limit : Nat) (braces : BracesOnSameLine strict text)
    {statements : List Statement} {after : State}
    (ok : (Grammar.within ⟨text, strict, .script⟩ limit).script (.ofText text) =
      .ok statements after) :
    ∃ others last,
      (Grammar.within ⟨text, strict, .declarative helper component⟩ limit).script (.ofText text) =
        .ok others last ∧
      Relabeling.withoutArraySources.Same statements others := by
  have levels : (Comparison.scriptExtension text strict helper component).Levels
      (Deeper.within ⟨text, strict, .script⟩ limit)
      (Deeper.within ⟨text, strict, .declarative helper component⟩ limit) :=
    Comparison.levels_within (.inl rfl)
  have alike : (Comparison.scriptExtension text strict helper component).Alike (.ofText text)
      (.ofText text) :=
    Comparison.alike_ofText rfl trivial trivial
      ⟨fun _ => braces, fun relaxing => absurd relaxing (Comparison.not_relaxing rfl), nofun,
        fun _ _ => ⟨trivial, trivial⟩⟩
  obtain ⟨others, last, parsed, same, -⟩ :=
    (Comparison.script_related levels).exists_ok alike ok (Nat.not_lt_zero _)
  exact ⟨others, last, parsed, same⟩

theorem Outline.Read.array_source_eq_none {setting : Setting} {node : Outline}
    {first last : Spot} (read : node.Read setting first last) (array : node.form = .array) :
    node.source = none ↔ setting.dialect = .script := by
  cases node with
  | node form span source children =>
      obtain ⟨inner, -, -, -, -, fits⟩ := read
      cases array
      cases source with
      | none => exact ⟨fun _ => fits, fun _ => rfl⟩
      | some source => exact ⟨nofun, fun script => absurd script fits.1⟩

/-- Every array literal in some statements keeps its source, or none does. -/
def ArraySources (kept : Bool) (statements : List Statement) : Prop :=
  ∀ node ∈ nodesOf (Statement.outlineAll statements), node.form = .array →
    node.source.isSome = kept

theorem Outline.AllRead.arraySources {setting : Setting} {statements : List Statement}
    {first last : Spot}
    (read : AllRead setting (Statement.outlineAll statements) first last)
    (ready : first.Ready setting.source) :
    ArraySources (setting.dialect ≠ .script) statements := by
  intro node member array
  obtain ⟨start, stop, -, nodeRead, -⟩ := read.exists_read ready member
  have iff := nodeRead.array_source_eq_none array
  cases source : node.source with
  | none => simp [iff.mp source]
  | some text =>
      have declarative : setting.dialect ≠ .script := fun script => by
        rw [iff.mpr script] at source
        cases source
      simp [declarative]

/-- What the script grammar accepts, the declarative grammar accepts under the
same limit, and its statements are the same, spans included, but for the source
of array literals: none has one in the script and all have one in the
declarative text. -/
theorem declarative_extends_script (options : Options) {source : String}
    {statements : List Statement} (kind : options.kind = .script)
    (limit : options.limit = scriptLimit)
    (braces : BracesOnSameLine options.strict source.toList)
    (accepted : parseScript options.strict source = .ok statements) :
    ∃ others, (parseNormalized options source.toList).outcome = .ok (.script others) ∧
      others.map (Statement.relabel .withoutArraySources) =
        statements.map (Statement.relabel .withoutArraySources) ∧
      ArraySources false statements ∧ ArraySources true others := by
  obtain ⟨after, ok⟩ := parseScript_eq_ok.mp accepted
  obtain ⟨others, last, parsed, same⟩ := script_ok_of_script scriptLimit braces ok
  have outcome : (parseNormalized options source.toList).outcome = .ok (.script others) := by
    have tree : options.tree source.toList (.ofText source.toList) = .ok (.script others) last := by
      simp only [Options.tree, kind, bind_eq_ok]
      refine ⟨others, last, ?_, rfl⟩
      rw [Options.grammar, limit]
      exact parsed
    simp only [parseNormalized, tree]
  refine ⟨others, outcome, same.symm, ?_, ?_⟩
  · obtain ⟨end', read⟩ := parseScript_read accepted
    exact read.arraySources (ready_ofText _)
  · obtain ⟨end', read⟩ := parseNormalized_read outcome
    exact read.arraySources (ready_ofText _)

theorem declarative_extends_script_array :
    ∃ statements others, parseScript false "a = [b];\nif (c) { d(); }" = .ok statements ∧
      BracesOnSameLine false "a = [b];\nif (c) { d(); }".toList ∧
      (parseNormalized { kind := .script } "a = [b];\nif (c) { d(); }".toList).outcome =
        .ok (.script others) ∧
      others.map (Statement.relabel .withoutArraySources) =
        statements.map (Statement.relabel .withoutArraySources) ∧
      ArraySources false statements ∧ ArraySources true others := by
  have accepted : (parseScript false "a = [b];\nif (c) { d(); }").isOk = true := by decide +kernel
  have braces : BracesOnSameLine false "a = [b];\nif (c) { d(); }".toList := by
    intro _
    decide +kernel
  obtain ⟨statements, ok⟩ := exists_of_isOk accepted
  obtain ⟨others, conclusion⟩ := declarative_extends_script { kind := .script } rfl rfl braces ok
  exact ⟨statements, others, ok, braces, conclusion⟩

end Qml
