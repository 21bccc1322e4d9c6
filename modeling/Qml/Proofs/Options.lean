import Qml.Proofs.Comparison.Document
import Qml.Proofs.Outline.Document

/-! # What the options change

One text is parsed twice under options that differ in one respect. A higher limit
on nesting only lets more texts through. A strict parse that succeeds holds what a
relaxed one does, unless a line break stands behind a word that begins a jump. The
names for rewritten tests and the name of the file only show in kept sources and
in the report of an error. -/

namespace Qml

open Qml.Parser

/-! ## The same text in the same dialect -/

def Comparison.verbatim (first : Setting) (strict : Bool) (excused : Cause → Prop)
    (strict_of_strict : strict = true → first.strict = true)
    (excused_of_strict : first.strict = true → strict = false → ∀ cause, excused cause) :
    Comparison where
  first := first
  second := { first with strict }
  labels := .both .identity
  firstTail := []
  secondTail := []
  excused := excused
  closed := False
  inside _ := True
  samePatches := Eq
  sameSkipped := Eq
  strict_of_strict := strict_of_strict
  script_of_script script := script
  arraySource_eq script declarative := absurd script declarative
  excused_of_script script declarative := absurd script declarative
  excused_of_strict := excused_of_strict
  excused_of_tail remains _ := (Token.false_of_nil remains).elim
  secondTail_eq_nil same := same
  secondTail_ne_nil absurd := absurd
  looksLike absent _ := Token.looksLike_of_nil absent
  samePatches_append := by
    intro patches others left left' right right' same
      (lefts : left = left') (rights : right = right')
    rw [same, lefts, rights]
    rfl
  source_eq := by
    rintro - patches _ start start' stop stop' rfl - - ⟨⟩ ⟨⟩
    rfl
  arraySource_some_eq := by
    rintro - patches _ start start' stop stop' rfl - - ⟨⟩ ⟨⟩
    rfl
  sameSkipped_append := by
    intro skipped others place place' description same (places : place = place')
    rw [same, places]

/-! ## The limit on nesting -/

theorem parse_eq_or_tooDeep (options : Options) (source : String) {limit : Nat}
    (higher : options.limit ≤ limit) :
    parse { options with limit } source = parse options source ∨
      ∃ error, (parse options source).outcome = .error error ∧
        error.cause = .broken .nestingTooDeep := by
  unfold parse
  generalize (Text.normalize source).toList = text
  let comparison := Comparison.verbatim (options.grammar text).toSetting options.strict
    (· = .broken .nestingTooDeep) id fun strict relaxed =>
      absurd (relaxed.symm.trans strict) Bool.false_ne_true
  have related : comparison.Related (options.tree text) ({ options with limit }.tree text) :=
    Comparison.tree_related rfl rfl rfl (.inr ⟨higher, rfl⟩)
  have alike : comparison.Alike (.ofText text) (.ofText text) :=
    Comparison.alike_ofText rfl rfl rfl (.of_declarative (Dialect.declarative_ne_script _ _) rfl _)
  have reports := Comparison.reports_of_related related alike rfl
  generalize parseNormalized options text = report at reports ⊢
  generalize parseNormalized { options with limit } text = report' at reports ⊢
  cases reports with
  | accepted trees skipped =>
      left
      rw [trees.tree_eq, show _ = _ from skipped]
  | @refused fault fault' _ _ causes positions skipped =>
      left
      have faults : fault = fault' := by
        cases fault
        cases fault'
        cases causes
        cases positions
        rfl
      rw [faults, show _ = _ from skipped]
      rfl
  | excused excused => exact .inr ⟨_, rfl, excused⟩

/-- A higher limit only makes a difference where the nesting was too deep: any
other error, and any tree with the tokens passed over, are the same. -/
theorem parse_eq_of_limit_le (options : Options) (source : String) {limit : Nat}
    (higher : options.limit ≤ limit)
    (shallow : ∀ error, (parse options source).outcome = .error error →
      error.cause ≠ .broken .nestingTooDeep) :
    parse { options with limit } source = parse options source := by
  rcases parse_eq_or_tooDeep options source higher with same | ⟨error, refused, tooDeep⟩
  · exact same
  · exact absurd tooDeep (shallow error refused)

theorem parse_eq_of_limit_le_array :
    (parse { limit := 4 } "A { b: -c + [1, (2)] }").outcome.isOk = false ∧
      (parse { limit := 5 } "A { b: -c + [1, (2)] }").outcome.isOk = true ∧
      parse { limit := 64 } "A { b: -c + [1, (2)] }" =
        parse { limit := 5 } "A { b: -c + [1, (2)] }" := by
  have accepted : (parse { limit := 5 } "A { b: -c + [1, (2)] }").outcome.isOk = true := by
    decide +kernel
  refine ⟨by decide +kernel, accepted, parse_eq_of_limit_le { limit := 5 } _ (by decide) ?_⟩
  intro error refused
  rw [refused] at accepted
  cases accepted

/-! ## Strictness -/

def Comparison.relaxation (text : List Char) (dialect : Dialect) : Comparison :=
  .verbatim ⟨text, true, dialect⟩ false (fun _ => True) (absurd · Bool.false_ne_true)
    fun _ _ _ => trivial

theorem Comparison.relaxation_alike {text : List Char} {dialect : Dialect}
    (joined : JumpsOnSameLine (tokens text)) :
    (Comparison.relaxation text dialect).Alike (.ofText text) (.ofText text) :=
  alike_ofText rfl rfl rfl
    ⟨fun crossing => absurd crossing.1 crossing.2, fun _ => joined, nofun,
      fun _ _ => ⟨trivial, trivial⟩⟩

/-- What a strict parse accepts a relaxed parse accepts with the same result, as a
plain script and as a declarative file of either kind under any limit, provided
that only the end of the text comes after a line break behind `return`, `break` or
`continue`. -/
theorem relaxed_extends_strict (source : String) (joined : JumpsOnSameLine (tokens source.toList)) :
    (∀ statements, parseScript true source = .ok statements →
      parseScript false source = .ok statements) ∧
    ∀ (options : Options) (tree : Tree),
      (parseNormalized { options with strict := true } source.toList).outcome = .ok tree →
        (parseNormalized { options with strict := false } source.toList).outcome = .ok tree := by
  constructor
  · intro statements accepted
    obtain ⟨after, ok⟩ := parseScript_eq_ok.mp accepted
    have levels : (Comparison.relaxation source.toList .script).Levels
        (Deeper.within ⟨source.toList, true, .script⟩ scriptLimit)
        (Deeper.within ⟨source.toList, false, .script⟩ scriptLimit) :=
      Comparison.levels_within (.inl rfl)
    obtain ⟨others, last, parsed, same, -⟩ := (Comparison.script_related levels).exists_ok
      (Comparison.relaxation_alike joined) ok (Nat.not_lt_zero _)
    rw [same.statements_eq]
    exact parseScript_eq_ok.mpr ⟨last, parsed⟩
  · intro options tree accepted
    have related : (Comparison.relaxation source.toList
        (.declarative options.helper options.component)).Related
        (Options.tree { options with strict := true } source.toList)
        (Options.tree { options with strict := false } source.toList) :=
      Comparison.tree_related rfl rfl rfl (.inl rfl)
    have reports := Comparison.reports_of_related related (Comparison.relaxation_alike joined) rfl
    generalize parseNormalized { options with strict := true } _ = report at reports accepted
    generalize parseNormalized { options with strict := false } _ = report' at reports ⊢
    cases reports with
    | accepted trees =>
        cases accepted
        rw [trees.tree_eq]
    | refused => cases accepted
    | excused => cases accepted

theorem relaxed_extends_strict_return :
    JumpsOnSameLine (tokens "f();\nfunction f(a) { return [a, { b: a }]; }".toList) ∧
      ∃ statements tree,
        parseScript true "f();\nfunction f(a) { return [a, { b: a }]; }" = .ok statements ∧
        parseScript false "f();\nfunction f(a) { return [a, { b: a }]; }" = .ok statements ∧
        (parseNormalized { kind := .script, strict := true }
          "f();\nfunction f(a) { return [a, { b: a }]; }".toList).outcome = .ok tree ∧
        (parseNormalized { kind := .script, strict := false }
          "f();\nfunction f(a) { return [a, { b: a }]; }".toList).outcome = .ok tree := by
  have joined :
      JumpsOnSameLine (tokens "f();\nfunction f(a) { return [a, { b: a }]; }".toList) := by
    decide +kernel
  obtain ⟨plain, declarative⟩ := relaxed_extends_strict _ joined
  have plainOk :
      (parseScript true "f();\nfunction f(a) { return [a, { b: a }]; }").isOk = true := by
    decide +kernel
  have declarativeOk : (parseNormalized { kind := .script, strict := true }
      "f();\nfunction f(a) { return [a, { b: a }]; }".toList).outcome.isOk = true := by
    decide +kernel
  obtain ⟨statements, scriptOk⟩ := exists_of_isOk plainOk
  obtain ⟨tree, fileOk⟩ := exists_of_isOk declarativeOk
  exact ⟨joined, statements, tree, scriptOk, plain _ scriptOk, fileOk,
    declarative { kind := .script } _ fileOk⟩

/-! ## Names -/

def Comparison.renaming (text : List Char) (strict : Bool)
    (helper component helper' component' : String) : Comparison where
  first := ⟨text, strict, .declarative helper component⟩
  second := ⟨text, strict, .declarative helper' component'⟩
  labels := .both .withoutSources
  firstTail := []
  secondTail := []
  excused _ := False
  closed := False
  inside _ := True
  samePatches _ _ := True
  sameSkipped := Eq
  strict_of_strict strict := strict
  script_of_script script := absurd script (Dialect.declarative_ne_script _ _)
  arraySource_eq script := absurd script (Dialect.declarative_ne_script _ _)
  excused_of_script script := absurd script (Dialect.declarative_ne_script _ _)
  excused_of_strict strict relaxed := absurd (relaxed.symm.trans strict) Bool.false_ne_true
  excused_of_tail remains _ := Token.false_of_nil remains
  secondTail_eq_nil same := same
  secondTail_ne_nil absurd := absurd
  looksLike absent _ := Token.looksLike_of_nil absent
  samePatches_append _ _ _ := trivial
  source_eq _ _ _ _ _ _ _ _ _ _ _ _ := rfl
  arraySource_some_eq _ _ _ _ _ _ _ _ _ _ _ _ := rfl
  sameSkipped_append := by
    intro skipped others place place' description same (places : place = place')
    rw [same, places]

/-- How the outcomes of two parses agree: both hold the same tree up to what the
kept sources are, or both were refused for the same reason, at the same place and
with the same excerpt. -/
inductive SameButSources : Except Error Tree → Except Error Tree → Prop
  | accepted {tree tree' : Tree}
      (same : tree.relabel .withoutSources = tree'.relabel .withoutSources) :
      SameButSources (.ok tree) (.ok tree')
  | refused {error error' : Error} (cause : error.cause = error'.cause)
      (position : error.position = error'.position) (excerpt : error.excerpt = error'.excerpt) :
      SameButSources (.error error) (.error error')

/-- Neither the name of the file nor the names for rewritten tests decide whether
a text is accepted, as what, or why not. -/
theorem names_are_irrelevant (options : Options) (file : Option String)
    (helper component source : String) :
    SameButSources (parse options source).outcome
        (parse { options with file, helper, component } source).outcome ∧
      (parse options source).skipped =
        (parse { options with file, helper, component } source).skipped := by
  unfold parse
  generalize (Text.normalize source).toList = text
  let comparison := Comparison.renaming text options.strict options.helper options.component
    helper component
  have related : comparison.Related (options.tree text)
      ({ options with file, helper, component }.tree text) :=
    Comparison.tree_related rfl rfl rfl (.inl rfl)
  have alike : comparison.Alike (.ofText text) (.ofText text) :=
    Comparison.alike_ofText rfl trivial rfl
      (.of_declarative (Dialect.declarative_ne_script _ _) rfl _)
  have reports := Comparison.reports_of_related related alike rfl
  generalize parseNormalized options text = report at reports ⊢
  generalize parseNormalized { options with file, helper, component } text = report' at reports ⊢
  cases reports with
  | accepted trees skipped => exact ⟨.accepted trees, skipped⟩
  | refused causes positions skipped =>
      have excerpts := congrArg (fun place : Position => Excerpt.around text place.line) positions
      exact ⟨.refused causes positions excerpts, skipped⟩
  | excused excused => exact excused.elim

end Qml
