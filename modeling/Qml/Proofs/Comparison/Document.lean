import Qml.Parse
import Qml.Proofs.Comparison.Nesting
import Qml.Proofs.Parser.Path

/-! # Comparing documents

Two documents with the same tokens, up to labels, hold the same imports and the
same root, up to labels. Whole files of one kind are compared from there, and one
text with itself if nothing sets its two parses apart from the beginning. -/

namespace Qml.Comparison

open Qml.Parser Qml.Grammar

variable {comparison : Comparison}

/-! ## Imports -/

theorem importHead_related : comparison.Related importHead importHead := by
  refine token_related.bind fun same => ?_
  rw [same.kind_eq]
  split
  · exact advance_related.bind fun _ => .pure rfl
  · exact expected_related _

theorem importVersion_related : comparison.Related importVersion importVersion := by
  refine token_related.bind fun {found found'} same => ?_
  by_cases number : found.isNumber = true
  · have number' : found'.isNumber = true := same.isNumber_eq ▸ number
    rw [if_pos number, if_pos number', same.text_eq number]
    exact advance_related.bind fun _ => .pure rfl
  · have number' : ¬ found'.isNumber = true := same.isNumber_eq ▸ number
    rw [if_neg number, if_neg number']
    exact .pure rfl

theorem importQualifier_related : comparison.Related importQualifier importQualifier :=
  (atName_related "as").bind_eq fun _ => .ite
    (advance_related.bind fun _ => expectName_related.bind_eq fun _ => .pure rfl) (.pure rfl)

theorem importItem_related : comparison.Related importItem importItem := by
  refine token_related.bind fun start => ?_
  rw [start.isName_eq]
  refine .ite ?_ (.pure rfl)
  refine advance_related.bind fun _ => importHead_related.bind_eq fun head => ?_
  refine RelatedUpTo.bind_eq (RelatedUpTo.collect dottedWord_related) fun more => ?_
  refine importVersion_related.bind_eq fun version => importQualifier_related.bind_eq
    fun qualifier => (skipPunctuation_related ';').bind_eq fun _ => ?_
  refine (spanFrom_related start.span).bind fun span => .pure ?_
  simpa [Import.relabel] using span

/-! ## The root -/

variable {deeper deeper' : Deeper} (levels : comparison.Levels deeper deeper')
  (declarative : comparison.first.dialect ≠ .script)

include levels declarative

theorem rootElement_related :
    comparison.Related (rootElement ⟨comparison.first, deeper⟩)
      (rootElement ⟨comparison.second, deeper'⟩) := by
  refine token_related.bind fun start => ?_
  refine (member_related levels declarative false).bind fun {found found'} same => ?_
  -- Relabeling keeps what kind of member was found, so both parses find a root or none does.
  rcases found with - | member
  · have none : found' = none := by simpa using same.symm
    subst none
    exact fail_related _ start.span.origin_eq
  · rcases found' with - | member'
    · simp at same
    · cases member <;> cases member' <;> first
        | exact fail_related _ start.span.origin_eq
        | exact .pure (by simpa using same)
        | simp at same

theorem document_related :
    comparison.Related (document ⟨comparison.first, deeper⟩)
      (document ⟨comparison.second, deeper'⟩) := by
  refine RelatedUpTo.bind (RelatedUpTo.collect importItem_related) fun imports => ?_
  refine atEnd_related.bind_eq fun _ => .ite unexpected_related ?_
  refine (rootElement_related levels declarative).bind fun root => ?_
  refine atEnd_related.bind_eq fun _ => .ite (.pure ?_) unexpected_related
  simp_all [Document.relabel]

/-! ## Whole files -/

omit levels declarative in
theorem tree_related {options others : Options} {text other : List Char}
    (first : comparison.first = (options.grammar text).toSetting)
    (second : comparison.second = (others.grammar other).toSetting)
    (kind : options.kind = others.kind) (rooms : comparison.Rooms options.limit others.limit) :
    comparison.Related (options.tree text) (others.tree other) := by
  have levels := levels_within rooms
  have grammar : options.grammar text =
      ⟨comparison.first, Deeper.within comparison.first options.limit⟩ := by
    rw [first]
    rfl
  have grammar' : others.grammar other =
      ⟨comparison.second, Deeper.within comparison.second others.limit⟩ := by
    rw [second]
    rfl
  have declarative : comparison.first.dialect ≠ .script := by
    rw [first]
    exact Dialect.declarative_ne_script _ _
  unfold Options.tree
  rw [grammar, grammar', ← kind]
  cases options.kind with
  | document =>
      refine (document_related levels declarative).bind fun same => .pure ?_
      simpa [Tree.relabel] using same
  | script =>
      refine (script_related levels).bind fun same => .pure ?_
      simpa [Tree.relabel] using same

omit levels declarative in
theorem alike_ofText {text : List Char} (whole : comparison.firstTail = [])
    (patches : comparison.samePatches [] []) (skipped : comparison.sameSkipped [] [])
    (fits : comparison.Fits (tokens text))
    (unmoved : comparison.labels.second = comparison.labels.first := by rfl) :
    comparison.Alike (.ofText text) (.ofText text) := by
  rw [← Cursor.remaining_ofText] at fits
  refine ⟨Labels.same_of_unmoved unmoved _, ⟨(Cursor.ofText text).upcoming,
    (Cursor.ofText text).upcoming, ?_, ?_, Labels.same_of_unmoved unmoved _⟩, ?_, .refl _, patches,
    skipped, fits⟩
  · rw [whole, List.append_nil]
    rfl
  · rw [comparison.secondTail_eq_nil whole, List.append_nil]
    rfl
  · rw [unmoved]

inductive Reports (comparison : Comparison) (options others : Options)
    (text other : List Char) : Report → Report → Prop
  | accepted {tree tree' skipped skipped'} : comparison.labels.Same tree tree' →
      comparison.sameSkipped skipped skipped' →
      Reports comparison options others text other ⟨.ok tree, skipped⟩ ⟨.ok tree', skipped'⟩
  | refused {fault fault' skipped skipped'} : fault.cause = fault'.cause →
      comparison.labels.first.position fault.position =
        comparison.labels.second.position fault'.position →
      comparison.sameSkipped skipped skipped' →
      Reports comparison options others text other ⟨.error (options.error text fault), skipped⟩
        ⟨.error (others.error other fault'), skipped'⟩
  | excused {fault skipped report} : comparison.excused fault.cause →
      Reports comparison options others text other ⟨.error (options.error text fault), skipped⟩
        report

omit levels declarative in
theorem reports_of_related {options others : Options} {text other : List Char}
    (related : comparison.Related (options.tree text) (others.tree other))
    (alike : comparison.Alike (.ofText text) (.ofText other)) (whole : comparison.firstTail = []) :
    comparison.Reports options others text other (parseNormalized options text)
      (parseNormalized others other) := by
  have outcomes := related.agrees alike
  unfold parseNormalized
  generalize options.tree text (.ofText text) = outcome at outcomes
  generalize others.tree other (.ofText other) = outcome' at outcomes
  cases outcomes with
  | ok trees alike => exact .accepted trees alike.skipped
  | lost lost =>
      unfold Lost at lost
      rw [whole] at lost
      exact absurd lost (Nat.not_lt_zero _)
  | atBrace isLoose => exact isLoose.elim
  | error causes positions skipped => exact .refused causes positions skipped
  | excused excused => exact .excused excused

end Qml.Comparison
