import Qml.Proofs.Comparison.Finish
import Qml.Proofs.Parser.Repetition

/-! # Comparing scripts up to where the texts part

A script is read statement by statement, so that what two parses make of a statement
decides what they make of a script. -/

namespace Qml

open Qml.Parser

namespace Grammar

variable {grammar : Grammar} {state after : State}

theorem scriptItem_eq_some {value : Statement} :
    grammar.scriptItem state = .ok (some value) after ↔
      state.cursor.current.isEnd = false ∧ grammar.statement state = .ok value after := by
  simp only [scriptItem, run_atEnd, run_ite]
  cases state.cursor.current.isEnd with
  | true => simp [run_pure]
  | false =>
      simp only [Bool.false_eq_true, if_false, bind_eq_ok, run_pure, EStateM.Result.ok.injEq,
        Option.some.injEq, true_and]
      constructor
      · rintro ⟨_, _, ok, rfl, rfl⟩
        exact ok
      · exact fun ok => ⟨value, after, ok, rfl, rfl⟩

theorem scriptItem_of_isEnd (isEnd : state.cursor.current.isEnd = true) :
    grammar.scriptItem state = .ok none state := by
  simp only [scriptItem, run_atEnd, isEnd, if_true]
  rfl

theorem anyStatement_ne_ok_of_else {value : Statement}
    (isElse : state.cursor.current.isKeyword .else_ = true) :
    grammar.anyStatement state ≠ .ok value after := by
  have kind : state.cursor.current.kind = .keyword .else_ := of_decide_eq_true isElse
  intro ok
  simp only [anyStatement, run_token, kind, run_advance] at ok
  obtain ⟨statement, between, refused, -⟩ := bind_eq_ok.mp ok
  exact refuseAt_ne_ok refused

theorem within_statement_ne_ok_of_else {setting : Setting} {limit : Nat} {value : Statement}
    (isElse : state.cursor.current.isKeyword .else_ = true) :
    (Grammar.within setting limit).statement state ≠ .ok value after := by
  have nested : ∀ entered : State, entered.cursor = state.cursor →
      (Deeper.within setting limit).statement entered ≠ .ok value after := by
    intro entered same ok
    cases limit with
    | zero => exact refuse_ne_ok ok
    | succ limit =>
        obtain ⟨inner, parsed, -⟩ := inScope_eq_ok.mp ok
        exact anyStatement_ne_ok_of_else (by simpa [same] using isElse) parsed
  have kind : state.cursor.current.kind = .keyword .else_ := of_decide_eq_true isElse
  have notDot : state.settled.cursor.current.isPunctuation '.' = false := by
    have settled : state.settled.cursor = state.cursor := rfl
    simp [Token.isPunctuation, settled, kind]
  intro ok
  simp only [statement, Grammar.within] at ok
  cases dialect : setting.dialect with
  | script =>
      simp only [dialect] at ok
      exact nested state rfl ok
  | declarative helper component =>
      simp only [dialect, run_takeAwaited, pragmaOr, run_atPunctuation, notDot, Bool.false_eq_true,
        if_false] at ok
      exact nested state.settled rfl ok

end Grammar

namespace Comparison

variable {comparison : Comparison} {α : Type} [Labeled α]

theorem alike_of_remaining {state other : State} {shared shared' : List Token}
    (here : state.cursor.remaining = shared ++ comparison.firstTail)
    (there : other.cursor.remaining = shared' ++ comparison.secondTail) (inhabited : shared ≠ [])
    (same : comparison.labels.Same shared shared')
    (previousEnd : comparison.labels.first.stop state.cursor.previousEnd =
      comparison.labels.second.stop other.cursor.previousEnd)
    (scope : state.scope.Agrees other.scope)
    (patches : comparison.samePatches state.patches other.patches)
    (skipped : comparison.sameSkipped state.skipped other.skipped)
    (fits : comparison.Fits state.cursor.remaining) : comparison.Alike state other := by
  obtain ⟨token, rest, rfl⟩ := List.exists_cons_of_ne_nil inhabited
  cases shared' with
  | nil => simp at same
  | cons token' rest' =>
      obtain ⟨current, upcoming⟩ := List.cons.inj here
      obtain ⟨current', upcoming'⟩ := List.cons.inj there
      obtain ⟨first, more⟩ := List.cons.inj same.relabel_eq
      refine ⟨?_, ⟨rest, rest', upcoming, upcoming', more⟩, previousEnd, scope, patches, skipped,
        fits⟩
      rw [current, current']
      exact first

theorem RelatedUpTo.collects {step step' : Parser (Option α)}
    (related : comparison.Related step step') (whole : comparison.firstTail = [])
    {state state' last : State} {values : List α} (alike : comparison.Alike state state')
    (collects : Collects step state values last) :
    ∃ values' last', Collects step' state' values' last' ∧
      comparison.labels.Same values values' ∧ comparison.Alike last last' := by
  induction collects generalizing state' with
  | done state => exact ⟨[], state', .done state', rfl, alike⟩
  | @round value more state between last first rest induction =>
      have here : ¬ comparison.Lost between := by simp [Lost, whole]
      obtain ⟨value', between', first', same, alike'⟩ := related.exists_ok alike first here
      obtain ⟨more', last', rest', sameRest, alike''⟩ := induction alike'
      cases value' with
      | none => simp at same
      | some value' => exact ⟨value' :: more', last', .round first' rest', by simp_all, alike''⟩

/-- All statements of the first text are those that the second begins with. -/
theorem Continued.collects (continued : comparison.Continued) {limit : Nat}
    {state state' last : State} {values : List Statement} (near : comparison.Near state state')
    (collects : Collects (Grammar.within comparison.first limit).scriptItem state values last)
    (atEnd : last.cursor.AtEnd) :
    ∃ values' last', Collects (Grammar.within comparison.second limit).scriptItem state' values'
        last' ∧ comparison.labels.Same values values' ∧ comparison.AtEdge last last' := by
  induction collects generalizing state' with
  | done state =>
      rcases near with alike | edge
      · exact absurd atEnd.upcoming_eq (continued.inside alike)
      · exact ⟨[], state', .done state', rfl, edge⟩
  | @round value more state between last first rest induction =>
      obtain ⟨inside, ok⟩ := Grammar.scriptItem_eq_some.mp first
      rcases near with alike | edge
      · have finishes := statement_finishes continued (within_finishes continued limit)
        obtain ⟨value', between', ok', same, near'⟩ := finishes.exists_ok alike ok
        obtain ⟨more', last', rest', sameRest, edge'⟩ := induction near' atEnd
        rw [alike.current.isEnd_eq] at inside
        have first' : (Grammar.within comparison.second limit).scriptItem state' =
            .ok (some value') between' := Grammar.scriptItem_eq_some.mpr ⟨inside, ok'⟩
        exact ⟨value' :: more', last', .round first' rest', by simp_all, edge'⟩
      · rw [(continued.atEnd edge).isEnd] at inside
        cases inside

end Comparison

end Qml
