import Qml.Proofs.Height.Basic
import Qml.Proofs.Operators
import Qml.Proofs.Parser.Yields

/-! # The height of expressions

If the nesting productions return trees of some height, the other productions
return trees that are only higher by a constant, as long as steps along links do
not count. Here that is shown for functions, blocks and expressions. -/

namespace Qml

open Qml.Parser

def Link.ignored : Link → Bool := fun _ => false

@[simp] theorem Link.step_ignored (link : Link) : Link.step Link.ignored link = 0 := rfl

structure Deeper.Low (deeper : Deeper) (n : Nat) : Prop where
  pos : 1 ≤ n
  statement : Yields (Statement.height Link.ignored · ≤ n) deeper.statement
  assignment : ∀ noIn, Yields (Expr.height Link.ignored · ≤ n) (deeper.assignment noIn)
  unary : ∀ calls, Yields (Expr.height Link.ignored · ≤ n) (deeper.unary calls)
  atom : ∀ calls, Yields (Expr.height Link.ignored · ≤ n) (deeper.atom calls)
  members : Yields (∀ member ∈ ·, Member.height Link.ignored member ≤ n) deeper.members

namespace Grammar

variable {grammar : Grammar} {n : Nat} (low : grammar.deeper.Low n)

include low

/-! ## Functions and blocks -/

theorem statement_low : Yields (Statement.height Link.ignored · ≤ n) grammar.statement := by
  have pos := low.pos
  unfold Grammar.statement
  split
  · exact low.statement
  · refine .bind_any fun _ => .bind_any fun _ => .ite ?_ low.statement
    refine .bind_any fun _ => .ite ?_ (.of_ne_ok unexpected_ne_ok)
    refine .bind_any fun _ => .bind_any fun _ => .bind_any fun _ => .bind_any fun _ =>
      .bind_any fun _ => .pure ?_
    simpa using pos

theorem block_low :
    Yields (∀ statement ∈ ·, Statement.height Link.ignored statement ≤ n) grammar.block := by
  have item : Yields (∀ statement ∈ ·, Statement.height Link.ignored statement ≤ n)
      grammar.blockItem := by
    refine .bind_any fun _ => .ite .pure_none ?_
    refine .bind_any fun _ => .ite (.of_ne_ok unexpected_ne_ok) ?_
    exact (statement_low low).bind fun statement height => .pure (by simpa using height)
  refine .bind_any fun _ => item.collect.bind fun statements heights => ?_
  exact .bind_any fun _ => .pure heights

theorem function_low (named : Bool) (start : Span) :
    Yields (Function.height Link.ignored · ≤ n) (grammar.function named start) := by
  refine .bind_any fun _ => .bind_any fun _ => .bind_any fun _ => ?_
  refine (block_low low).inScope.bind fun body heights => .bind_any fun _ => .pure ?_
  simpa using heights

/-! ## Sequences -/

theorem memberBlock_low :
    Yields (∀ member ∈ ·, Member.height Link.ignored member ≤ n) grammar.memberBlock := by
  refine .bind_any fun _ => low.members.bind fun members heights => ?_
  exact .bind_any fun _ => .pure heights

theorem sequenceItem_low (noIn : Bool) :
    Yields (Expr.height Link.ignored · ≤ n + 1) (grammar.sequenceItem noIn) := by
  refine .bind_any fun start => (low.assignment noIn).bind fun expr height => ?_
  have same : Expr.height Link.ignored expr ≤ n + 1 := by omega
  split
  · exact .pure same
  · refine .bind_any fun brace => ?_
    split
    · refine (memberBlock_low low).bind fun members heights => .bind_any fun span => .pure ?_
      have inside : Member.heightAll Link.ignored members ≤ n := by simpa using heights
      simp only [Expr.height, ExprKind.height, Element.height]
      omega
    · exact .pure same

section

variable {m : Nat}

/-- The items of a sequence, or else the expression itself, have a height of at
most `m`. -/
def FlatLow (m : Nat) (expr : Expr) : Prop :=
  match expr.kind with
  | .sequence items => ∀ item ∈ items, item.height Link.ignored ≤ m
  | _ => expr.height Link.ignored ≤ m

omit low in
theorem flatLow_of_height {expr : Expr} (height : expr.height Link.ignored ≤ m) :
    FlatLow m expr := by
  rcases expr with ⟨kind, span⟩
  cases kind with
  | sequence items =>
      intro item member
      have inside : ∀ item ∈ items, item.height Link.ignored ≤ m - 1 :=
        Expr.heightAll_le.mp (by simp only [Expr.height, ExprKind.height] at height; omega)
      exact Nat.le_trans (inside item member) (Nat.sub_le m 1)
  | _ => exact height

omit low in
theorem FlatLow.height_le {expr : Expr} (flat : FlatLow m expr) :
    expr.height Link.ignored ≤ m + 1 := by
  rcases expr with ⟨kind, span⟩
  cases kind with
  | sequence items =>
      have inside : Expr.heightAll Link.ignored items ≤ m := Expr.heightAll_le.mpr flat
      simp only [Expr.height, ExprKind.height]
      omega
  | _ => exact Nat.le_succ_of_le flat

omit low in
/-- A sequence behind a comma is taken apart, so that sequences do not pile up. -/
theorem FlatLow.joinSequence {first rest : Expr} (height : first.height Link.ignored ≤ m)
    (flat : FlatLow m rest) : FlatLow m (joinSequence first rest) := by
  rcases rest with ⟨kind, span⟩
  cases kind with
  | sequence items => exact List.forall_mem_cons.mpr ⟨height, flat⟩
  | _ => exact List.forall_mem_cons.mpr ⟨height, by simpa [FlatLow] using flat⟩

omit low in
theorem flatLow_sequenceOf {first : Expr} {more : List Expr}
    (height : first.height Link.ignored ≤ m)
    (heights : ∀ expr ∈ more, expr.height Link.ignored ≤ m) :
    FlatLow m (sequenceOf first more) := by
  induction more generalizing first with
  | nil => exact flatLow_of_height height
  | cons second more induction =>
      obtain ⟨secondHeight, moreHeights⟩ := List.forall_mem_cons.mp heights
      exact (induction secondHeight moreHeights).joinSequence height

end

theorem sequenceTail_low (commas noIn : Bool) {first : Expr}
    (height : first.height Link.ignored ≤ n + 1) :
    Yields (Expr.height Link.ignored · ≤ n + 2) (grammar.sequenceTail commas noIn first) := by
  have step : Yields (∀ expr ∈ ·, Expr.height Link.ignored expr ≤ n + 1)
      (grammar.sequenceStep noIn) := by
    refine .bind_any fun _ => .ite (.bind_any fun _ => ?_) .pure_none
    exact (sequenceItem_low low noIn).bind fun expr height => .pure (by simpa using height)
  refine .ite ?_ (.pure (Nat.le_succ_of_le height))
  exact step.collect.bind fun more heights => .pure (flatLow_sequenceOf height heights).height_le

theorem expression_low (commas noIn : Bool) :
    Yields (Expr.height Link.ignored · ≤ n + 2) (grammar.expression commas noIn) :=
  (sequenceItem_low low noIn).bind fun _ height => sequenceTail_low low commas noIn height

theorem parenthesized_low : Yields (Expr.height Link.ignored · ≤ n + 2) grammar.parenthesized :=
  .bind_any fun _ => (expression_low low true false).bind fun _ height =>
    .bind_any fun _ => .pure height

/-! ## Atoms and what follows them -/

theorem expressionList_low (closing : Char) (trailing holes : Bool) :
    Yields (∀ item ∈ ·, ∀ expr ∈ item, Expr.height Link.ignored expr ≤ n + 2)
      (grammar.expressionList closing trailing holes) := by
  apply Yields.listUntil
  refine .bind_any fun _ => .ite .pure_none ?_
  exact (expression_low low false false).bind fun expr height => .pure (by simpa using height)

theorem arguments_low :
    Yields (∀ expr ∈ ·, Expr.height Link.ignored expr ≤ n + 2) grammar.arguments := by
  refine (expressionList_low low ')' false false).bind fun items heights => .pure ?_
  intro expr member
  obtain ⟨item, among, rfl⟩ := List.mem_filterMap.mp member
  exact heights _ among expr rfl

theorem array_low (opening : Span) :
    Yields (Expr.height Link.ignored · ≤ n + 3) (grammar.array opening) := by
  have script : Yields (Expr.height Link.ignored · ≤ n + 3) (grammar.scriptArray opening) := by
    refine (expressionList_low low _ _ _).bind fun elements heights => ?_
    refine .bind_any fun span => .pure ?_
    have inside : Expr.heightHoles Link.ignored elements ≤ n + 2 := Expr.heightHoles_le.mpr heights
    simp only [Expr.height, ExprKind.height]
    omega
  refine script.bind fun expr height => ?_
  split
  · exact .pure height
  · refine .bind_any fun stop => .bind_any fun source => .pure ?_
    unfold withArraySource
    split
    case h_1 elements source kind =>
        rcases expr with ⟨_, span⟩
        cases kind
        exact height
    case h_2 => exact height

theorem objectEntry_low :
    Yields (ObjectEntry.height Link.ignored · ≤ n + 2) grammar.objectEntry := by
  have pos := low.pos
  refine .bind_any fun keyToken => .bind_any fun key => .bind_any fun colon => ?_
  split
  · refine .bind_any fun key => (function_low low false _).bind fun function height => ?_
    refine .bind_any fun span => .pure ?_
    simp only [ObjectEntry.height, Expr.height, ExprKind.height]
    omega
  · exact .bind_any fun _ => (expression_low low false false).bind fun value height => .pure height

theorem object_low (opening : Span) :
    Yields (Expr.height Link.ignored · ≤ n + 3) (grammar.object opening) := by
  refine (objectEntry_low low).listUntil.bind fun entries heights => .bind_any fun span => .pure ?_
  have inside : ObjectEntry.heightAll Link.ignored entries ≤ n + 2 :=
    ObjectEntry.heightAll_le.mpr heights
  simp only [Expr.height, ExprKind.height]
  omega

theorem construction_low (start : Span) :
    Yields (Expr.height Link.ignored · ≤ n + 3) (grammar.construction start) := by
  refine (low.atom false).bind fun callee height => .bind_any fun _ => .ite ?_ ?_
  · refine .bind_any fun _ => (arguments_low low).bind fun arguments heights => ?_
    refine .bind_any fun span => .pure ?_
    have inside : Expr.heightAll Link.ignored arguments ≤ n + 2 := Expr.heightAll_le.mpr heights
    simp only [Expr.height, ExprKind.height]
    omega
  · refine .bind_any fun span => .pure ?_
    simp only [Expr.height, ExprKind.height, Expr.heightAll]
    omega

theorem parenthesizedAtom_low (start : Span) :
    Yields (Expr.height Link.ignored · ≤ n + 2) (grammar.parenthesizedAtom start) := by
  refine (expression_low low true false).bind fun inner height => ?_
  rcases inner with ⟨kind, _⟩
  exact .bind_any fun _ => .bind_any fun span => .pure height

theorem functionAtom_low (start : Span) :
    Yields (Expr.height Link.ignored · ≤ n + 1) (grammar.functionAtom start) := by
  refine (function_low low false start).bind fun function height => .bind_any fun span => .pure ?_
  simp only [Expr.height, ExprKind.height]
  omega

theorem bareAtom_low : Yields (Expr.height Link.ignored · ≤ n + 3) grammar.bareAtom := by
  refine .bind_any fun current => ?_
  split
  · exact .bind_any fun _ => construction_low low _
  · exact .bind_any fun _ => (parenthesizedAtom_low low _).mono fun _ => Nat.le_succ_of_le
  · exact .bind_any fun _ => array_low low _
  · exact .bind_any fun _ => object_low low _
  · refine .bind_any fun _ => (functionAtom_low low _).mono fun _ height => ?_
    omega
  · split
    case h_1 atom isAtom =>
        refine .bind_any fun _ => .pure ?_
        have single : atom.height Link.ignored = 1 := by
          unfold simpleAtom? at isAtom
          split at isAtom <;> cases isAtom <;> rfl
        simp only [Expr.height, single]
        omega
    case h_2 => exact .of_ne_ok unexpected_ne_ok

/-- What an expression is taken from does not count, only an index or argument. -/
theorem atom_low (calls : Bool) :
    Yields (Expr.height Link.ignored · ≤ n + 3) (grammar.atom calls) := by
  refine (bareAtom_low low).bind fun expr height => .iterate height fun expr height => ?_
  refine .bind_any fun _ => .ite ?_ (.bind_any fun _ => .ite ?_ (.bind_any fun _ => .ite ?_ ?_))
  · refine .bind_any fun _ => .bind_any fun property => .bind_any fun span => .pure ?_
    simpa using height
  · refine .bind_any fun _ => (expression_low low true false).bind fun index inside => ?_
    refine .bind_any fun _ => .bind_any fun span => .pure ?_
    simp only [Option.mem_def, Option.some.injEq, forall_eq', Expr.height, ExprKind.height,
      Link.step_ignored]
    omega
  · refine .bind_any fun _ => (arguments_low low).bind fun arguments heights => ?_
    refine .bind_any fun span => .pure ?_
    have inside : Expr.heightAll Link.ignored arguments ≤ n + 2 := Expr.heightAll_le.mpr heights
    simp only [Option.mem_def, Option.some.injEq, forall_eq', Expr.height, ExprKind.height,
      Link.step_ignored]
    omega
  · exact .pure_none

/-! ## Operators -/

omit low in
theorem applyUnary_low {m : Nat} (operator : Operator) (fixity : Fixity) {operand : Expr}
    (start : Span) (height : operand.height Link.ignored ≤ m) :
    Yields (fun expr => expr.height Link.ignored ≤ m + 1 ∧ expr.isAssignable = false)
      (applyUnary operator fixity operand start) := by
  refine .ite (.of_ne_ok refuseAt_ne_ok) (.bind_any fun span => .pure ⟨?_, rfl⟩)
  simp only [Expr.height, ExprKind.height]
  omega

omit low in
theorem applyUnary_of_not_assignable {operator : Operator} {fixity : Fixity} {operand : Expr}
    {start : Span} (step : operator.isStep = true) (fixed : operand.isAssignable = false) :
    Yields (fun _ => False) (applyUnary operator fixity operand start) := by
  unfold applyUnary
  rw [if_pos (by simp [step, fixed])]
  exact .of_ne_ok refuseAt_ne_ok

/-- Only one step can follow an atom: behind it nothing is assignable. -/
theorem stepped_low (calls : Bool) :
    Yields (Expr.height Link.ignored · ≤ n + 4) (grammar.stepped calls) := by
  refine (atom_low low calls).bind fun expr height => ?_
  have stepped : Yields (fun expr => expr.height Link.ignored ≤ n + 3 ∨
      (expr.height Link.ignored ≤ n + 4 ∧ expr.isAssignable = false)) (iterate stepAfter expr) := by
    refine .iterate (.inl height) fun expr height => .bind_any fun current => ?_
    split
    case h_1 operator kind =>
        by_cases step : (operator.isStep && !current.afterLineBreak) = true
        · rw [if_pos step]
          refine .bind_any fun _ => .bind_any fun span => ?_
          rcases height with height | ⟨-, fixed⟩
          · refine (applyUnary_low operator .after span height).bind fun result height => .pure ?_
            simpa using .inr height
          · have isStep : operator.isStep = true := by simp_all
            exact (applyUnary_of_not_assignable isStep fixed).bind fun _ => False.elim
        · rw [if_neg step]
          exact .pure_none
    case h_2 => exact .pure_none
  refine stepped.mono fun expr height => ?_
  omega

theorem unary_low (calls : Bool) :
    Yields (Expr.height Link.ignored · ≤ n + 4) (grammar.unary calls) := by
  refine .bind_any fun current => ?_
  split
  · refine .ite ?_ (stepped_low low calls)
    refine .bind_any fun _ => (low.unary calls).bind fun operand height => ?_
    refine (applyUnary_low _ _ _ height).mono fun expr height => ?_
    omega
  · exact stepped_low low calls

/-- The left operand does not count, and how often an operand on the right can be
extended is limited by how often precedence can grow. -/
theorem climb_low (noIn : Bool) (room least : Nat) {left : Expr}
    (height : left.height Link.ignored ≤ n + 4 + room) :
    Yields (Expr.height Link.ignored · ≤ n + 4 + room) (grammar.climb noIn room least left) := by
  induction room generalizing least left with
  | zero => exact .pure height
  | succ room induction =>
      refine .iterate height fun left height => .bind_any fun found => ?_
      split
      · exact .pure_none
      · refine .bind_any fun _ => (unary_low low true).bind fun operand operandHeight => ?_
        have operandLow : operand.height Link.ignored ≤ n + 4 + room := by omega
        refine (induction _ operandLow).bind fun right rightHeight => ?_
        have applied : ∀ operator, Yields (Expr.height Link.ignored · ≤ n + 4 + (room + 1))
            (grammar.applyBinary operator left right) := by
          refine fun operator => ⟨fun ok => ?_⟩
          rw [run_applyBinary] at ok
          cases ok
          simp only [Expr.height, ExprKind.height, Link.step_ignored]
          omega
        exact (applied _).bind fun expr height => .pure (by simpa using height)

theorem assignment_low (noIn : Bool) :
    Yields (Expr.height Link.ignored · ≤ n + 16) (grammar.assignment noIn) := by
  have operation : Yields (Expr.height Link.ignored · ≤ n + 14) (grammar.operation noIn) :=
    (unary_low low true).bind fun left height =>
      climb_low low noIn Operator.greatestPrecedence 0 (Nat.le_add_right_of_le height)
  have conditional : Yields (Expr.height Link.ignored · ≤ n + 15) (grammar.conditional noIn) := by
    refine operation.bind fun test testHeight => .bind_any fun _ => .ite ?_ (.pure (by omega))
    refine .bind_any fun _ => (expression_low low false false).bind fun consequent height => ?_
    refine .bind_any fun _ => (expression_low low false noIn).bind fun alternate height' => .pure ?_
    simp only [Expr.height, ExprKind.height]
    omega
  refine .bind_any fun start => conditional.bind fun left height => .bind_any fun found => ?_
  split
  · exact .pure (by omega)
  · refine .ite (.bind_any fun _ => ?_) (.of_ne_ok refuseAt_ne_ok)
    refine (low.assignment noIn).bind fun value valueHeight => .pure ?_
    simp only [Expr.height, ExprKind.height]
    omega

end Grammar

end Qml
