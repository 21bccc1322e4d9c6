import Qml.Proofs.Beginnings.Basic
import Qml.Proofs.Operators

/-! # Members in expressions

If the members that the nesting productions yield begin as they may, so do those in
functions, blocks and expressions. None of these productions changes whether string
keys are in force. -/

namespace Qml

open Qml.Parser

structure Deeper.Begins (text : List Char) (deeper : Deeper) : Prop where
  statement : ∀ keyed, YieldsOn text keyed (Statement.Begun text keyed) deeper.statement
  assignment : ∀ keyed noIn, YieldsOn text keyed (Expr.Begun text keyed) (deeper.assignment noIn)
  unary : ∀ keyed calls, YieldsOn text keyed (Expr.Begun text keyed) (deeper.unary calls)
  atom : ∀ keyed calls, YieldsOn text keyed (Expr.Begun text keyed) (deeper.atom calls)
  members : ∀ keyed, YieldsOn text keyed (Member.AllBegun text keyed) deeper.members

namespace Grammar

variable {text : List Char} {keyed : Bool}

theorem pragmaOr_begun {otherwise : Parser Statement}
    (yields : YieldsOn text keyed (Statement.Begun text keyed) otherwise) :
    YieldsOn text keyed (Statement.Begun text keyed) (pragmaOr otherwise) := by
  refine .bind_any fun _ => .ite ?_ yields
  refine .bind_any fun _ => .ite ?_ (.of_ne_ok unexpected_ne_ok)
  refine .bind_any fun dot => .bind_any fun _ => .bind_any fun name => .bind_any fun _ =>
    .bind_any fun span => .pure ?_
  exact .of_parts (List.forall_mem_nil _) rfl

variable {grammar : Grammar} [grammar.deeper.KeepsScope]
  [grammar.deeper.Follows State.Walks] (begins : grammar.deeper.Begins text)

include begins

/-! ## Functions and blocks -/

omit [grammar.deeper.KeepsScope] [grammar.deeper.Follows State.Walks] in
theorem statement_begun :
    YieldsOn text keyed (Statement.Begun text keyed) grammar.statement := by
  unfold Grammar.statement
  split
  case h_1 => exact begins.statement keyed
  case h_2 => exact .bind_any fun _ => pragmaOr_begun (begins.statement keyed)

theorem block_begun :
    YieldsOn text keyed (∀ statement ∈ ·, Statement.Begun text keyed statement)
      grammar.block := by
  have item : YieldsOn text keyed (∀ statement ∈ ·, Statement.Begun text keyed statement)
      grammar.blockItem := by
    refine .bind_any fun _ => .ite .pure_none ?_
    refine .bind_any fun _ => .ite (.of_ne_ok unexpected_ne_ok) ?_
    exact (statement_begun begins).bind fun statement begun => .pure_some begun
  refine .bind_any fun _ => item.collect.bind fun statements begun => ?_
  exact .bind_any fun _ => .pure begun

theorem function_begun (named : Bool) (start : Span) :
    YieldsOn text keyed (fun function => (Node.function function).Begun text keyed)
      (grammar.function named start) := by
  refine .bind_any fun name => .bind_any fun _ => .bind_any fun parameters => ?_
  refine ((block_begun begins).inScope fun _ => rfl).bind fun body begun => ?_
  exact .bind_any fun span => .pure (.of_parts (by simpa using begun) rfl)

/-! ## Sequences -/

theorem memberBlock_begun :
    YieldsOn text keyed (Member.AllBegun text keyed) grammar.memberBlock := by
  refine .bind_any fun _ => (begins.members keyed).bind fun members begun => ?_
  exact .bind_any fun _ => .pure begun

theorem sequenceItem_begun (noIn : Bool) :
    YieldsOn text keyed (Expr.Begun text keyed) (grammar.sequenceItem noIn) := by
  refine .bind_any fun start => (begins.assignment keyed noIn).bind fun expr begun => ?_
  split
  case h_1 => exact .pure begun
  case h_2 =>
      refine .bind_any fun brace => ?_
      split
      case h_1 typeName _ =>
          refine (memberBlock_begun begins).bind fun members inside => .bind_any fun span => ?_
          have element : (Node.element ⟨typeName, none, members, span⟩).Begun text keyed :=
            .of_members inside rfl
          exact .pure (.of_parts (by simpa using element) rfl)
      case h_2 => exact .pure begun

omit [grammar.deeper.KeepsScope] [grammar.deeper.Follows State.Walks] begins in
theorem joinSequence_begun {first rest : Expr} (begun : first.Begun text keyed)
    (more : rest.Begun text keyed) : (joinSequence first rest).Begun text keyed := by
  unfold joinSequence
  split
  case h_1 items isSequence =>
      obtain ⟨kind, span⟩ := rest
      cases isSequence
      have inside : ∀ item ∈ items, item.Begun text keyed := by
        intro item among
        have isPart : ⟨none, .expr item⟩ ∈ (Node.expr ⟨.sequence items, span⟩).parts := by
          simpa using among
        exact more.part rfl isPart
      exact .of_parts (by simpa using ⟨begun, inside⟩) rfl
  case h_2 => exact .of_parts (by simpa using ⟨begun, more⟩) rfl

omit [grammar.deeper.KeepsScope] [grammar.deeper.Follows State.Walks] begins in
theorem sequenceOf_begun {first : Expr} {more : List Expr} (begun : first.Begun text keyed)
    (later : ∀ expr ∈ more, Expr.Begun text keyed expr) :
    (sequenceOf first more).Begun text keyed := by
  induction more generalizing first with
  | nil => exact begun
  | cons second more induction =>
      obtain ⟨next, rest⟩ := List.forall_mem_cons.mp later
      exact joinSequence_begun begun (induction next rest)

theorem expression_begun (commas noIn : Bool) :
    YieldsOn text keyed (Expr.Begun text keyed) (grammar.expression commas noIn) := by
  have step : YieldsOn text keyed (∀ expr ∈ ·, Expr.Begun text keyed expr)
      (grammar.sequenceStep noIn) := by
    refine .bind_any fun _ => .ite (.bind_any fun _ => ?_) .pure_none
    exact (sequenceItem_begun begins noIn).bind fun expr begun => .pure_some begun
  refine (sequenceItem_begun begins noIn).bind fun first begun => .ite ?_ (.pure begun)
  exact step.collect.bind fun more later => .pure (sequenceOf_begun begun later)

theorem parenthesized_begun :
    YieldsOn text keyed (Expr.Begun text keyed) grammar.parenthesized :=
  .bind_any fun _ => (expression_begun begins true false).bind fun _ begun =>
    .bind_any fun _ => .pure begun

/-! ## Lists, arrays and objects -/

theorem expressionList_begun (closing : Char) (trailing holes : Bool) :
    YieldsOn text keyed (∀ item ∈ ·, ∀ expr ∈ item, Expr.Begun text keyed expr)
      (grammar.expressionList closing trailing holes) := by
  apply YieldsOn.listUntil
  refine .bind_any fun _ => .ite .pure_none ?_
  exact (expression_begun begins false false).bind fun expr begun => .pure_some begun

theorem arguments_begun :
    YieldsOn text keyed (∀ expr ∈ ·, Expr.Begun text keyed expr) grammar.arguments := by
  refine (expressionList_begun begins ')' false false).bind fun items begun => .pure ?_
  intro expr member
  obtain ⟨item, among, rfl⟩ := List.mem_filterMap.mp member
  exact begun _ among expr rfl

theorem array_begun (opening : Span) :
    YieldsOn text keyed (Expr.Begun text keyed) (grammar.array opening) := by
  have script : YieldsOn text keyed
      (fun expr => ∃ elements span, expr = ⟨.array elements none, span⟩ ∧
        ∀ item ∈ elements, ∀ element ∈ item, Expr.Begun text keyed element)
      (grammar.scriptArray opening) :=
    (expressionList_begun begins _ _ _).bind fun elements begun =>
      .bind_any fun span => .pure ⟨elements, span, rfl, begun⟩
  refine script.bind fun expr => ?_
  rintro ⟨elements, span, rfl, begun⟩
  have kept : ∀ source, Expr.Begun text keyed ⟨.array elements source, span⟩ := by
    refine fun source => .of_parts ?_ rfl
    simpa using fun element among => begun _ among element rfl
  split
  case h_1 => exact .pure (kept none)
  case h_2 => exact .bind_any fun stop => .bind_any fun source => .pure (kept _)

theorem objectEntry_begun :
    YieldsOn text keyed (fun entry => entry.value.Begun text keyed) grammar.objectEntry := by
  refine .bind_any fun keyToken => .bind_any fun key => .bind_any fun colon => ?_
  split
  case h_1 kind isAccessor =>
      refine .bind_any fun key => (function_begun begins false _).bind fun function begun => ?_
      exact .bind_any fun span => .pure (.of_parts (by simpa using begun) rfl)
  case h_2 =>
      refine .bind_any fun _ => ?_
      exact (expression_begun begins false false).bind fun value begun => .pure begun

theorem object_begun (opening : Span) :
    YieldsOn text keyed (Expr.Begun text keyed) (grammar.object opening) := by
  refine (objectEntry_begun begins).listUntil.bind fun entries begun => .bind_any fun span => ?_
  exact .pure (.of_parts (by simpa using begun) rfl)

/-! ## Atoms and what follows them -/

theorem construction_begun (start : Span) :
    YieldsOn text keyed (Expr.Begun text keyed) (grammar.construction start) := by
  refine (begins.atom keyed false).bind fun callee begun => .bind_any fun _ => .ite ?_ ?_
  · refine .bind_any fun _ => (arguments_begun begins).bind fun arguments inside => ?_
    exact .bind_any fun span => .pure (.of_parts (by simpa using ⟨begun, inside⟩) rfl)
  · exact .bind_any fun span => .pure (.of_parts (by simpa using begun) rfl)

theorem functionAtom_begun (start : Span) :
    YieldsOn text keyed (Expr.Begun text keyed) (grammar.functionAtom start) := by
  refine (function_begun begins false start).bind fun function begun => ?_
  exact .bind_any fun span => .pure (.of_parts (by simpa using begun) rfl)

theorem bareAtom_begun :
    YieldsOn text keyed (Expr.Begun text keyed) grammar.bareAtom := by
  refine .bind_any fun current => ?_
  split
  · exact .bind_any fun _ => construction_begun begins _
  · refine .bind_any fun _ => (expression_begun begins true false).bind fun inner begun => ?_
    exact .bind_any fun _ => .bind_any fun span => .pure (begun.withSpan span)
  · exact .bind_any fun _ => array_begun begins _
  · exact .bind_any fun _ => object_begun begins _
  · exact .bind_any fun _ => functionAtom_begun begins _
  · split
    case h_1 atom isAtom =>
        refine .bind_any fun _ => .pure (.of_parts ?_ rfl)
        unfold simpleAtom? at isAtom
        split at isAtom <;> cases isAtom <;> exact List.forall_mem_nil _
    case h_2 => exact .of_ne_ok unexpected_ne_ok

theorem atom_begun (calls : Bool) :
    YieldsOn text keyed (Expr.Begun text keyed) (grammar.atom calls) := by
  refine (bareAtom_begun begins).bind fun expr begun => .iterate begun fun expr begun => ?_
  refine .bind_any fun _ => .ite ?_ (.bind_any fun _ => .ite ?_ (.bind_any fun _ => .ite ?_ ?_))
  · refine .bind_any fun _ => .bind_any fun property => .bind_any fun span => .pure_some ?_
    exact .of_parts (by simpa using begun) rfl
  · refine .bind_any fun _ => (expression_begun begins true false).bind fun index inside => ?_
    refine .bind_any fun _ => .bind_any fun span => .pure_some ?_
    exact .of_parts (by simpa using ⟨begun, inside⟩) rfl
  · refine .bind_any fun _ => (arguments_begun begins).bind fun arguments inside => ?_
    refine .bind_any fun span => .pure_some ?_
    exact .of_parts (by simpa using ⟨begun, inside⟩) rfl
  · exact .pure_none

/-! ## Operators -/

omit [grammar.deeper.KeepsScope] [grammar.deeper.Follows State.Walks] begins in
theorem applyUnary_begun (operator : Operator) (fixity : Fixity) {operand : Expr} (start : Span)
    (begun : operand.Begun text keyed) :
    YieldsOn text keyed (Expr.Begun text keyed) (applyUnary operator fixity operand start) := by
  refine .ite (.of_ne_ok refuseAt_ne_ok) (.bind_any fun span => .pure ?_)
  exact .of_parts (by simpa using begun) rfl

theorem unary_begun (calls : Bool) :
    YieldsOn text keyed (Expr.Begun text keyed) (grammar.unary calls) := by
  have stepped : YieldsOn text keyed (Expr.Begun text keyed) (grammar.stepped calls) := by
    refine (atom_begun begins calls).bind fun expr begun => .iterate begun fun expr begun => ?_
    refine .bind_any fun current => ?_
    split
    case h_1 operator kind =>
        refine .ite (.bind_any fun _ => .bind_any fun span => ?_) .pure_none
        exact (applyUnary_begun operator .after span begun).bind fun result begun =>
          .pure_some begun
    case h_2 => exact .pure_none
  refine .bind_any fun current => ?_
  split
  · refine .ite (.bind_any fun _ => ?_) stepped
    exact (begins.unary keyed calls).bind fun operand begun => applyUnary_begun _ _ _ begun
  · exact stepped

/-- Precedence grows with each level of operators, so the induction is on the room left
for it. -/
theorem climb_begun (noIn : Bool) (room least : Nat) {left : Expr}
    (begun : left.Begun text keyed) :
    YieldsOn text keyed (Expr.Begun text keyed) (grammar.climb noIn room least left) := by
  induction room generalizing least left with
  | zero => exact .pure begun
  | succ room induction =>
      have context : ∀ precedence operand, Follows State.SameContext
          (grammar.climb noIn room precedence operand) := grammar.climb_obeys noIn room
      have walks : ∀ precedence operand, Follows State.Walks
          (grammar.climb noIn room precedence operand) := grammar.climb_obeys noIn room
      refine .iterate begun fun left begun => .bind_any fun found => ?_
      split
      case h_1 => exact .pure_none
      case h_2 operator precedence _ =>
          refine .bind_any fun _ => (unary_begun begins true).bind fun operand inside => ?_
          refine (induction precedence inside).bind fun right inside => ?_
          have applied : YieldsOn text keyed (Expr.Begun text keyed)
              (grammar.applyBinary operator left right) := by
            constructor
            intro state expr after stands ok
            rw [run_applyBinary] at ok
            cases ok
            exact .of_parts (by simpa using ⟨begun, inside⟩) rfl
          exact applied.bind fun expr begun => .pure_some begun

theorem assignment_begun (noIn : Bool) :
    YieldsOn text keyed (Expr.Begun text keyed) (grammar.assignment noIn) := by
  have operation : YieldsOn text keyed (Expr.Begun text keyed) (grammar.operation noIn) :=
    (unary_begun begins true).bind fun left begun =>
      climb_begun begins noIn Operator.greatestPrecedence 0 begun
  have conditional : YieldsOn text keyed (Expr.Begun text keyed) (grammar.conditional noIn) := by
    refine operation.bind fun test begun => .bind_any fun _ => .ite ?_ (.pure begun)
    refine .bind_any fun _ => ?_
    refine (expression_begun begins false false).bind fun consequent one => .bind_any fun _ => ?_
    refine (expression_begun begins false noIn).bind fun alternate two => .pure ?_
    exact .of_parts (by simpa using ⟨begun, one, two⟩) rfl
  refine .bind_any fun start => conditional.bind fun left begun => .bind_any fun found => ?_
  split
  case h_1 => exact .pure begun
  case h_2 =>
      refine .ite (.bind_any fun _ => ?_) (.of_ne_ok refuseAt_ne_ok)
      refine (begins.assignment keyed noIn).bind fun value inside => .pure ?_
      exact .of_parts (by simpa using ⟨begun, inside⟩) rfl

end Grammar

end Qml
