import Qml.Proofs.Nodes.Formed
import Qml.Proofs.Operators

/-! # Well formed expressions

If the nesting productions yield well formed nodes, so do the productions of
functions, blocks and expressions. The scope in which a production begins says
which places are around what it yields. -/

namespace Qml

open Qml.Parser

/-- Nesting productions that yield well formed nodes, whatever is around them.
Only declarative text has members. -/
structure Deeper.Builds (dialect : Dialect) (deeper : Deeper) : Prop where
  statement : ∀ places,
    YieldsAt dialect places (Statement.Built dialect places) deeper.statement
  assignment : ∀ places noIn,
    YieldsAt dialect places (Expr.WellFormed dialect places) (deeper.assignment noIn)
  unary : ∀ places calls,
    YieldsAt dialect places (Expr.WellFormed dialect places) (deeper.unary calls)
  atom : ∀ places calls,
    YieldsAt dialect places (Expr.WellFormed dialect places) (deeper.atom calls)
  members : dialect ≠ .script → ∀ places,
    YieldsAt dialect places (∀ member ∈ ·, Member.WellFormed dialect places member) deeper.members

theorem Expr.segments_ne_nil {expr : Expr} {name : QualifiedName}
    (spelled : expr.qualifiedName? = some name) : name.segments ≠ [] := by
  obtain ⟨segments, found, rfl⟩ := Option.map_eq_some_iff.mp spelled
  unfold segments? at found
  split at found
  case h_1 => cases found; simp
  case h_2 =>
      obtain ⟨outer, -, rfl⟩ := Option.map_eq_some_iff.mp found
      simp
  case h_3 => cases found

namespace Grammar

variable {dialect : Dialect} {places : List Place}

theorem pragmaOr_wellFormed (declarative : dialect ≠ .script) {otherwise : Parser Statement}
    (yields : YieldsAt dialect places (Statement.WellFormed dialect places) otherwise) :
    YieldsAt dialect places (Statement.WellFormed dialect places) (pragmaOr otherwise) := by
  refine .bind_any fun _ => .ite ?_ yields
  refine .bind_any fun _ => .ite ?_ (.of_ne_ok unexpected_ne_ok)
  refine .bind_any fun dot => .bind_any fun _ => .bind_any fun name => .bind_any fun _ =>
    .bind_any fun span => .pure ?_
  exact .intro declarative (List.forall_mem_nil _)

variable {grammar : Grammar} (builds : grammar.deeper.Builds grammar.dialect)

include builds

/-! ## Functions and blocks -/

theorem statement_wellFormed (places : List Place) :
    YieldsAt grammar.dialect places (Statement.WellFormed grammar.dialect places)
      grammar.statement := by
  have script : YieldsAt grammar.dialect places (Statement.WellFormed grammar.dialect places)
      grammar.deeper.statement := (builds.statement places).mono fun _ built => built.2
  unfold Grammar.statement
  split
  case h_1 => exact script
  case h_2 helper component isDeclarative =>
      have declarative : grammar.dialect ≠ .script := by simp [isDeclarative]
      exact .bind_any fun _ => pragmaOr_wellFormed declarative script

variable [grammar.deeper.Follows State.SameButKeys]

theorem block_wellFormed (places : List Place) :
    YieldsAt grammar.dialect places
      (∀ statement ∈ ·, Statement.WellFormed grammar.dialect places statement) grammar.block := by
  have item : YieldsAt grammar.dialect places
      (∀ statement ∈ ·, Statement.WellFormed grammar.dialect places statement)
      grammar.blockItem := by
    refine .bind_any fun _ => .ite .pure_none ?_
    refine .bind_any fun _ => .ite (.of_ne_ok unexpected_ne_ok) ?_
    exact (statement_wellFormed builds places).bind fun statement whole => .pure_some whole
  refine .bind_any fun _ => item.collect.bind fun statements whole => ?_
  exact .bind_any fun _ => .pure whole

/-- A function's body begins with no loop and no label around it. -/
theorem function_wellFormed (named : Bool) (start : Span) :
    YieldsAt grammar.dialect places
      (fun function => (Node.function function).WellFormed grammar.dialect places ∧
        (named = true → function.name.isSome = true))
      (grammar.function named start) := by
  have name : YieldsAt grammar.dialect places (fun name => named = true → name.isSome = true)
      (functionName named) := by
    refine .bind_any fun current => ?_
    split
    case h_1 => exact .bind_any fun _ => .pure fun _ => rfl
    case h_2 =>
        cases named with
        | false => exact .pure fun required => absurd required Bool.false_ne_true
        | true => exact .of_ne_ok expected_ne_ok
  refine name.bind fun name isNamed => .bind_any fun _ => .bind_any fun parameters => ?_
  -- Whatever the scope around the function was, that of its body matches the body alone.
  have body := (block_wellFormed builds (.functionBody :: places)).inScope
    fun scope (_ : scope.Matches grammar.dialect places) => .inFunction scope
  refine body.bind fun body whole => .bind_any fun span => .pure ⟨.intro trivial ?_, isNamed⟩
  simpa [Node.parts] using whole

/-! ## Sequences -/

theorem memberBlock_wellFormed (declarative : grammar.dialect ≠ .script) :
    YieldsAt grammar.dialect places
      (∀ member ∈ ·, Member.WellFormed grammar.dialect places member) grammar.memberBlock := by
  refine .bind_any fun _ => (builds.members declarative places).bind fun members whole => ?_
  exact .bind_any fun _ => .pure whole

theorem sequenceItem_wellFormed (noIn : Bool) :
    YieldsAt grammar.dialect places (Expr.WellFormed grammar.dialect places)
      (grammar.sequenceItem noIn) := by
  refine .bind_any fun start => (builds.assignment places noIn).bind fun expr whole => ?_
  split
  case h_1 => exact .pure whole
  case h_2 helper component isDeclarative =>
      have declarative : grammar.dialect ≠ .script := by simp [isDeclarative]
      refine .bind_any fun brace => ?_
      split
      case h_1 typeName isName =>
          refine (memberBlock_wellFormed builds declarative).bind fun members inside =>
            .bind_any fun span => .pure (.intro declarative ?_)
          have element : (Node.element ⟨typeName, none, members, span⟩).WellFormed
              grammar.dialect places :=
            .intro (Expr.segments_ne_nil isName) (by simpa using inside)
          simpa using element
      case h_2 => exact .pure whole

omit builds [grammar.deeper.Follows State.SameButKeys] in
theorem joinSequence_wellFormed {first rest : Expr} (whole : first.WellFormed dialect places)
    (more : rest.WellFormed dialect places) :
    (joinSequence first rest).WellFormed dialect places := by
  unfold joinSequence
  split
  case h_1 items isSequence =>
      obtain ⟨kind, span⟩ := rest
      cases isSequence
      have several : 2 ≤ items.length := more.formed
      refine .intro (Nat.le_succ_of_le several) ?_
      have inside : ∀ item ∈ items, item.WellFormed dialect places := by
        simpa using more.part
      simpa using ⟨whole, inside⟩
  case h_2 => exact .intro (Nat.le_refl 2) (by simpa using ⟨whole, more⟩)

omit builds [grammar.deeper.Follows State.SameButKeys] in
theorem sequenceOf_wellFormed {first : Expr} {more : List Expr}
    (whole : first.WellFormed dialect places)
    (later : ∀ expr ∈ more, Expr.WellFormed dialect places expr) :
    (sequenceOf first more).WellFormed dialect places := by
  induction more generalizing first with
  | nil => exact whole
  | cons second more induction =>
      obtain ⟨next, rest⟩ := List.forall_mem_cons.mp later
      exact joinSequence_wellFormed whole (induction next rest)

theorem expression_wellFormed (commas noIn : Bool) :
    YieldsAt grammar.dialect places (Expr.WellFormed grammar.dialect places)
      (grammar.expression commas noIn) := by
  have step : YieldsAt grammar.dialect places
      (∀ expr ∈ ·, Expr.WellFormed grammar.dialect places expr) (grammar.sequenceStep noIn) := by
    refine .bind_any fun _ => .ite (.bind_any fun _ => ?_) .pure_none
    exact (sequenceItem_wellFormed builds noIn).bind fun expr whole => .pure_some whole
  refine (sequenceItem_wellFormed builds noIn).bind fun first whole => .ite ?_ (.pure whole)
  exact step.collect.bind fun more later => .pure (sequenceOf_wellFormed whole later)

theorem parenthesized_wellFormed :
    YieldsAt grammar.dialect places (Expr.WellFormed grammar.dialect places)
      grammar.parenthesized :=
  .bind_any fun _ => (expression_wellFormed builds true false).bind fun _ whole =>
    .bind_any fun _ => .pure whole

/-! ## Lists, arrays and objects -/

theorem expressionList_wellFormed (closing : Char) (trailing holes : Bool) :
    YieldsAt grammar.dialect places
      (∀ item ∈ ·, ∀ expr ∈ item, Expr.WellFormed grammar.dialect places expr)
      (grammar.expressionList closing trailing holes) := by
  apply YieldsAt.listUntil
  refine .bind_any fun _ => .ite .pure_none ?_
  exact (expression_wellFormed builds false false).bind fun expr whole => .pure_some whole

theorem arguments_wellFormed :
    YieldsAt grammar.dialect places
      (∀ expr ∈ ·, Expr.WellFormed grammar.dialect places expr) grammar.arguments := by
  refine (expressionList_wellFormed builds ')' false false).bind fun items whole => .pure ?_
  intro expr member
  obtain ⟨item, among, rfl⟩ := List.mem_filterMap.mp member
  exact whole _ among expr rfl

theorem array_wellFormed (opening : Span) :
    YieldsAt grammar.dialect places (Expr.WellFormed grammar.dialect places)
      (grammar.array opening) := by
  have script : YieldsAt grammar.dialect places
      (fun expr => ∃ elements span, expr = ⟨.array elements none, span⟩ ∧
        ∀ item ∈ elements, ∀ element ∈ item, Expr.WellFormed grammar.dialect places element)
      (grammar.scriptArray opening) :=
    (expressionList_wellFormed builds _ _ _).bind fun elements whole =>
      .bind_any fun span => .pure ⟨elements, span, rfl, whole⟩
  refine script.bind fun expr => ?_
  rintro ⟨elements, span, rfl, whole⟩
  have kept : ∀ source : Option String, source.isSome = decide (grammar.dialect ≠ .script) →
      Expr.WellFormed grammar.dialect places ⟨.array elements source, span⟩ := by
    intro source sourced
    refine .intro sourced ?_
    simpa using fun element among => whole _ among element rfl
  split
  case h_1 isScript => exact .pure (kept none (by simp [isScript]))
  case h_2 helper component isDeclarative =>
      refine .bind_any fun stop => .bind_any fun source => .pure ?_
      exact kept (some _) (by simp [isDeclarative])

theorem objectEntry_wellFormed :
    YieldsAt grammar.dialect places
      (fun entry => entry.value.WellFormed grammar.dialect places ∧
        (entry.kind ≠ .value → ∃ accessor, entry.value.kind = .function accessor))
      grammar.objectEntry := by
  refine .bind_any fun keyToken => .bind_any fun key => .bind_any fun colon => ?_
  split
  case h_1 kind isAccessor =>
      refine .bind_any fun key => (function_wellFormed builds false _).bind fun function whole => ?_
      refine .bind_any fun span => .pure ⟨.intro trivial ?_, fun _ => ⟨function, rfl⟩⟩
      simpa using whole.1
  case h_2 =>
      refine .bind_any fun _ => ?_
      refine (expression_wellFormed builds false false).bind fun value whole => .pure ?_
      exact ⟨whole, fun accessor => absurd rfl accessor⟩

theorem object_wellFormed (opening : Span) :
    YieldsAt grammar.dialect places (Expr.WellFormed grammar.dialect places)
      (grammar.object opening) := by
  refine (objectEntry_wellFormed builds).listUntil.bind fun entries whole =>
    .bind_any fun span => .pure (.intro (fun entry among => (whole entry among).2) ?_)
  simpa using fun entry among => (whole entry among).1

/-! ## Atoms and what follows them -/

theorem construction_wellFormed (start : Span) :
    YieldsAt grammar.dialect places (Expr.WellFormed grammar.dialect places)
      (grammar.construction start) := by
  refine (builds.atom places false).bind fun callee whole => .bind_any fun _ => .ite ?_ ?_
  · refine .bind_any fun _ => (arguments_wellFormed builds).bind fun arguments inside => ?_
    exact .bind_any fun span => .pure (.intro trivial (by simpa using ⟨whole, inside⟩))
  · exact .bind_any fun span => .pure (.intro trivial (by simpa using whole))

theorem functionAtom_wellFormed (start : Span) :
    YieldsAt grammar.dialect places (Expr.WellFormed grammar.dialect places)
      (grammar.functionAtom start) := by
  refine (function_wellFormed builds false start).bind fun function whole => ?_
  exact .bind_any fun span => .pure (.intro trivial (by simpa using whole.1))

theorem bareAtom_wellFormed :
    YieldsAt grammar.dialect places (Expr.WellFormed grammar.dialect places) grammar.bareAtom := by
  refine .bind_any fun current => ?_
  split
  · exact .bind_any fun _ => construction_wellFormed builds _
  · refine .bind_any fun _ => (expression_wellFormed builds true false).bind fun inner whole => ?_
    exact .bind_any fun _ => .bind_any fun span => .pure (whole.withSpan span)
  · exact .bind_any fun _ => array_wellFormed builds _
  · exact .bind_any fun _ => object_wellFormed builds _
  · exact .bind_any fun _ => functionAtom_wellFormed builds _
  · split
    case h_1 atom isAtom =>
        refine .bind_any fun _ => .pure ?_
        unfold simpleAtom? at isAtom
        split at isAtom <;> cases isAtom <;> exact .intro trivial (List.forall_mem_nil _)
    case h_2 => exact .of_ne_ok unexpected_ne_ok

theorem atom_wellFormed (calls : Bool) :
    YieldsAt grammar.dialect places (Expr.WellFormed grammar.dialect places)
      (grammar.atom calls) := by
  refine (bareAtom_wellFormed builds).bind fun expr whole => .iterate whole fun expr whole => ?_
  refine .bind_any fun _ => .ite ?_ (.bind_any fun _ => .ite ?_ (.bind_any fun _ => .ite ?_ ?_))
  · refine .bind_any fun _ => .bind_any fun property => .bind_any fun span => .pure_some ?_
    exact .intro trivial (by simpa using whole)
  · refine .bind_any fun _ => (expression_wellFormed builds true false).bind fun index inside => ?_
    refine .bind_any fun _ => .bind_any fun span => .pure_some ?_
    exact .intro trivial (by simpa using ⟨whole, inside⟩)
  · refine .bind_any fun _ => (arguments_wellFormed builds).bind fun arguments inside => ?_
    refine .bind_any fun span => .pure_some ?_
    exact .intro trivial (by simpa using ⟨whole, inside⟩)
  · exact .pure_none

/-! ## Operators -/

omit builds [grammar.deeper.Follows State.SameButKeys] in
theorem applyUnary_wellFormed (operator : Operator) (fixity : Fixity) {operand : Expr}
    (start : Span) (whole : operand.WellFormed dialect places) :
    YieldsAt dialect places (Expr.WellFormed dialect places)
      (applyUnary operator fixity operand start) := by
  refine .ite_of (fun _ => .of_ne_ok refuseAt_ne_ok) fun allowed => ?_
  refine .bind_any fun span => .pure (.intro ?_ (by simpa using whole))
  intro step
  simpa [step] using allowed

theorem unary_wellFormed (calls : Bool) :
    YieldsAt grammar.dialect places (Expr.WellFormed grammar.dialect places)
      (grammar.unary calls) := by
  have stepped : YieldsAt grammar.dialect places (Expr.WellFormed grammar.dialect places)
      (grammar.stepped calls) := by
    refine (atom_wellFormed builds calls).bind fun expr whole => .iterate whole fun expr whole => ?_
    refine .bind_any fun current => ?_
    split
    case h_1 operator kind =>
        refine .ite (.bind_any fun _ => .bind_any fun span => ?_) .pure_none
        exact (applyUnary_wellFormed operator .after span whole).bind fun result whole =>
          .pure_some whole
    case h_2 => exact .pure_none
  refine .bind_any fun current => ?_
  split
  · refine .ite (.bind_any fun _ => ?_) stepped
    exact (builds.unary places calls).bind fun operand whole => applyUnary_wellFormed _ _ _ whole
  · exact stepped

/-- Operators are read in rounds, each of which extends what is well formed already;
precedence grows with each level below, so the induction is on the room left for it. -/
theorem climb_wellFormed (noIn : Bool) (room least : Nat) {left : Expr}
    (whole : left.WellFormed grammar.dialect places) :
    YieldsAt grammar.dialect places (Expr.WellFormed grammar.dialect places)
      (grammar.climb noIn room least left) := by
  induction room generalizing least left with
  | zero => exact .pure whole
  | succ room induction =>
      have tighter : ∀ precedence operand, Follows State.SameButKeys
          (grammar.climb noIn room precedence operand) := grammar.climb_obeys noIn room
      refine .iterate whole fun left whole => .bind_any fun found => ?_
      split
      case h_1 => exact .pure_none
      case h_2 operator precedence isOperator =>
          obtain ⟨-, binds, -⟩ := binaryOperator?_eq_some.mp isOperator
          refine .bind_any fun _ => (unary_wellFormed builds true).bind fun operand inside => ?_
          refine (induction precedence inside).bind fun right inside => ?_
          have applied : YieldsAt grammar.dialect places (Expr.WellFormed grammar.dialect places)
              (grammar.applyBinary operator left right) := by
            constructor
            intro state expr after fits ok
            rw [run_applyBinary] at ok
            cases ok
            exact .intro (Option.isSome_of_mem binds) (by simpa using ⟨whole, inside⟩)
          exact applied.bind fun expr whole => .pure_some whole

theorem assignment_wellFormed (noIn : Bool) :
    YieldsAt grammar.dialect places (Expr.WellFormed grammar.dialect places)
      (grammar.assignment noIn) := by
  have operation : YieldsAt grammar.dialect places (Expr.WellFormed grammar.dialect places)
      (grammar.operation noIn) :=
    (unary_wellFormed builds true).bind fun left whole =>
      climb_wellFormed builds noIn Operator.greatestPrecedence 0 whole
  have conditional : YieldsAt grammar.dialect places (Expr.WellFormed grammar.dialect places)
      (grammar.conditional noIn) := by
    refine operation.bind fun test whole => .bind_any fun _ => .ite ?_ (.pure whole)
    refine .bind_any fun _ => ?_
    refine (expression_wellFormed builds false false).bind fun consequent one => ?_
    refine .bind_any fun _ => ?_
    refine (expression_wellFormed builds false noIn).bind fun alternate two => .pure ?_
    exact .intro trivial (by simpa using ⟨whole, one, two⟩)
  refine .bind_any fun start => conditional.bind fun left whole => .bind_any fun found => ?_
  split
  case h_1 => exact .pure whole
  case h_2 operator isOperator =>
      refine .ite_of (fun assignable => ?_) fun _ => .of_ne_ok refuseAt_ne_ok
      refine .bind_any fun _ => (builds.assignment places noIn).bind fun value inside => ?_
      exact .pure (.intro assignable (by simpa using ⟨whole, inside⟩))

end Grammar

end Qml
