import Qml.Proofs.Beginnings.Expression

/-! # Members in statements

If the members that the nesting productions yield begin as they may, so do those in all
statements. The loops, cases, labels and functions that a statement opens leave string
keys as they are. -/

namespace Qml.Grammar

open Qml.Parser

variable {text : List Char} {keyed : Bool} {grammar : Grammar}
  [grammar.deeper.KeepsScope] [grammar.deeper.Follows State.Walks]
  (begins : grammar.deeper.Begins text)

include begins

/-! ## Jumps -/

theorem returnTail_begun (start : Span) :
    YieldsOn text keyed (StatementKind.Begun text keyed) (grammar.returnTail start) := by
  refine .bind_any fun scope => .ite (.of_ne_ok refuseAt_ne_ok) ?_
  refine .bind_any fun _ => .ite (.bind_any fun _ => .pure fun span => ?_)
    (.bind_any fun _ => .ite (.pure fun span => ?_) ?_)
  · exact .of_parts (List.forall_mem_nil _) rfl
  · exact .of_parts (List.forall_mem_nil _) rfl
  · refine (expression_begun begins true false).bind fun value begun => ?_
    exact .bind_any fun _ => .pure fun span => .of_parts (by simpa using begun) rfl

theorem throwTail_begun :
    YieldsOn text keyed (StatementKind.Begun text keyed) grammar.throwTail := by
  refine .bind_any fun found => .ite (.of_ne_ok refuse_ne_ok) ?_
  refine (expression_begun begins true false).bind fun value begun => .bind_any fun _ => ?_
  exact .pure fun span => .of_parts (by simpa using begun) rfl

/-! ## Variables -/

theorem declarators_begun (kind : VariableKind) (noIn : Bool) :
    YieldsOn text keyed
      (fun declarators => (StatementKind.declare kind declarators).Begun text keyed)
      (grammar.declarators noIn) := by
  have one : YieldsOn text keyed
      (fun declarator : Declarator => ∀ init ∈ declarator.init, Expr.Begun text keyed init)
      (grammar.declarator noIn) := by
    refine .bind_any fun name => .bind_any fun _ => .ite (.bind_any fun _ => ?_) (.pure (by simp))
    exact (expression_begun begins false noIn).bind fun init begun =>
      .pure (by simpa using begun)
  have step : YieldsOn text keyed
      (∀ declarator ∈ ·, ∀ init ∈ Declarator.init declarator, Expr.Begun text keyed init)
      (grammar.declaratorStep noIn) := by
    refine .bind_any fun _ => .ite (.bind_any fun _ => ?_) .pure_none
    exact one.bind fun declarator begun => .pure_some begun
  refine one.bind fun first begun => step.collect.bind fun more later => .pure fun span => ?_
  refine .of_parts (fun part isPart => ?_) rfl
  obtain ⟨init, member, rfl⟩ := List.mem_map.mp isPart
  obtain ⟨declarator, among, isInit⟩ := List.mem_filterMap.mp member
  exact List.forall_mem_cons.mpr ⟨begun, later⟩ declarator among init isInit

/-! ## Loops -/

omit [grammar.deeper.KeepsScope] [grammar.deeper.Follows State.Walks] in
theorem loopBody_begun : YieldsOn text keyed (Statement.Begun text keyed) grammar.loopBody :=
  (statement_begun begins).inScope fun _ => rfl

theorem doTail_begun :
    YieldsOn text keyed (StatementKind.Begun text keyed) grammar.doTail := by
  refine (loopBody_begun begins).bind fun body inside => .bind_any fun _ => ?_
  refine (parenthesized_begun begins).bind fun test begun => .bind_any fun _ => ?_
  exact .pure fun span => .of_parts (by simpa using ⟨inside, begun⟩) rfl

theorem whileTail_begun :
    YieldsOn text keyed (StatementKind.Begun text keyed) grammar.whileTail := by
  refine (parenthesized_begun begins).bind fun test begun => ?_
  refine (loopBody_begun begins).bind fun body inside => .pure fun span => ?_
  exact .of_parts (by simpa using ⟨begun, inside⟩) rfl

theorem forInit_begun :
    YieldsOn text keyed (Statement.Begun text keyed) grammar.forInit := by
  refine .bind_any fun start => .ite (.bind_any fun _ => ?_) ?_
  · refine (declarators_begun begins .var true).bind fun declarators begun => ?_
    exact .bind_any fun span => .pure (begun span)
  · refine (expression_begun begins true true).bind fun value begun => ?_
    exact .bind_any fun span => .pure (.of_parts (by simpa using begun) rfl)

theorem forInTail_begun (start : Span) {left : Statement} (first : left.Begun text keyed) :
    YieldsOn text keyed (StatementKind.Begun text keyed) (grammar.forInTail start left) := by
  refine .ite (.of_ne_ok refuseAt_ne_ok) (.bind_any fun _ => ?_)
  refine (expression_begun begins true false).bind fun right begun => .bind_any fun _ => ?_
  refine (loopBody_begun begins).bind fun body inside => .pure fun span => ?_
  exact .of_parts (by simpa using ⟨first, begun, inside⟩) rfl

theorem forClauses_begun {init : Option Statement}
    (first : ∀ statement ∈ init, Statement.Begun text keyed statement) :
    YieldsOn text keyed (StatementKind.Begun text keyed) (grammar.forClauses init) := by
  have optional : ∀ mark, YieldsOn text keyed (∀ expr ∈ ·, Expr.Begun text keyed expr)
      (grammar.optionalExpression mark) := by
    intro mark
    refine .bind_any fun _ => .ite .pure_none ?_
    exact (expression_begun begins true false).bind fun value begun => .pure_some begun
  refine .bind_any fun _ => (optional ';').bind fun test one => .bind_any fun _ => ?_
  refine (optional ')').bind fun update two => .bind_any fun _ => ?_
  refine (loopBody_begun begins).bind fun body inside => .pure fun span => ?_
  refine .of_parts (fun part => ?_) rfl
  simp only [Node.parts, StatementKind.parts, List.mem_append, List.mem_map, Option.mem_toList,
    List.mem_singleton]
  rintro (((⟨statement, isInit, rfl⟩ | ⟨expr, isTest, rfl⟩) | ⟨expr, isUpdate, rfl⟩) | rfl)
  · exact first statement isInit
  · exact one expr isTest
  · exact two expr isUpdate
  · exact inside

theorem forTail_begun :
    YieldsOn text keyed (StatementKind.Begun text keyed) grammar.forTail := by
  refine .bind_any fun _ => .bind_any fun start => .ite (forClauses_begun begins (by simp)) ?_
  refine (forInit_begun begins).bind fun init begun => .bind_any fun _ => .ite ?_ ?_
  · exact forInTail_begun begins _ begun
  · exact forClauses_begun begins (by simpa using begun)

/-! ## Branches -/

theorem ifTail_begun :
    YieldsOn text keyed (StatementKind.Begun text keyed) grammar.ifTail := by
  refine (parenthesized_begun begins).bind fun test begun => ?_
  refine (statement_begun begins).bind fun consequent one => ?_
  refine .bind_any fun _ => .ite (.bind_any fun _ => ?_) (.pure fun span => ?_)
  · refine (statement_begun begins).bind fun alternate two => .pure fun span => ?_
    exact .of_parts (by simpa using ⟨begun, one, two⟩) rfl
  · exact .of_parts (by simpa using ⟨begun, one⟩) rfl

theorem switchCase_begun :
    YieldsOn text keyed
      (∀ case ∈ ·, ∀ part ∈ SwitchCase.parts case, part.node.Begun text keyed)
      grammar.switchCase := by
  have label : YieldsOn text keyed (∀ label ∈ ·, ∀ test ∈ label, Expr.Begun text keyed test)
      grammar.caseLabel := by
    refine .bind_any fun current => .ite .pure_none (.ite (.bind_any fun _ => ?_) (.ite ?_ ?_))
    · refine (expression_begun begins true false).bind fun test begun => .bind_any fun _ => ?_
      exact .pure (by simpa using begun)
    · exact .bind_any fun _ => .bind_any fun _ => .pure (by simp)
    · exact .of_ne_ok unexpected_ne_ok
  have item : YieldsOn text keyed (∀ statement ∈ ·, Statement.Begun text keyed statement)
      grammar.caseItem := by
    refine .bind_any fun found => .ite .pure_none ?_
    exact (statement_begun begins).bind fun statement begun => .pure_some begun
  refine label.bind fun found tested => ?_
  cases found with
  | none => exact .pure_none
  | some test =>
      refine item.collect.bind fun body inside => .pure ?_
      rintro _ ⟨⟩ part among
      rcases List.mem_append.mp among with isTest | isBody
      · obtain ⟨expr, member, rfl⟩ := List.mem_map.mp isTest
        exact tested test rfl expr (Option.mem_toList.mp member)
      · obtain ⟨statement, member, rfl⟩ := List.mem_map.mp isBody
        exact inside statement member

theorem switchTail_begun :
    YieldsOn text keyed (StatementKind.Begun text keyed) grammar.switchTail := by
  have block : YieldsOn text keyed
      (∀ case ∈ ·, ∀ part ∈ SwitchCase.parts case, part.node.Begun text keyed)
      grammar.switchBlock := by
    have cases : YieldsOn text keyed
        (∀ case ∈ ·, ∀ part ∈ SwitchCase.parts case, part.node.Begun text keyed)
        (inScope Scope.inLoop (collect grammar.switchCase)) :=
      (switchCase_begun begins).collect.inScope fun _ => rfl
    exact .bind_any fun _ => cases.bind fun cases inside => .bind_any fun _ => .pure inside
  refine (parenthesized_begun begins).bind fun discriminant begun => ?_
  refine block.bind fun cases inside => .pure fun span => .of_parts ?_ rfl
  refine List.forall_mem_cons.mpr ⟨begun, fun part among => ?_⟩
  obtain ⟨case, member, isPart⟩ := List.mem_flatMap.mp among
  exact inside case member part isPart

theorem tryTail_begun :
    YieldsOn text keyed (StatementKind.Begun text keyed) grammar.tryTail := by
  have catches : YieldsOn text keyed
      (fun handler => ∀ statement ∈ (handler.map CatchClause.body).getD [],
        Statement.Begun text keyed statement)
      grammar.catchClause := by
    refine .bind_any fun _ => .ite (.bind_any fun _ => .bind_any fun _ => ?_)
      (.pure (List.forall_mem_nil _))
    refine .bind_any fun parameter => .bind_any fun _ => ?_
    exact (block_begun begins).bind fun body begun => .pure begun
  have finally_ : YieldsOn text keyed
      (fun finalizer => ∀ statement ∈ finalizer.getD [], Statement.Begun text keyed statement)
      grammar.finallyClause := by
    refine .bind_any fun _ => .ite (.bind_any fun _ => ?_) (.pure (List.forall_mem_nil _))
    exact (block_begun begins).bind fun body begun => .pure begun
  refine (block_begun begins).bind fun body begun => catches.bind fun handler one => ?_
  refine finally_.bind fun finalizer two => .ite (.of_ne_ok refuse_ne_ok) (.pure fun span => ?_)
  refine .of_parts (fun part isPart => ?_) rfl
  obtain ⟨block, isBlock, inBlock⟩ := List.mem_flatMap.mp isPart
  obtain ⟨statement, member, rfl⟩ := List.mem_map.mp inBlock
  simp only [List.mem_cons, List.not_mem_nil, or_false] at isBlock
  rcases isBlock with rfl | rfl | rfl
  · exact begun statement member
  · exact one statement member
  · exact two statement member

theorem withTail_begun :
    YieldsOn text keyed (StatementKind.Begun text keyed) grammar.withTail := by
  refine (parenthesized_begun begins).bind fun object begun => ?_
  refine (statement_begun begins).bind fun body inside => .pure fun span => ?_
  exact .of_parts (by simpa using ⟨begun, inside⟩) rfl

/-! ## All statements -/

theorem keywordStatement_begun (keyword : Keyword) (start : Span) :
    YieldsOn text keyed (StatementKind.Begun text keyed)
      (grammar.keywordStatement keyword start) := by
  have declare : ∀ kind, YieldsOn text keyed (StatementKind.Begun text keyed)
      (grammar.declareTail kind) := fun kind =>
    (declarators_begun begins kind false).bind fun declarators begun =>
      .bind_any fun _ => .pure begun
  cases keyword with
  | break_ | continue_ =>
      exact .bind_any fun label => .pure fun span => .of_parts (List.forall_mem_nil _) rfl
  | debugger =>
      exact .bind_any fun _ => .pure fun span => .of_parts (List.forall_mem_nil _) rfl
  | do_ => exact doTail_begun begins
  | for_ => exact forTail_begun begins
  | function =>
      refine (function_begun begins true start).bind fun function begun => .pure fun span => ?_
      exact .of_parts (by simpa using begun) rfl
  | if_ => exact ifTail_begun begins
  | return_ => exact returnTail_begun begins start
  | switch => exact switchTail_begun begins
  | throw => exact throwTail_begun begins
  | try_ => exact tryTail_begun begins
  | var => exact declare .var
  | const => exact declare .const
  | while_ => exact whileTail_begun begins
  | with_ => exact withTail_begun begins
  | case_ | catch_ | default | else_ | finally_ => exact .of_ne_ok refuseAt_ne_ok

theorem anyStatement_begun :
    YieldsOn text keyed (Statement.Begun text keyed) grammar.anyStatement := by
  have simple : YieldsOn text keyed (Statement.Begun text keyed) grammar.simpleStatement := by
    refine .bind_any fun start => ?_
    refine (expression_begun begins true false).bind fun value begun => ?_
    refine .bind_any fun _ => .bind_any fun span => .pure ?_
    exact .of_parts (by simpa using begun) rfl
  refine .bind_any fun start => ?_
  split
  case h_1 label kind =>
      refine .bind_any fun next => .ite (.bind_any fun _ => .bind_any fun _ => ?_) simple
      have body : YieldsOn text keyed (Statement.Begun text keyed)
          (inScope (Scope.inLabel label) grammar.statement) :=
        (statement_begun begins).inScope fun _ => rfl
      refine body.bind fun body inside => .bind_any fun span => .pure ?_
      exact .of_parts (by simpa using inside) rfl
  case h_2 keyword kind =>
      refine .bind_any fun _ => ?_
      refine (keywordStatement_begun begins keyword _).bind fun kind begun => ?_
      exact .bind_any fun span => .pure (begun span)
  case h_3 =>
      refine (block_begun begins).bind fun body begun => .bind_any fun span => .pure ?_
      exact .of_parts (by simpa using begun) rfl
  case h_4 => exact .bind_any fun _ => .pure (.of_parts (List.forall_mem_nil _) rfl)
  all_goals first | exact simple | exact .of_ne_ok unexpected_ne_ok

theorem script_begun :
    YieldsOn text keyed (∀ statement ∈ ·, Statement.Begun text keyed statement)
      grammar.script := by
  refine .collect (.bind_any fun _ => .ite .pure_none ?_)
  exact (statement_begun begins).bind fun statement begun => .pure_some begun

end Qml.Grammar
