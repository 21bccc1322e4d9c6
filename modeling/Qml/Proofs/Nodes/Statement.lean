import Qml.Proofs.Nodes.Expression

/-! # Well formed statements

A jump is allowed only if the scope has a loop or the label it names, and
`return` only if the scope has a function. Loops, cases, labels and functions
parse what is in them in a scope that has them. -/

namespace Qml.Grammar

open Qml.Parser

variable {dialect : Dialect} {places : List Place}

/-! ## Jumps -/

theorem checkJump_wellFormed (keyword : Keyword) (label : Option String) :
    YieldsAt dialect places
      (fun _ => ∃ place ∈ Place.inFunction places, place.isTarget label = true)
      (checkJump keyword label) := by
  refine .bind_scope fun scope fits => ?_
  cases label with
  | some name =>
      refine .ite_of (fun known => .pure ?_) fun _ => .of_ne_ok refuse_ne_ok
      exact fits.labels name (List.contains_iff_mem.mp known)
  | none =>
      refine .ite_of (fun _ => .of_ne_ok refuse_ne_ok) fun inside => .pure ?_
      exact fits.loops inside

variable {grammar : Grammar} [grammar.deeper.Follows State.SameButKeys]

omit [grammar.deeper.Follows State.SameButKeys] in
theorem jump_wellFormed (keyword : Keyword) :
    YieldsAt grammar.dialect places
      (fun label => ∃ place ∈ Place.inFunction places, place.isTarget label = true)
      (grammar.jump keyword) :=
  .bind_any fun label => .bind_any fun _ =>
    (checkJump_wellFormed keyword label).bind fun _ target => .pure target

variable (builds : grammar.deeper.Builds grammar.dialect)

include builds

theorem returnTail_wellFormed (start : Span) :
    YieldsAt grammar.dialect places (StatementKind.Built grammar.dialect places)
      (grammar.returnTail start) := by
  refine .bind_scope fun scope fits => .ite_of (fun _ => .of_ne_ok refuseAt_ne_ok) fun inside => ?_
  have returns := fits.returns inside
  refine .bind_any fun _ => .ite (.bind_any fun _ => .pure ?_)
    (.bind_any fun _ => .ite (.pure ?_) ?_)
  · exact StatementKind.built rfl returns (List.forall_mem_nil _)
  · exact StatementKind.built rfl returns (List.forall_mem_nil _)
  · refine (expression_wellFormed builds true false).bind fun value whole => ?_
    exact .bind_any fun _ => .pure (StatementKind.built rfl returns (by simpa using whole))

theorem throwTail_wellFormed :
    YieldsAt grammar.dialect places (StatementKind.Built grammar.dialect places)
      grammar.throwTail := by
  refine .bind_any fun found => .ite (.of_ne_ok refuse_ne_ok) ?_
  refine (expression_wellFormed builds true false).bind fun value whole => .bind_any fun _ => ?_
  exact .pure (StatementKind.built rfl trivial (by simpa using whole))

/-! ## Variables -/

theorem declarators_wellFormed (noIn : Bool) :
    YieldsAt grammar.dialect places
      (fun declarators => declarators ≠ [] ∧
        ∀ declarator ∈ declarators, ∀ init ∈ declarator.init,
          Expr.WellFormed grammar.dialect places init)
      (grammar.declarators noIn) := by
  have one : YieldsAt grammar.dialect places
      (fun declarator : Declarator =>
        ∀ init ∈ declarator.init, Expr.WellFormed grammar.dialect places init)
      (grammar.declarator noIn) := by
    refine .bind_any fun name => .bind_any fun _ => .ite (.bind_any fun _ => ?_) (.pure (by simp))
    exact (expression_wellFormed builds false noIn).bind fun init whole =>
      .pure (by simpa using whole)
  have step : YieldsAt grammar.dialect places
      (∀ declarator ∈ ·, ∀ init ∈ Declarator.init declarator,
        Expr.WellFormed grammar.dialect places init)
      (grammar.declaratorStep noIn) := by
    refine .bind_any fun _ => .ite (.bind_any fun _ => ?_) .pure_none
    exact one.bind fun declarator whole => .pure_some whole
  refine one.bind fun first whole => step.collect.bind fun more later => .pure ⟨nofun, ?_⟩
  exact List.forall_mem_cons.mpr ⟨whole, later⟩

omit [grammar.deeper.Follows State.SameButKeys] builds in
theorem declare_built (kind : VariableKind) {declarators : List Declarator}
    (whole : declarators ≠ [] ∧ ∀ declarator ∈ declarators, ∀ init ∈ declarator.init,
      Expr.WellFormed dialect places init) :
    (StatementKind.declare kind declarators).Built dialect places := by
  refine StatementKind.built rfl whole.1 fun part among => ?_
  obtain ⟨init, member, rfl⟩ := List.mem_map.mp among
  obtain ⟨declarator, among, isInit⟩ := List.mem_filterMap.mp member
  exact whole.2 declarator among init isInit

/-! ## Loops -/

omit [grammar.deeper.Follows State.SameButKeys] in
theorem loopBody_wellFormed (places : List Place) :
    YieldsAt grammar.dialect places
      (Statement.WellFormed grammar.dialect (.loopBody :: places)) grammar.loopBody :=
  (statement_wellFormed builds _).inScope fun _ fits => fits.inLoop rfl

theorem doTail_wellFormed :
    YieldsAt grammar.dialect places (StatementKind.Built grammar.dialect places)
      grammar.doTail := by
  refine (loopBody_wellFormed builds places).bind fun body inside => .bind_any fun _ => ?_
  refine (parenthesized_wellFormed builds).bind fun test whole => .bind_any fun _ => ?_
  exact .pure (StatementKind.built rfl trivial (by simpa using ⟨inside, whole⟩))

theorem whileTail_wellFormed :
    YieldsAt grammar.dialect places (StatementKind.Built grammar.dialect places)
      grammar.whileTail := by
  refine (parenthesized_wellFormed builds).bind fun test whole => ?_
  refine (loopBody_wellFormed builds places).bind fun body inside => ?_
  exact .pure (StatementKind.built rfl trivial (by simpa using ⟨whole, inside⟩))

theorem forInit_wellFormed :
    YieldsAt grammar.dialect places (Statement.WellFormed grammar.dialect places)
      grammar.forInit := by
  refine .bind_any fun start => .ite (.bind_any fun _ => ?_) ?_
  · refine (declarators_wellFormed builds true).bind fun declarators whole => ?_
    exact .bind_any fun span => .pure ((declare_built .var whole).2 span)
  · refine (expression_wellFormed builds true true).bind fun value whole => ?_
    exact .bind_any fun span => .pure (.intro trivial (by simpa using whole))

theorem forInTail_wellFormed (start : Span) {left : Statement}
    (first : left.WellFormed grammar.dialect places) :
    YieldsAt grammar.dialect places (StatementKind.Built grammar.dialect places)
      (grammar.forInTail start left) := by
  refine .ite_of (fun _ => .of_ne_ok refuseAt_ne_ok) fun single => .bind_any fun _ => ?_
  refine (expression_wellFormed builds true false).bind fun right whole => .bind_any fun _ => ?_
  refine (loopBody_wellFormed builds places).bind fun body inside => .pure ?_
  exact StatementKind.built rfl (Bool.eq_false_iff.mpr single)
    (by simpa using ⟨first, whole, inside⟩)

theorem forClauses_wellFormed {init : Option Statement}
    (first : ∀ statement ∈ init, Statement.WellFormed grammar.dialect places statement) :
    YieldsAt grammar.dialect places (StatementKind.Built grammar.dialect places)
      (grammar.forClauses init) := by
  have optional : ∀ mark, YieldsAt grammar.dialect places
      (∀ expr ∈ ·, Expr.WellFormed grammar.dialect places expr)
      (grammar.optionalExpression mark) := by
    intro mark
    refine .bind_any fun _ => .ite .pure_none ?_
    exact (expression_wellFormed builds true false).bind fun value whole => .pure_some whole
  refine .bind_any fun _ => (optional ';').bind fun test one => .bind_any fun _ => ?_
  refine (optional ')').bind fun update two => .bind_any fun _ => ?_
  refine (loopBody_wellFormed builds places).bind fun body inside => .pure ?_
  refine StatementKind.built rfl trivial fun part => ?_
  simp only [StatementKind.parts, List.mem_append, List.mem_map, Option.mem_toList,
    List.mem_singleton]
  rintro (((⟨statement, isInit, rfl⟩ | ⟨expr, isTest, rfl⟩) | ⟨expr, isUpdate, rfl⟩) | rfl)
  · exact first statement isInit
  · exact one expr isTest
  · exact two expr isUpdate
  · exact inside

theorem forTail_wellFormed :
    YieldsAt grammar.dialect places (StatementKind.Built grammar.dialect places)
      grammar.forTail := by
  refine .bind_any fun _ => .bind_any fun start => .ite (forClauses_wellFormed builds (by simp)) ?_
  refine (forInit_wellFormed builds).bind fun init whole => .bind_any fun _ => .ite ?_ ?_
  · exact forInTail_wellFormed builds _ whole
  · exact forClauses_wellFormed builds (by simpa using whole)

/-! ## Branches -/

theorem ifTail_wellFormed :
    YieldsAt grammar.dialect places (StatementKind.Built grammar.dialect places)
      grammar.ifTail := by
  refine (parenthesized_wellFormed builds).bind fun test whole => ?_
  refine (statement_wellFormed builds places).bind fun consequent one => ?_
  refine .bind_any fun _ => .ite (.bind_any fun _ => ?_) (.pure ?_)
  · refine (statement_wellFormed builds places).bind fun alternate two => .pure ?_
    exact StatementKind.built rfl trivial (by simpa using ⟨whole, one, two⟩)
  · exact StatementKind.built rfl trivial (by simpa using ⟨whole, one⟩)

/-- A case lies in a scope with a loop, its test included. -/
theorem switchCase_wellFormed (places : List Place) :
    YieldsAt grammar.dialect (.switchCase :: places)
      (∀ case ∈ ·, ∀ part ∈ SwitchCase.parts case,
        part.node.WellFormed grammar.dialect (part.place.toList ++ places))
      grammar.switchCase := by
  have label : YieldsAt grammar.dialect (.switchCase :: places)
      (∀ label ∈ ·, ∀ test ∈ label, Expr.WellFormed grammar.dialect (.switchCase :: places) test)
      grammar.caseLabel := by
    refine .bind_any fun current => .ite .pure_none (.ite (.bind_any fun _ => ?_) (.ite ?_ ?_))
    · refine (expression_wellFormed builds true false).bind fun test whole => .bind_any fun _ => ?_
      exact .pure (by simpa using whole)
    · exact .bind_any fun _ => .bind_any fun _ => .pure (by simp)
    · exact .of_ne_ok unexpected_ne_ok
  have item : YieldsAt grammar.dialect (.switchCase :: places)
      (∀ statement ∈ ·, Statement.WellFormed grammar.dialect (.switchCase :: places) statement)
      grammar.caseItem := by
    refine .bind_any fun found => .ite .pure_none ?_
    exact (statement_wellFormed builds _).bind fun statement whole => .pure_some whole
  refine label.bind fun found tested => ?_
  cases found with
  | none => exact .pure_none
  | some test =>
      refine item.collect.bind fun body inside => .pure ?_
      rintro _ ⟨⟩ part among
      rcases List.mem_append.mp among with isTest | isBody
      · obtain ⟨expr, member, rfl⟩ := List.mem_map.mp isTest
        exact tested test rfl expr (Option.mem_toList.mp member)
      · obtain ⟨statement, member, rfl⟩ := List.mem_map.mp isBody
        exact inside statement member

theorem switchTail_wellFormed :
    YieldsAt grammar.dialect places (StatementKind.Built grammar.dialect places)
      grammar.switchTail := by
  have block : YieldsAt grammar.dialect places
      (∀ case ∈ ·, ∀ part ∈ SwitchCase.parts case,
        part.node.WellFormed grammar.dialect (part.place.toList ++ places))
      grammar.switchBlock := by
    have cases := (switchCase_wellFormed builds places).collect.inScope
      fun _ fits => fits.inLoop rfl
    exact .bind_any fun _ => cases.bind fun cases inside => .bind_any fun _ => .pure inside
  refine (parenthesized_wellFormed builds).bind fun discriminant whole => ?_
  refine block.bind fun cases inside => .pure (StatementKind.built rfl trivial ?_)
  refine List.forall_mem_cons.mpr ⟨whole, fun part among => ?_⟩
  obtain ⟨case, member, isPart⟩ := List.mem_flatMap.mp among
  exact inside case member part isPart

theorem tryTail_wellFormed :
    YieldsAt grammar.dialect places (StatementKind.Built grammar.dialect places)
      grammar.tryTail := by
  have catches : YieldsAt grammar.dialect places
      (fun handler => ∀ statement ∈ (handler.map CatchClause.body).getD [],
        Statement.WellFormed grammar.dialect places statement)
      grammar.catchClause := by
    refine .bind_any fun _ => .ite (.bind_any fun _ => .bind_any fun _ => ?_)
      (.pure (List.forall_mem_nil _))
    refine .bind_any fun parameter => .bind_any fun _ => ?_
    exact (block_wellFormed builds places).bind fun body whole => .pure whole
  have finally_ : YieldsAt grammar.dialect places
      (fun finalizer => ∀ statement ∈ finalizer.getD [],
        Statement.WellFormed grammar.dialect places statement)
      grammar.finallyClause := by
    refine .bind_any fun _ => .ite (.bind_any fun _ => ?_) (.pure (List.forall_mem_nil _))
    exact (block_wellFormed builds places).bind fun body whole => .pure whole
  refine (block_wellFormed builds places).bind fun body whole => catches.bind fun handler one => ?_
  refine finally_.bind fun finalizer two => .ite_of (fun _ => .of_ne_ok refuse_ne_ok) fun some => ?_
  refine .pure (StatementKind.built rfl ?_ fun part among => ?_)
  · cases handler <;> cases finalizer <;> simp_all [StatementKind.Formed]
  · obtain ⟨block, isBlock, inBlock⟩ := List.mem_flatMap.mp among
    obtain ⟨statement, member, rfl⟩ := List.mem_map.mp inBlock
    simp only [List.mem_cons, List.not_mem_nil, or_false] at isBlock
    rcases isBlock with rfl | rfl | rfl
    · exact whole statement member
    · exact one statement member
    · exact two statement member

theorem withTail_wellFormed :
    YieldsAt grammar.dialect places (StatementKind.Built grammar.dialect places)
      grammar.withTail := by
  refine (parenthesized_wellFormed builds).bind fun object whole => ?_
  refine (statement_wellFormed builds places).bind fun body inside => .pure ?_
  exact StatementKind.built rfl trivial (by simpa using ⟨whole, inside⟩)

/-! ## All statements -/

theorem keywordStatement_wellFormed (keyword : Keyword) (start : Span) :
    YieldsAt grammar.dialect places (StatementKind.Built grammar.dialect places)
      (grammar.keywordStatement keyword start) := by
  have declare : ∀ kind, YieldsAt grammar.dialect places
      (StatementKind.Built grammar.dialect places) (grammar.declareTail kind) := fun kind =>
    (declarators_wellFormed builds false).bind fun declarators whole =>
      .bind_any fun _ => .pure (declare_built kind whole)
  cases keyword with
  | break_ =>
      refine (jump_wellFormed .break_).bind fun label target => .pure ?_
      exact StatementKind.built rfl target (List.forall_mem_nil _)
  | continue_ =>
      refine (jump_wellFormed .continue_).bind fun label target => .pure ?_
      exact StatementKind.built rfl target (List.forall_mem_nil _)
  | debugger =>
      exact .bind_any fun _ => .pure (StatementKind.built rfl trivial (List.forall_mem_nil _))
  | do_ => exact doTail_wellFormed builds
  | for_ => exact forTail_wellFormed builds
  | function =>
      refine (function_wellFormed builds true start).bind fun function whole => .pure ?_
      exact StatementKind.built rfl (whole.2 rfl) (by simpa using whole.1)
  | if_ => exact ifTail_wellFormed builds
  | return_ => exact returnTail_wellFormed builds start
  | switch => exact switchTail_wellFormed builds
  | throw => exact throwTail_wellFormed builds
  | try_ => exact tryTail_wellFormed builds
  | var => exact declare .var
  | const => exact declare .const
  | while_ => exact whileTail_wellFormed builds
  | with_ => exact withTail_wellFormed builds
  | case_ | catch_ | default | else_ | finally_ => exact .of_ne_ok refuseAt_ne_ok

theorem anyStatement_built (places : List Place) :
    YieldsAt grammar.dialect places (Statement.Built grammar.dialect places)
      grammar.anyStatement := by
  have simple : YieldsAt grammar.dialect places (Statement.Built grammar.dialect places)
      grammar.simpleStatement := by
    refine .bind_any fun start => ?_
    refine (expression_wellFormed builds true false).bind fun value whole => ?_
    refine .bind_any fun _ => .bind_any fun span => .pure ?_
    exact ⟨rfl, .intro trivial (by simpa using whole)⟩
  refine .bind_any fun start => ?_
  split
  case h_1 label kind =>
      refine .bind_any fun next => .ite (.bind_any fun _ => .bind_any fun _ => ?_) simple
      have body := (statement_wellFormed builds (.labeled label :: places)).inScope
        fun _ fits => fits.inLabel label
      refine body.bind fun body inside => .bind_any fun span => .pure ?_
      exact ⟨rfl, .intro trivial (by simpa using inside)⟩
  case h_2 keyword kind =>
      refine .bind_any fun _ => ?_
      refine (keywordStatement_wellFormed builds keyword _).bind fun kind built => ?_
      exact .bind_any fun span => .pure ⟨built.1, built.2 span⟩
  case h_3 =>
      refine (block_wellFormed builds places).bind fun body whole => .bind_any fun span => .pure ?_
      exact ⟨rfl, .intro trivial (by simpa using whole)⟩
  case h_4 =>
      exact .bind_any fun _ => .pure ⟨rfl, .intro trivial (List.forall_mem_nil _)⟩
  all_goals first | exact simple | exact .of_ne_ok unexpected_ne_ok

theorem script_wellFormed :
    YieldsAt grammar.dialect places
      (∀ statement ∈ ·, Statement.WellFormed grammar.dialect places statement) grammar.script := by
  refine .collect (.bind_any fun _ => .ite .pure_none ?_)
  exact (statement_wellFormed builds places).bind fun statement whole => .pure_some whole

end Qml.Grammar
