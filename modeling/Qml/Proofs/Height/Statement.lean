import Qml.Proofs.Height.Expression

/-! # The height of statements

A statement is higher than what it nests by a constant, whatever the statement. -/

namespace Qml.Grammar

open Qml.Parser

variable {grammar : Grammar} {n : Nat} (low : grammar.deeper.Low n)

include low

/-! ## Variables and jumps -/

theorem declarators_low (noIn : Bool) :
    Yields (∀ declarator ∈ ·, Declarator.height Link.ignored declarator ≤ n + 2)
      (grammar.declarators noIn) := by
  have one : Yields (Declarator.height Link.ignored · ≤ n + 2) (grammar.declarator noIn) := by
    refine .bind_any fun name => .bind_any fun _ => .ite (.bind_any fun _ => ?_) (.pure ?_)
    · exact (expression_low low false noIn).bind fun init height => .pure (by simpa using height)
    · simp
  have step : Yields (∀ declarator ∈ ·, Declarator.height Link.ignored declarator ≤ n + 2)
      (grammar.declaratorStep noIn) := by
    refine .bind_any fun _ => .ite (.bind_any fun _ => ?_) .pure_none
    exact one.bind fun declarator height => .pure (by simpa using height)
  refine one.bind fun first height => step.collect.bind fun more heights => .pure ?_
  exact List.forall_mem_cons.mpr ⟨height, heights⟩

theorem declareTail_low (kind : VariableKind) :
    Yields (StatementKind.height Link.ignored · ≤ n + 3) (grammar.declareTail kind) := by
  refine (declarators_low low false).bind fun declarators heights => .bind_any fun _ => .pure ?_
  have inside : Declarator.heightAll Link.ignored declarators ≤ n + 2 :=
    Declarator.heightAll_le.mpr heights
  simp only [StatementKind.height]
  omega

theorem returnTail_low (start : Span) :
    Yields (StatementKind.height Link.ignored · ≤ n + 3) (grammar.returnTail start) := by
  refine .bind_any fun scope => .ite (.of_ne_ok refuseAt_ne_ok) (.bind_any fun _ => .ite ?_ ?_)
  · exact .bind_any fun _ => .pure (by simp)
  · refine .bind_any fun _ => .ite (.pure (by simp)) ?_
    refine (expression_low low true false).bind fun value height => .bind_any fun _ => .pure ?_
    simp only [StatementKind.height, Expr.heightOption]
    omega

theorem throwTail_low :
    Yields (StatementKind.height Link.ignored · ≤ n + 3) grammar.throwTail := by
  refine .bind_any fun found => .ite (.of_ne_ok refuse_ne_ok) ?_
  refine (expression_low low true false).bind fun value height => .bind_any fun _ => .pure ?_
  simp only [StatementKind.height]
  omega

/-! ## Loops -/

theorem doTail_low : Yields (StatementKind.height Link.ignored · ≤ n + 3) grammar.doTail := by
  refine (statement_low low).inScope.bind fun body bodyHeight => .bind_any fun _ => ?_
  refine (parenthesized_low low).bind fun test height => .bind_any fun _ => .pure ?_
  simp only [StatementKind.height]
  omega

theorem whileTail_low :
    Yields (StatementKind.height Link.ignored · ≤ n + 3) grammar.whileTail := by
  refine (parenthesized_low low).bind fun test height => ?_
  refine (statement_low low).inScope.bind fun body bodyHeight => .pure ?_
  simp only [StatementKind.height]
  omega

theorem forInit_low : Yields (Statement.height Link.ignored · ≤ n + 3) grammar.forInit := by
  refine .bind_any fun start => .ite (.bind_any fun _ => ?_) ?_
  · refine (declarators_low low true).bind fun declarators heights => .bind_any fun span => .pure ?_
    have inside : Declarator.heightAll Link.ignored declarators ≤ n + 2 :=
      Declarator.heightAll_le.mpr heights
    simp only [Statement.height, StatementKind.height]
    omega
  · refine (expression_low low true true).bind fun value height => .bind_any fun span => .pure ?_
    simp only [Statement.height, StatementKind.height]
    omega

theorem optionalExpression_low (mark : Char) :
    Yields (Expr.heightOption Link.ignored · ≤ n + 2) (grammar.optionalExpression mark) := by
  refine .bind_any fun _ => .ite (.pure (Nat.zero_le _)) ?_
  exact (expression_low low true false).bind fun value height => .pure height

theorem forClauses_low {init : Option Statement}
    (height : Statement.heightOption Link.ignored init ≤ n + 3) :
    Yields (StatementKind.height Link.ignored · ≤ n + 3) (grammar.forClauses init) := by
  refine .bind_any fun _ => (optionalExpression_low low ';').bind fun test testHeight => ?_
  refine .bind_any fun _ => (optionalExpression_low low ')').bind fun update updateHeight => ?_
  refine .bind_any fun _ => (statement_low low).inScope.bind fun body bodyHeight => .pure ?_
  simp only [StatementKind.height]
  omega

theorem forTail_low : Yields (StatementKind.height Link.ignored · ≤ n + 3) grammar.forTail := by
  refine .bind_any fun _ => .bind_any fun start => .ite ?_ ?_
  · exact forClauses_low low (Nat.zero_le _)
  · refine (forInit_low low).bind fun init height => .bind_any fun _ => .ite ?_ ?_
    · refine .ite (.of_ne_ok refuseAt_ne_ok) (.bind_any fun _ => ?_)
      refine (expression_low low true false).bind fun right rightHeight => .bind_any fun _ => ?_
      refine (statement_low low).inScope.bind fun body bodyHeight => .pure ?_
      simp only [StatementKind.height]
      omega
    · exact forClauses_low low height

/-! ## Branches -/

theorem ifTail_low : Yields (StatementKind.height Link.ignored · ≤ n + 3) grammar.ifTail := by
  refine (parenthesized_low low).bind fun test height => ?_
  refine (statement_low low).bind fun consequent consequentHeight => ?_
  refine .bind_any fun _ => .ite (.bind_any fun _ => ?_) (.pure ?_)
  · refine (statement_low low).bind fun alternate alternateHeight => .pure ?_
    simp only [StatementKind.height, Statement.heightOption]
    omega
  · simp only [StatementKind.height, Statement.heightOption]
    omega

theorem switchCase_low :
    Yields (∀ case ∈ ·, SwitchCase.height Link.ignored case ≤ n + 2) grammar.switchCase := by
  have label : Yields (∀ test ∈ ·, Expr.heightOption Link.ignored test ≤ n + 2)
      grammar.caseLabel := by
    refine .bind_any fun current => .ite .pure_none (.ite (.bind_any fun _ => ?_) (.ite ?_ ?_))
    · refine (expression_low low true false).bind fun test height => .bind_any fun _ => .pure ?_
      simpa using height
    · exact .bind_any fun _ => .bind_any fun _ => .pure (by simp)
    · exact .of_ne_ok unexpected_ne_ok
  have item : Yields (∀ statement ∈ ·, Statement.height Link.ignored statement ≤ n)
      grammar.caseItem := by
    refine .bind_any fun found => .ite .pure_none ?_
    exact (statement_low low).bind fun statement height => .pure (by simpa using height)
  refine label.bind fun found height => ?_
  cases found with
  | none => exact .pure_none
  | some test =>
      refine item.collect.bind fun body heights => .pure ?_
      have testHeight := height test rfl
      have inside : Statement.heightAll Link.ignored body ≤ n := Statement.heightAll_le.mpr heights
      simp only [Option.mem_def, Option.some.injEq, forall_eq', SwitchCase.height]
      omega

theorem switchTail_low :
    Yields (StatementKind.height Link.ignored · ≤ n + 3) grammar.switchTail := by
  have block : Yields (∀ case ∈ ·, SwitchCase.height Link.ignored case ≤ n + 2)
      grammar.switchBlock := by
    refine .bind_any fun _ => (switchCase_low low).collect.inScope.bind fun cases heights => ?_
    exact .bind_any fun _ => .pure heights
  refine (parenthesized_low low).bind fun discriminant height => block.bind fun cases heights =>
    .pure ?_
  have inside : SwitchCase.heightAll Link.ignored cases ≤ n + 2 :=
    SwitchCase.heightAll_le.mpr heights
  simp only [StatementKind.height]
  omega

theorem tryTail_low : Yields (StatementKind.height Link.ignored · ≤ n + 3) grammar.tryTail := by
  have catches : Yields (CatchClause.heightOption Link.ignored · ≤ n) grammar.catchClause := by
    refine .bind_any fun _ => .ite ?_ (.pure (Nat.zero_le _))
    refine .bind_any fun _ => .bind_any fun _ => .bind_any fun parameter => .bind_any fun _ => ?_
    exact (block_low low).bind fun body heights => .pure (by simpa using heights)
  have finally_ : Yields (Statement.heightBlock Link.ignored · ≤ n) grammar.finallyClause := by
    refine .bind_any fun _ => .ite (.bind_any fun _ => ?_) (.pure (Nat.zero_le _))
    exact (block_low low).bind fun body heights => .pure (by simpa using heights)
  refine (block_low low).bind fun block heights => catches.bind fun handler handlerHeight => ?_
  refine finally_.bind fun finalizer finalizerHeight => .ite (.of_ne_ok refuse_ne_ok) (.pure ?_)
  have inside : Statement.heightAll Link.ignored block ≤ n := Statement.heightAll_le.mpr heights
  simp only [StatementKind.height]
  omega

theorem withTail_low : Yields (StatementKind.height Link.ignored · ≤ n + 3) grammar.withTail := by
  refine (parenthesized_low low).bind fun object height => ?_
  refine (statement_low low).bind fun body bodyHeight => .pure ?_
  simp only [StatementKind.height]
  omega

/-! ## All statements -/

theorem keywordStatement_low (keyword : Keyword) (start : Span) :
    Yields (StatementKind.height Link.ignored · ≤ n + 3)
      (grammar.keywordStatement keyword start) := by
  cases keyword with
  | break_ | continue_ => exact .bind_any fun label => .pure (Nat.zero_le _)
  | debugger => exact .bind_any fun _ => .pure (Nat.zero_le _)
  | do_ => exact doTail_low low
  | for_ => exact forTail_low low
  | function =>
      refine (function_low low true start).bind fun function height => .pure ?_
      simp only [StatementKind.height]
      omega
  | if_ => exact ifTail_low low
  | return_ => exact returnTail_low low start
  | switch => exact switchTail_low low
  | throw => exact throwTail_low low
  | try_ => exact tryTail_low low
  | var => exact declareTail_low low .var
  | const => exact declareTail_low low .const
  | while_ => exact whileTail_low low
  | with_ => exact withTail_low low
  | case_ | catch_ | default | else_ | finally_ => exact .of_ne_ok refuseAt_ne_ok

theorem anyStatement_low :
    Yields (Statement.height Link.ignored · ≤ n + 4) grammar.anyStatement := by
  have simple : Yields (Statement.height Link.ignored · ≤ n + 4) grammar.simpleStatement := by
    refine .bind_any fun start => (expression_low low true false).bind fun value height => ?_
    refine .bind_any fun _ => .bind_any fun span => .pure ?_
    simp only [Statement.height, StatementKind.height]
    omega
  refine .bind_any fun start => ?_
  split
  case h_1 label kind =>
      refine .bind_any fun next => .ite (.bind_any fun _ => .bind_any fun _ => ?_) simple
      refine (statement_low low).inScope.bind fun body height => .bind_any fun span => .pure ?_
      simp only [Statement.height, StatementKind.height]
      omega
  case h_2 keyword kind =>
      refine .bind_any fun _ => (keywordStatement_low low keyword _).bind fun kind height => ?_
      refine .bind_any fun span => .pure ?_
      simp only [Statement.height]
      omega
  case h_3 =>
      refine (block_low low).bind fun body heights => .bind_any fun span => .pure ?_
      have inside : Statement.heightAll Link.ignored body ≤ n := Statement.heightAll_le.mpr heights
      simp only [Statement.height, StatementKind.height]
      omega
  case h_4 =>
      refine .bind_any fun _ => .pure ?_
      simp only [Statement.height, StatementKind.height]
      omega
  all_goals first | exact simple | exact .of_ne_ok unexpected_ne_ok

theorem script_low :
    Yields (∀ statement ∈ ·, Statement.height Link.ignored statement ≤ n) grammar.script := by
  refine .collect (.bind_any fun _ => .ite .pure_none ?_)
  exact (statement_low low).bind fun statement height => .pure (by simpa using height)

end Qml.Grammar
