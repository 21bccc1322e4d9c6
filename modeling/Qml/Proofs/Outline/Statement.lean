import Qml.Proofs.Outline.Expression

/-! # Outlines of statements

What the productions for statements yield. A statement also ends at a settled
spot: behind a semicolon, a brace or a line break, or before the end of its
block or of the text. -/

namespace Qml

open Outline Qml.Parser

namespace Grammar

variable {grammar : Grammar} {state after : State}

theorem run_canOmitSemicolon {α : Type} (next : Bool → Parser α) :
    (grammar.canOmitSemicolon >>= next) state =
      next (!grammar.strict && (state.cursor.current.afterLineBreak ||
        state.cursor.current.isEnd || state.cursor.current.isPunctuation '}')) state := rfl

theorem omitted_completed
    (omitted : (!grammar.strict && (state.cursor.current.afterLineBreak ||
      state.cursor.current.isEnd || state.cursor.current.isPunctuation '}')) = true) :
    Completed grammar.toSetting [] state.spot state.spot := by
  refine ⟨.refl _, fun ready => ?_⟩
  simp only [Bool.and_eq_true, Bool.or_eq_true] at omitted
  rcases omitted.2 with (broken | atEnd) | closes
  · exact .inl (ready.clear_of_lineBreak broken)
  · exact .inr (.inr atEnd)
  · exact .inr (.inl closes)

theorem semicolon_completed {value : Unit} (ok : grammar.semicolon state = .ok value after) :
    Completed grammar.toSetting [] state.spot after.spot := by
  simp only [semicolon, run_atPunctuation, run_ite] at ok
  split at ok
  case isTrue isSemicolon =>
      cases ok
      exact (AllParsed.refl _).completed_by_token (Token.isSolid_of_isPunctuation isSemicolon)
  case isFalse =>
      simp only [run_canOmitSemicolon, run_ite] at ok
      split at ok
      case isTrue omitted =>
          cases ok
          exact omitted_completed omitted
      case isFalse => exact absurd ok unexpected_ne_ok

variable (outlined : grammar.deeper.Outlined grammar.toSetting)

include outlined

/-! ## Variables -/

theorem declarator_parsed {noIn : Bool} {declarator : Declarator}
    (ok : grammar.declarator noIn state = .ok declarator after) :
    AllParsed grammar.toSetting declarator.outlines state.spot after.spot := by
  simp only [Grammar.declarator, run_atOperator, run_ite, bind_eq_ok, expectName_eq_ok] at ok
  obtain ⟨name, _, ⟨isName, rfl⟩, ok⟩ := ok
  have nameSolid := Token.isSolid_of_name? isName
  split at ok
  case isTrue isAssign =>
      simp only [run_advance, bind_eq_ok] at ok
      obtain ⟨init, last, initOk, ok⟩ := ok
      cases ok
      have inside := (expression_parsed outlined initOk).alone
      apply AllParsed.after_token nameSolid
      exact inside.after_token (Token.isSolid_of_isOperator isAssign)
  case isFalse =>
      cases ok
      exact .token nameSolid

theorem declaratorStep_parsed {noIn : Bool} {found : Option Declarator}
    (ok : grammar.declaratorStep noIn state = .ok found after) :
    AllParsed grammar.toSetting (found.toList.flatMap Declarator.outlines)
      state.spot after.spot := by
  simp only [declaratorStep, run_atPunctuation, run_ite] at ok
  split at ok
  case isTrue isComma =>
      simp only [run_advance, bind_eq_ok] at ok
      obtain ⟨declarator, last, declaratorOk, ok⟩ := ok
      cases ok
      apply AllParsed.after_token (Token.isSolid_of_isPunctuation isComma)
      simpa using declarator_parsed outlined declaratorOk
  case isFalse =>
      cases ok
      exact .refl _

theorem declarators_parsed {noIn : Bool} {declarators : List Declarator}
    (ok : grammar.declarators noIn state = .ok declarators after) :
    AllParsed grammar.toSetting (Declarator.outlineAll declarators) state.spot after.spot := by
  simp only [Grammar.declarators, bind_eq_ok] at ok
  obtain ⟨first, between, firstOk, more, _, moreOk, ok⟩ := ok
  cases ok
  rw [Declarator.outlineAll_eq]
  apply (declarator_parsed outlined firstOk).append
  apply collect_allParsed _ _ moreOk
  · intro state after stepped
    exact declaratorStep_parsed outlined stepped
  · intro state value after stepped
    simpa using declaratorStep_parsed outlined stepped

theorem declareTail_completed {kind : VariableKind} {result : StatementKind}
    (ok : grammar.declareTail kind state = .ok result after) :
    Completed grammar.toSetting result.outlines state.spot after.spot := by
  simp only [declareTail, bind_eq_ok] at ok
  obtain ⟨declarators, between, declaratorsOk, _, _, semicolonOk, ok⟩ := ok
  cases ok
  have whole := (declarators_parsed outlined declaratorsOk).complete
    (semicolon_completed semicolonOk)
  rwa [List.append_nil] at whole

/-! ## Jumps -/

omit outlined in
theorem jumpLabel_parsed {setting : Setting} {label : Option String}
    (ok : grammar.jumpLabel state = .ok label after) :
    AllParsed setting [] state.spot after.spot := by
  simp only [jumpLabel, run_canOmitSemicolon, run_token, run_ite] at ok
  split at ok
  case isTrue =>
      cases ok
      exact .refl _
  case isFalse =>
      generalize nameEq : state.cursor.current.kind.name? = name at ok
      cases name with
      | some name =>
          cases ok
          exact .token (Token.isSolid_of_name? nameEq)
      | none =>
          cases ok
          exact .refl _

omit outlined in
theorem checkJump_eq_ok {keyword : Keyword} {label : Option String} {value : Unit}
    (ok : checkJump keyword label state = .ok value after) : state = after := by
  simp only [checkJump, run_scope] at ok
  cases label with
  | some name =>
      simp only [run_ite] at ok
      split at ok
      · cases ok
        rfl
      · exact absurd ok refuse_ne_ok
  | none =>
      simp only [run_ite] at ok
      split at ok
      · exact absurd ok refuse_ne_ok
      · cases ok
        rfl

omit outlined in
theorem jump_completed {keyword : Keyword} {label : Option String}
    (ok : grammar.jump keyword state = .ok label after) :
    Completed grammar.toSetting [] state.spot after.spot := by
  simp only [jump, bind_eq_ok] at ok
  obtain ⟨label, between, labelOk, _, last, semicolonOk, _, _, checkOk, ok⟩ := ok
  cases ok
  have checked := checkJump_eq_ok checkOk
  subst checked
  exact (jumpLabel_parsed labelOk).complete (semicolon_completed semicolonOk)

theorem valueStatement_completed {commas noIn : Bool} {value : Expr} {between : State}
    {ended : Unit}
    (valueOk : grammar.expression commas noIn state = .ok value between)
    (semicolonOk : grammar.semicolon between = .ok ended after) :
    Completed grammar.toSetting [value.outline] state.spot after.spot :=
  (expression_parsed outlined valueOk).alone.complete (semicolon_completed semicolonOk)

theorem returnTail_completed {start : Span} {kind : StatementKind}
    (ok : grammar.returnTail start state = .ok kind after) :
    Completed grammar.toSetting kind.outlines state.spot after.spot := by
  simp only [returnTail, run_scope, run_atPunctuation, run_canOmitSemicolon, run_ite] at ok
  split at ok
  case isTrue => exact absurd ok refuseAt_ne_ok
  case isFalse =>
      split at ok
      case isTrue isSemicolon =>
          cases ok
          exact (AllParsed.refl _).completed_by_token (Token.isSolid_of_isPunctuation isSemicolon)
      case isFalse notSemicolon =>
          split at ok
          case isTrue omitted =>
              cases ok
              exact omitted_completed omitted
          case isFalse =>
              simp only [bind_eq_ok] at ok
              obtain ⟨value, between, valueOk, _, _, semicolonOk, ok⟩ := ok
              cases ok
              exact valueStatement_completed outlined valueOk semicolonOk

theorem throwTail_completed {kind : StatementKind}
    (ok : grammar.throwTail state = .ok kind after) :
    Completed grammar.toSetting kind.outlines state.spot after.spot := by
  simp only [throwTail, run_token, run_ite] at ok
  split at ok
  case isTrue => exact absurd ok refuse_ne_ok
  case isFalse =>
      simp only [bind_eq_ok] at ok
      obtain ⟨value, between, valueOk, _, _, semicolonOk, ok⟩ := ok
      cases ok
      exact valueStatement_completed outlined valueOk semicolonOk

/-! ## Loops -/

theorem loopBody_completed {body : Statement} (ok : grammar.loopBody state = .ok body after) :
    Completed grammar.toSetting [body.outline] state.spot after.spot := by
  simp only [loopBody, inScope_eq_ok] at ok
  obtain ⟨inner, bodyOk, rfl⟩ := ok
  have completed := (statement_ended outlined bodyOk).completed
  exact completed

theorem doTail_completed {kind : StatementKind} (ok : grammar.doTail state = .ok kind after) :
    Completed grammar.toSetting kind.outlines state.spot after.spot := by
  simp only [doTail, bind_eq_ok, expectKeyword_eq_ok] at ok
  obtain ⟨body, between, bodyOk, _, _, ⟨isWhile, rfl, rfl⟩, test, last, testOk, _, _, semicolonOk,
    ok⟩ := ok
  cases ok
  have bodyParsed := (loopBody_completed outlined bodyOk).1
  have testParsed : AllParsed grammar.toSetting [test.outline] between.spot last.spot :=
    (parenthesized_parsed outlined testOk).after_token (Token.isSolid_of_isKeyword isWhile)
  exact (bodyParsed.append testParsed).complete (semicolon_completed semicolonOk)

theorem whileTail_completed {kind : StatementKind} (ok : grammar.whileTail state = .ok kind after) :
    Completed grammar.toSetting kind.outlines state.spot after.spot := by
  simp only [whileTail, bind_eq_ok] at ok
  obtain ⟨test, between, testOk, body, _, bodyOk, ok⟩ := ok
  cases ok
  exact (parenthesized_parsed outlined testOk).complete (loopBody_completed outlined bodyOk)

theorem forInit_parsed {init : Statement} (ok : grammar.forInit state = .ok init after) :
    init.outline.Parsed grammar.toSetting state.spot after.spot := by
  simp only [forInit, run_token, run_ite] at ok
  split at ok
  case isTrue isVar =>
      simp only [run_advance, run_spanFrom, bind_eq_ok] at ok
      obtain ⟨declarators, _, declaratorsOk, ok⟩ := ok
      cases ok
      exact Parsed.node_after_token (Token.isSolid_of_isKeyword isVar)
        (declarators_parsed outlined declaratorsOk)
  case isFalse =>
      simp only [run_spanFrom, bind_eq_ok] at ok
      obtain ⟨value, _, valueOk, ok⟩ := ok
      cases ok
      exact Parsed.node (expression_parsed outlined valueOk).alone

theorem forInTail_completed {start : Span} {left : Statement} {kind : StatementKind} {first : Spot}
    (leftParsed : AllParsed grammar.toSetting [left.outline] first state.spot)
    (isIn : state.cursor.current.isOperator .in_ = true)
    (ok : grammar.forInTail start left state = .ok kind after) :
    Completed grammar.toSetting kind.outlines first after.spot := by
  simp only [forInTail, run_ite] at ok
  split at ok
  case isTrue => exact absurd ok refuseAt_ne_ok
  case isFalse =>
      simp only [run_advance, bind_eq_ok, expectPunctuation_eq_ok] at ok
      obtain ⟨right, between, rightOk, _, _, ⟨closes, rfl, rfl⟩, body, _, bodyOk, ok⟩ := ok
      cases ok
      have rightParsed := (expression_parsed outlined rightOk).alone.then_token
        (Token.isSolid_of_isPunctuation closes)
      have head := leftParsed.append (rightParsed.after_token (Token.isSolid_of_isOperator isIn))
      exact head.complete (loopBody_completed outlined bodyOk)

theorem optionalExpression_parsed {mark : Char} {value : Option Expr}
    (ok : grammar.optionalExpression mark state = .ok value after) :
    AllParsed grammar.toSetting (Expr.outlineOption value) state.spot after.spot := by
  simp only [optionalExpression, run_atPunctuation, run_ite] at ok
  split at ok
  case isTrue =>
      cases ok
      exact .refl _
  case isFalse =>
      obtain ⟨expr, _, exprOk, ok⟩ := bind_eq_ok.mp ok
      cases ok
      exact (expression_parsed outlined exprOk).alone

theorem forClauses_completed {init : Option Statement} {kind : StatementKind} {first : Spot}
    (initParsed : AllParsed grammar.toSetting (Statement.outlineOption init) first state.spot)
    (ok : grammar.forClauses init state = .ok kind after) :
    Completed grammar.toSetting kind.outlines first after.spot := by
  simp only [forClauses, bind_eq_ok, expectPunctuation_eq_ok] at ok
  obtain ⟨_, _, ⟨one, rfl, rfl⟩, test, middle, testOk, _, _, ⟨two, rfl, rfl⟩, update, last,
    updateOk, _, _, ⟨closes, rfl, rfl⟩, body, _, bodyOk, ok⟩ := ok
  cases ok
  have testParsed := (optionalExpression_parsed outlined testOk).then_token
    (Token.isSolid_of_isPunctuation two)
  have updateParsed := (optionalExpression_parsed outlined updateOk).then_token
    (Token.isSolid_of_isPunctuation closes)
  have head := (initParsed.append
    (testParsed.after_token (Token.isSolid_of_isPunctuation one))).append updateParsed
  exact head.complete (loopBody_completed outlined bodyOk)

theorem forTail_completed {kind : StatementKind} (ok : grammar.forTail state = .ok kind after) :
    Completed grammar.toSetting kind.outlines state.spot after.spot := by
  simp only [forTail, run_token, run_ite, bind_eq_ok, expectPunctuation_eq_ok] at ok
  obtain ⟨_, _, ⟨opens, rfl, rfl⟩, ok⟩ := ok
  apply Completed.after_token (Token.isSolid_of_isPunctuation opens)
  split at ok
  case isTrue => exact forClauses_completed outlined (.refl _) ok
  case isFalse =>
      simp only [run_atOperator, run_ite, bind_eq_ok] at ok
      obtain ⟨init, between, initOk, ok⟩ := ok
      have initParsed : AllParsed grammar.toSetting (Statement.outlineOption (some init))
          state.spot.advanced between.spot := (forInit_parsed outlined initOk).alone
      split at ok
      case isTrue isIn => exact forInTail_completed outlined initParsed isIn ok
      case isFalse => exact forClauses_completed outlined initParsed ok

/-! ## Branches -/

theorem ifTail_completed {kind : StatementKind} (ok : grammar.ifTail state = .ok kind after) :
    Completed grammar.toSetting kind.outlines state.spot after.spot := by
  simp only [ifTail, run_atKeyword, run_ite, bind_eq_ok] at ok
  obtain ⟨test, between, testOk, consequent, middle, consequentOk, ok⟩ := ok
  have testParsed := parenthesized_parsed outlined testOk
  have consequentCompleted := (statement_ended outlined consequentOk).completed
  split at ok
  case isTrue isElse =>
      simp only [run_advance, bind_eq_ok] at ok
      obtain ⟨alternate, _, alternateOk, ok⟩ := ok
      cases ok
      have tail : Completed grammar.toSetting [alternate.outline] middle.spot after.spot :=
        (statement_ended outlined alternateOk).completed.after_token
          (Token.isSolid_of_isKeyword isElse)
      exact (testParsed.append consequentCompleted.1).complete tail
  case isFalse =>
      cases ok
      exact testParsed.complete consequentCompleted

theorem withTail_completed {kind : StatementKind} (ok : grammar.withTail state = .ok kind after) :
    Completed grammar.toSetting kind.outlines state.spot after.spot := by
  simp only [withTail, bind_eq_ok] at ok
  obtain ⟨object, between, objectOk, body, _, bodyOk, ok⟩ := ok
  cases ok
  have bodyEnded := statement_ended outlined bodyOk
  exact (parenthesized_parsed outlined objectOk).complete bodyEnded.completed

theorem caseLabel_parsed {label : Option (Option Expr)}
    (ok : grammar.caseLabel state = .ok label after) :
    AllParsed grammar.toSetting (label.toList.flatMap Expr.outlineOption) state.spot after.spot ∧
      (label = none → after.cursor.current.isPunctuation '}' = true) := by
  simp only [caseLabel, run_token, run_ite] at ok
  split at ok
  case isTrue closes =>
      cases ok
      exact ⟨.refl _, fun _ => closes⟩
  case isFalse =>
      split at ok
      case isTrue isCase =>
          simp only [run_advance, bind_eq_ok, expectPunctuation_eq_ok] at ok
          obtain ⟨test, between, testOk, _, _, ⟨isColon, rfl, rfl⟩, ok⟩ := ok
          cases ok
          have testParsed := (expression_parsed outlined testOk).alone.then_token
            (Token.isSolid_of_isPunctuation isColon)
          exact ⟨testParsed.after_token (Token.isSolid_of_isKeyword isCase), by simp⟩
      case isFalse =>
          split at ok
          case isTrue isDefault =>
              simp only [run_advance, bind_eq_ok, expectPunctuation_eq_ok] at ok
              obtain ⟨_, _, ⟨isColon, rfl, rfl⟩, ok⟩ := ok
              cases ok
              refine ⟨.after_token (Token.isSolid_of_isKeyword isDefault) ?_, by simp⟩
              exact .token (Token.isSolid_of_isPunctuation isColon)
          case isFalse => exact absurd ok unexpected_ne_ok

theorem caseItem_parsed {item : Option Statement} (ok : grammar.caseItem state = .ok item after) :
    AllParsed grammar.toSetting (item.toList.flatMap fun statement => [statement.outline])
      state.spot after.spot := by
  simp only [caseItem, run_token, run_ite] at ok
  split at ok
  case isTrue =>
      cases ok
      exact .refl _
  case isFalse =>
      obtain ⟨statement, _, statementOk, ok⟩ := bind_eq_ok.mp ok
      cases ok
      exact (statement_ended outlined statementOk).1.alone

theorem switchCase_parsed {found : Option SwitchCase}
    (ok : grammar.switchCase state = .ok found after) :
    AllParsed grammar.toSetting (found.toList.flatMap SwitchCase.outlines) state.spot after.spot ∧
      (found = none → after.cursor.current.isPunctuation '}' = true) := by
  simp only [switchCase, bind_eq_ok] at ok
  obtain ⟨label, between, labelOk, ok⟩ := ok
  obtain ⟨labelParsed, closes⟩ := caseLabel_parsed outlined labelOk
  cases label with
  | none =>
      cases ok
      exact ⟨labelParsed, fun _ => closes rfl⟩
  | some test =>
      simp only [bind_eq_ok] at ok
      obtain ⟨body, _, bodyOk, ok⟩ := ok
      cases ok
      have bodyParsed : AllParsed grammar.toSetting (Statement.outlineAll body) between.spot
          after.spot := by
        rw [Statement.outlineAll_eq]
        apply collect_allParsed _ _ bodyOk
        · intro state after stepped
          exact caseItem_parsed outlined stepped
        · intro state value after stepped
          simpa using caseItem_parsed outlined stepped
      refine ⟨?_, by simp⟩
      simpa [SwitchCase.outlines] using labelParsed.append bodyParsed

theorem switchBlock_completed {cases : List SwitchCase}
    (ok : grammar.switchBlock state = .ok cases after) :
    Completed grammar.toSetting (SwitchCase.outlineAll cases) state.spot after.spot := by
  simp only [switchBlock, run_advance, bind_eq_ok, expectPunctuation_eq_ok, inScope_eq_ok] at ok
  obtain ⟨_, _, ⟨opens, rfl, rfl⟩, cases, _, ⟨last, casesOk, rfl⟩, ok⟩ := ok
  cases ok
  obtain ⟨before, lastOk⟩ := collect_last casesOk
  have closes := (switchCase_parsed outlined lastOk).2 rfl
  have inside : AllParsed grammar.toSetting (SwitchCase.outlineAll cases) state.spot.advanced
      last.spot := by
    rw [SwitchCase.outlineAll_eq]
    change AllParsed _ _
      (State.spot ⟨_, Scope.inLoop.enter state.scope, state.awaitsValue, _, state.skipped⟩) _
    apply collect_allParsed _ _ casesOk
    · intro state after stepped
      exact (switchCase_parsed outlined stepped).1
    · intro state value after stepped
      simpa using (switchCase_parsed outlined stepped).1
  have solid : last.spot.cursor.current.isSolid = true := Token.isSolid_of_isPunctuation closes
  exact (inside.after_token (Token.isSolid_of_isPunctuation opens)).completed_by_token solid

theorem switchTail_completed {kind : StatementKind}
    (ok : grammar.switchTail state = .ok kind after) :
    Completed grammar.toSetting kind.outlines state.spot after.spot := by
  simp only [switchTail, bind_eq_ok] at ok
  obtain ⟨discriminant, between, discriminantOk, cases, _, casesOk, ok⟩ := ok
  cases ok
  exact (parenthesized_parsed outlined discriminantOk).complete
    (switchBlock_completed outlined casesOk)

theorem block_completed {statements : List Statement}
    (ok : grammar.block state = .ok statements after) :
    Completed grammar.toSetting (Statement.outlineAll statements) state.spot after.spot := by
  obtain ⟨solid, parsed, clear⟩ := block_parsed outlined ok
  exact .of_clear (parsed.after_token solid) clear

theorem catchClause_completed {handler : Option CatchClause}
    (ok : grammar.catchClause state = .ok handler after) :
    (handler = none ∧ state = after) ∨
      Completed grammar.toSetting (CatchClause.outlineOption handler) state.spot after.spot := by
  simp only [catchClause, run_atKeyword, run_ite] at ok
  split at ok
  case isTrue isCatch =>
      simp only [run_advance, bind_eq_ok, expectPunctuation_eq_ok, expectName_eq_ok] at ok
      obtain ⟨_, _, ⟨opens, rfl, rfl⟩, parameter, _, ⟨isName, rfl⟩, _, _, ⟨closes, rfl, rfl⟩,
        body, _, bodyOk, ok⟩ := ok
      cases ok
      refine .inr (.after_token (Token.isSolid_of_isKeyword isCatch) ?_)
      apply Completed.after_token (Token.isSolid_of_isPunctuation opens)
      apply Completed.after_token (Token.isSolid_of_name? isName)
      apply Completed.after_token (Token.isSolid_of_isPunctuation closes)
      exact block_completed outlined bodyOk
  case isFalse =>
      cases ok
      exact .inl ⟨rfl, rfl⟩

theorem finallyClause_completed {finalizer : Option (List Statement)}
    (ok : grammar.finallyClause state = .ok finalizer after) :
    (finalizer = none ∧ state = after) ∨
      Completed grammar.toSetting (Statement.outlineBlock finalizer) state.spot after.spot := by
  simp only [finallyClause, run_atKeyword, run_ite] at ok
  split at ok
  case isTrue isFinally =>
      simp only [run_advance, bind_eq_ok] at ok
      obtain ⟨body, _, bodyOk, ok⟩ := ok
      cases ok
      refine .inr (.after_token (Token.isSolid_of_isKeyword isFinally) ?_)
      exact block_completed outlined bodyOk
  case isFalse =>
      cases ok
      exact .inl ⟨rfl, rfl⟩

theorem tryTail_completed {kind : StatementKind} (ok : grammar.tryTail state = .ok kind after) :
    Completed grammar.toSetting kind.outlines state.spot after.spot := by
  simp only [tryTail, run_ite, bind_eq_ok] at ok
  obtain ⟨block, first, blockOk, handler, second, handlerOk, finalizer, third, finalizerOk, ok⟩ :=
    ok
  split at ok
  case isTrue => exact absurd ok refuse_ne_ok
  case isFalse =>
      cases ok
      have blockCompleted := block_completed outlined blockOk
      rcases catchClause_completed outlined handlerOk with ⟨rfl, rfl⟩ | caught
      · rcases finallyClause_completed outlined finalizerOk with ⟨rfl, rfl⟩ | final
        · simpa [StatementKind.outlines, CatchClause.outlineOption, Statement.outlineBlock]
            using blockCompleted
        · simpa [StatementKind.outlines, CatchClause.outlineOption]
            using blockCompleted.1.complete final
      · rcases finallyClause_completed outlined finalizerOk with ⟨rfl, rfl⟩ | final
        · simpa [StatementKind.outlines, Statement.outlineBlock]
            using blockCompleted.1.complete caught
        · exact (blockCompleted.1.append caught.1).complete final

/-! ## All statements -/

theorem keywordStatement_ended {keyword : Keyword} {kind : StatementKind}
    (solid : state.cursor.current.isSolid = true)
    (ok : grammar.keywordStatement keyword state.cursor.current.span state.advanced =
      .ok kind after) :
    (node .other (state.spot.spanTo after.spot) none kind.outlines).Ended grammar.toSetting
      state.spot after.spot := by
  have plain
      (completed : Completed grammar.toSetting kind.outlines state.spot.advanced after.spot) :=
    completed.ended_after_token solid
  cases keyword with
  | break_ =>
      simp only [keywordStatement, bind_eq_ok] at ok
      obtain ⟨label, _, jumpOk, ok⟩ := ok
      cases ok
      exact plain (jump_completed jumpOk)
  | continue_ =>
      simp only [keywordStatement, bind_eq_ok] at ok
      obtain ⟨label, _, jumpOk, ok⟩ := ok
      cases ok
      exact plain (jump_completed jumpOk)
  | debugger =>
      simp only [keywordStatement, bind_eq_ok] at ok
      obtain ⟨_, _, semicolonOk, ok⟩ := ok
      cases ok
      exact plain (semicolon_completed semicolonOk)
  | function =>
      simp only [keywordStatement, bind_eq_ok] at ok
      obtain ⟨function, _, functionOk, ok⟩ := ok
      cases ok
      obtain ⟨parsed, clear⟩ := function_parsed outlined state.spot solid (.refl _) functionOk
      exact ⟨Parsed.node parsed.alone, fun ready => .inl (clear ready)⟩
  | do_ => exact plain (doTail_completed outlined ok)
  | for_ => exact plain (forTail_completed outlined ok)
  | if_ => exact plain (ifTail_completed outlined ok)
  | return_ => exact plain (returnTail_completed outlined ok)
  | switch => exact plain (switchTail_completed outlined ok)
  | throw => exact plain (throwTail_completed outlined ok)
  | try_ => exact plain (tryTail_completed outlined ok)
  | var => exact plain (declareTail_completed outlined ok)
  | const => exact plain (declareTail_completed outlined ok)
  | while_ => exact plain (whileTail_completed outlined ok)
  | with_ => exact plain (withTail_completed outlined ok)
  | case_ | catch_ | default | else_ | finally_ => exact absurd ok refuseAt_ne_ok

theorem simpleStatement_ended {statement : Statement}
    (ok : grammar.simpleStatement state = .ok statement after) :
    statement.outline.Ended grammar.toSetting state.spot after.spot := by
  simp only [simpleStatement, run_token, run_spanFrom, bind_eq_ok] at ok
  obtain ⟨value, between, valueOk, _, _, semicolonOk, ok⟩ := ok
  cases ok
  exact (valueStatement_completed outlined valueOk semicolonOk).ended

theorem labeledStatement_ended {label : String} {statement : Statement}
    (solid : state.cursor.current.isSolid = true)
    (isColon : state.advanced.cursor.current.isPunctuation ':' = true)
    (ok : grammar.labeledStatement label state.cursor.current.span state.advanced.advanced =
      .ok statement after) :
    statement.outline.Ended grammar.toSetting state.spot after.spot := by
  simp only [labeledStatement, run_spanFrom, bind_eq_ok, inScope_eq_ok] at ok
  obtain ⟨body, _, ⟨inner, bodyOk, rfl⟩, ok⟩ := ok
  cases ok
  have completed := (statement_ended outlined bodyOk).completed
  exact (completed.after_token (Token.isSolid_of_isPunctuation isColon)).ended_after_token solid

theorem anyStatement_ended {statement : Statement}
    (ok : grammar.anyStatement state = .ok statement after) :
    statement.outline.Ended grammar.toSetting state.spot after.spot := by
  simp only [anyStatement, run_token] at ok
  generalize kindEq : state.cursor.current.kind = kind at ok
  split at ok
  · have solid := Token.isSolid_of_kind kindEq (by simp) (by simp)
    simp only [run_peek, run_ite] at ok
    split at ok
    case isTrue isColon =>
        simp only [run_advance] at ok
        exact labeledStatement_ended outlined solid isColon ok
    case isFalse => exact simpleStatement_ended outlined ok
  · have solid := Token.isSolid_of_kind kindEq (by simp) (by simp)
    simp only [run_advance, run_spanFrom, bind_eq_ok] at ok
    obtain ⟨kind, last, kindOk, ok⟩ := ok
    cases ok
    exact keywordStatement_ended outlined solid kindOk
  · simp only [run_spanFrom, bind_eq_ok] at ok
    obtain ⟨body, last, bodyOk, ok⟩ := ok
    cases ok
    obtain ⟨solid, parsed, clear⟩ := block_parsed outlined bodyOk
    exact ⟨Parsed.node_after_token solid parsed, fun ready => .inl (clear ready)⟩
  · have solid := Token.isSolid_of_kind kindEq (by simp) (by simp)
    cases ok
    have tokens : AllParsed grammar.toSetting [] state.spot state.spot := .refl _
    exact ⟨Parsed.node_after_token solid (.refl _), (tokens.completed_by_token solid).2⟩
  · exact simpleStatement_ended outlined ok
  · exact simpleStatement_ended outlined ok
  · exact simpleStatement_ended outlined ok
  · exact simpleStatement_ended outlined ok
  · exact simpleStatement_ended outlined ok
  · exact simpleStatement_ended outlined ok
  · exact simpleStatement_ended outlined ok
  · exact absurd ok unexpected_ne_ok
  · exact absurd ok unexpected_ne_ok
  · exact absurd ok unexpected_ne_ok

theorem script_parsed {statements : List Statement}
    (ok : grammar.script state = .ok statements after) :
    AllParsed grammar.toSetting (Statement.outlineAll statements) state.spot after.spot := by
  rw [Statement.outlineAll_eq]
  apply collect_allParsed _ _ ok
  · intro state after stepped
    simp only [scriptItem, run_atEnd, run_ite] at stepped
    split at stepped
    case isTrue =>
        cases stepped
        exact .refl _
    case isFalse =>
        obtain ⟨statement, _, statementOk, stepped⟩ := bind_eq_ok.mp stepped
        cases stepped
  · intro state statement after stepped
    simp only [scriptItem, run_atEnd, run_ite] at stepped
    split at stepped
    case isTrue => cases stepped
    case isFalse =>
        obtain ⟨found, _, foundOk, stepped⟩ := bind_eq_ok.mp stepped
        cases stepped
        exact (statement_ended outlined foundOk).1.alone

end Grammar

end Qml
