import Qml.Proofs.Outline.Statement
import Qml.Proofs.Scope

/-! # Outlines of members

What the productions for declarations and members yield. A value is captured
where no patch comes near: behind the colon before it. A method is captured where
it stands in its block, and there the member before it has come to its end. -/

namespace Qml

open Outline Qml.Parser

theorem Statement.outline_form (statement : Statement) : statement.outline.form = .other := by
  cases statement
  rfl

theorem Function.outline_form (function : Function) : function.outline.form = .other := by
  cases function
  rfl

namespace Grammar

variable {grammar : Grammar} {state after : State}

/-! ## Captured values -/

theorem capture_eq_ok {α : Type} {parser : Parser α} {value : α} {source : String}
    (ok : grammar.capture parser state = .ok (value, source) after) :
    parser state = .ok value after ∧
      source = String.ofList (Patch.effectiveText grammar.source after.patches
        state.cursor.offset after.cursor.offset) := by
  simp only [capture, run_offset, bind_eq_ok, run_effectiveText] at ok
  obtain ⟨found, between, foundOk, ok⟩ := ok
  cases ok
  exact ⟨foundOk, rfl⟩

theorem capturedValue_eq_ok {parser : Parser Statement} {captured : Captured}
    (ok : grammar.capturedValue parser state = .ok captured after) :
    ∃ inner : State, parser { state with scope := Scope.inValue.enter state.scope } =
        .ok captured.node inner ∧
      after.spot = inner.spot ∧
      captured.source = String.ofList (Patch.effectiveText grammar.source inner.patches
        state.cursor.offset inner.cursor.offset) := by
  simp only [capturedValue, captureBody, bind_eq_ok, inScope_eq_ok] at ok
  obtain ⟨⟨node, source⟩, between, ⟨inner, captureOk, rfl⟩, ok⟩ := ok
  cases ok
  obtain ⟨nodeOk, sourceEq⟩ := capture_eq_ok captureOk
  exact ⟨inner, nodeOk, rfl, sourceEq⟩

theorem capturedValue_parsed {parser : Parser Statement} {captured : Captured}
    (parses : ∀ {state statement after}, parser state = .ok statement after →
      statement.outline.Parsed grammar.toSetting state.spot after.spot)
    (solid : state.cursor.current.isSolid = true)
    (ok : grammar.capturedValue parser state.advanced = .ok captured after) :
    AllParsed grammar.toSetting [captured.outline] state.spot after.spot := by
  obtain ⟨inner, nodeOk, afterEq, sourceEq⟩ := capturedValue_eq_ok ok
  obtain ⟨node, source⟩ := captured
  intro ready
  have clear : state.spot.advanced.Clear := ready.clear_of_reach (.one solid) (by simp)
  have read := parses nodeOk (ready.reach (.one solid))
  have kept := read.withSource (by simp [Statement.outline_form]) clear sourceEq
  rw [afterEq]
  exact kept.alone.after_reach (.one solid)

theorem capturedValue_completed {parser : Parser Statement} {captured : Captured}
    (ends : ∀ {state statement after}, parser state = .ok statement after →
      statement.outline.Ended grammar.toSetting state.spot after.spot)
    (solid : state.cursor.current.isSolid = true)
    (ok : grammar.capturedValue parser state.advanced = .ok captured after) :
    Completed grammar.toSetting [captured.outline] state.spot after.spot := by
  refine ⟨capturedValue_parsed (fun nodeOk => (ends nodeOk).1) solid ok, ?_⟩
  obtain ⟨inner, nodeOk, afterEq, -⟩ := capturedValue_eq_ok ok
  intro ready
  rw [afterEq]
  exact (ends nodeOk).2 (ready.reach (.one solid))

variable (outlined : grammar.deeper.Outlined grammar.toSetting)

include outlined

theorem functionValue_ended {statement : Statement}
    (solid : state.cursor.current.isSolid = true)
    (ok : grammar.functionValue state.cursor.current.span state.advanced = .ok statement after) :
    statement.outline.Ended grammar.toSetting state.spot after.spot := by
  simp only [functionValue, bind_eq_ok] at ok
  obtain ⟨function, last, functionOk, ok⟩ := ok
  cases ok
  obtain ⟨parsed, clear⟩ := functionAtom_parsed outlined solid functionOk
  refine ⟨?_, fun ready => .inl (clear ready)⟩
  intro ready
  have spanEq := (parsed ready).span_eq
  rw [Expr.outline_span] at spanEq
  have read := Parsed.node parsed.alone ready
  rw [← spanEq] at read
  exact read

theorem valueOr_eq_ok {otherwise : Parser Statement} {statement : Statement}
    (ok : grammar.valueOr otherwise state = .ok statement after) :
    otherwise state = .ok statement after ∨
      statement.outline.Ended grammar.toSetting state.spot after.spot := by
  simp only [valueOr, run_token, run_peek, run_ite] at ok
  split at ok
  case isTrue =>
      simp only [run_spanFrom, bind_eq_ok] at ok
      obtain ⟨members, last, membersOk, ok⟩ := ok
      cases ok
      obtain ⟨parsed, clear⟩ := memberBlock_parsed outlined membersOk
      exact .inr ⟨parsed, fun ready => .inl (clear ready)⟩
  case isFalse =>
      split at ok
      case isTrue isFunction =>
          rw [run_advance] at ok
          exact .inr (functionValue_ended outlined (Token.isSolid_of_isKeyword isFunction) ok)
      case isFalse => exact .inl ok

theorem propertyValue_completed {captured : Captured}
    (solid : state.cursor.current.isSolid = true)
    (ok : grammar.propertyValue state.advanced = .ok captured after) :
    Completed grammar.toSetting [captured.outline] state.spot after.spot := by
  have settledSolid : state.settled.cursor.current.isSolid = true := solid
  rw [propertyValue_run] at ok
  apply capturedValue_completed _ settledSolid ok
  intro state statement after valueOk
  apply pragmaOr_ended _ valueOk
  intro plainOk
  rcases valueOr_eq_ok outlined plainOk with statementOk | ended
  · exact outlined.statement statementOk
  · exact ended

theorem handlerValue_completed {captured : Captured}
    (solid : state.cursor.current.isSolid = true)
    (ok : grammar.handlerValue state.advanced = .ok captured after) :
    Completed grammar.toSetting [captured.outline] state.spot after.spot :=
  capturedValue_completed outlined.statement solid ok

/-- A value in a block with string keys is followed by a comma or a brace, so it
need not end at a settled spot. -/
theorem keyedValue_parsed {captured : Captured} (solid : state.cursor.current.isSolid = true)
    (ok : grammar.keyedValue state.advanced = .ok captured after) :
    AllParsed grammar.toSetting [captured.outline] state.spot after.spot := by
  have settledSolid : state.settled.cursor.current.isSolid = true := solid
  rw [keyedValue_run] at ok
  apply capturedValue_parsed _ settledSolid ok
  intro state statement after valueOk
  simp only [pragmaOr, run_atPunctuation, run_peek, run_ite] at valueOk
  split at valueOk
  case isTrue isDot =>
      split at valueOk
      case isTrue isWord => exact (pragma_ended valueOk isDot isWord).1
      case isFalse => exact absurd valueOk unexpected_ne_ok
  case isFalse =>
      rcases valueOr_eq_ok outlined valueOk with bareOk | ended
      · simp only [bareExpression, run_token, run_spanFrom, bind_eq_ok] at bareOk
        obtain ⟨value, last, exprOk, bareOk⟩ := bareOk
        cases bareOk
        exact Parsed.node (expression_parsed outlined exprOk).alone
      · exact ended.1

/-! ## Declarations -/

omit outlined in
theorem aliasStep_parsed {setting : Setting} {progress : AliasProgress}
    {found : Option AliasProgress} (ok : aliasStep progress state = .ok found after) :
    AllParsed setting [] state.spot after.spot := by
  simp only [aliasStep, run_token, run_ite] at ok
  split at ok
  case isTrue =>
      generalize segmentEq : aliasSegment? state.cursor.current = segment at ok
      cases segment with
      | none => exact absurd ok expected_ne_ok
      | some segment =>
          cases ok
          refine .token ?_
          unfold aliasSegment? at segmentEq
          split at segmentEq
          case h_1 kindEq => exact Token.isSolid_of_kind kindEq (by simp) (by simp)
          case h_2 kindEq => exact Token.isSolid_of_kind kindEq (by simp) (by simp)
          case h_3 => cases segmentEq
  case isFalse =>
      split at ok
      case isTrue isDot =>
          cases ok
          exact .token (Token.isSolid_of_isPunctuation isDot)
      case isFalse =>
          split at ok
          case isTrue opens =>
              cases ok
              exact .token (Token.isSolid_of_isPunctuation opens)
          case isFalse =>
              split at ok
              case isTrue closes =>
                  generalize progress.enclosing = enclosing at ok
                  cases enclosing with
                  | nil => exact absurd ok fail_ne_ok
                  | cons parent rest =>
                      cases ok
                      exact .token (Token.isSolid_of_isPunctuation closes)
              case isFalse =>
                  cases ok
                  exact .refl _

omit outlined in
theorem aliasPath_parsed {setting : Setting} {path : AliasPath}
    (ok : aliasPath state = .ok path after) : AllParsed setting [] state.spot after.spot := by
  simp only [aliasPath, run_ite, bind_eq_ok] at ok
  obtain ⟨progress, between, progressOk, ok⟩ := ok
  obtain ⟨before, kept, lastOk⟩ := iterate_invariant
    (motive := fun _ after => AllParsed setting [] state.spot after.spot)
    (fun kept stepped => kept.append (aliasStep_parsed stepped)) progressOk (.refl _)
  have whole := kept.append (aliasStep_parsed lastOk)
  split at ok
  case isTrue =>
      cases ok
      exact whole
  case isFalse => exact absurd ok fail_ne_ok

omit outlined in
theorem aliasTail_ended {first : Spot} {readonly : Bool} {name : String} {target : Alias}
    (lead : AllParsed grammar.toSetting [] first state.spot)
    (ok : aliasTail readonly first.cursor.current.span name state = .ok target after) :
    (Declaration.aliased target).outline.Ended grammar.toSetting first after.spot := by
  simp only [aliasTail, run_spanFrom, bind_eq_ok, expectPunctuation_eq_ok] at ok
  obtain ⟨_, _, ⟨isColon, rfl, rfl⟩, path, between, pathOk, _, last, skipOk, ok⟩ := ok
  cases ok
  have tokens : AllParsed grammar.toSetting [] state.spot.advanced after.spot :=
    (aliasPath_parsed pathOk).append (skipPunctuation_parsed skipOk)
  exact ended_by_tokens lead (Token.isSolid_of_isPunctuation isColon) tokens

omit outlined in
theorem typeName_parsed {setting : Setting} {name : String} (ok : typeName state = .ok name after) :
    AllParsed setting [] state.spot after.spot := by
  simp only [typeName, run_token] at ok
  generalize nameEq : typeName? state.cursor.current.kind = found at ok
  cases found with
  | none => exact absurd ok expected_ne_ok
  | some found =>
      cases ok
      refine .token ?_
      generalize kindEq : state.cursor.current.kind = kind at nameEq
      cases kind <;> cases nameEq <;> exact Token.isSolid_of_kind kindEq (by simp) (by simp)

omit outlined in
theorem typeArgument_parsed {setting : Setting} {argument : Option String}
    (ok : typeArgument state = .ok argument after) :
    AllParsed setting [] state.spot after.spot := by
  simp only [typeArgument, run_atOperator, run_ite] at ok
  split at ok
  case isTrue opens =>
      simp only [run_advance, run_atOperator, run_ite, bind_eq_ok, expectName_eq_ok] at ok
      obtain ⟨name, _, ⟨isName, rfl⟩, ok⟩ := ok
      split at ok
      case isTrue closes =>
          cases ok
          apply AllParsed.after_token (Token.isSolid_of_isOperator opens)
          apply AllParsed.after_token (Token.isSolid_of_name? isName)
          exact .token (Token.isSolid_of_isOperator closes)
      case isFalse => exact absurd ok expected_ne_ok
  case isFalse =>
      cases ok
      exact .refl _

theorem initialValue_completed {readonly : Bool} {value : Option Captured}
    (ok : grammar.initialValue readonly state = .ok value after) :
    (value = none ∧ AllParsed grammar.toSetting [] state.spot after.spot) ∨
      Completed grammar.toSetting (Captured.outlineOption value) state.spot after.spot := by
  simp only [initialValue, run_atPunctuation, run_ite] at ok
  split at ok
  case isTrue isColon =>
      simp only [run_advance, bind_eq_ok] at ok
      obtain ⟨captured, _, capturedOk, ok⟩ := ok
      cases ok
      exact .inr (propertyValue_completed outlined (Token.isSolid_of_isPunctuation isColon)
        capturedOk)
  case isFalse =>
      split at ok
      case isTrue => exact absurd ok refuse_ne_ok
      case isFalse =>
          simp only [bind_eq_ok] at ok
          obtain ⟨_, _, skipOk, ok⟩ := ok
          cases ok
          exact .inl ⟨rfl, skipPunctuation_parsed skipOk⟩

theorem declaration_ended {first : Spot} {readonly : Bool} {declaration : Declaration}
    (lead : AllParsed grammar.toSetting [] first state.spot)
    (ok : grammar.declaration readonly first.cursor.current.span state = .ok declaration after) :
    declaration.outline.Ended grammar.toSetting first after.spot := by
  simp only [Grammar.declaration, run_ite, bind_eq_ok, expectName_eq_ok] at ok
  obtain ⟨type, between, typeOk, argument, middle, argumentOk, name, _, ⟨isName, rfl⟩, ok⟩ := ok
  have solid := Token.isSolid_of_name? isName
  have head : AllParsed grammar.toSetting [] first middle.spot :=
    lead.append ((typeName_parsed typeOk).append (typeArgument_parsed argumentOk))
  split at ok
  case isTrue =>
      obtain ⟨target, _, targetOk, ok⟩ := bind_eq_ok.mp ok
      cases ok
      have named : AllParsed grammar.toSetting [] first middle.advanced.spot :=
        head.then_token solid
      exact aliasTail_ended named targetOk
  case isFalse =>
      simp only [run_spanFrom, bind_eq_ok] at ok
      obtain ⟨value, last, valueOk, ok⟩ := ok
      cases ok
      rcases initialValue_completed outlined valueOk with ⟨rfl, tokens⟩ | completed
      · exact ended_by_tokens head solid tokens
      · refine ⟨Parsed.node_around_token head solid completed.1, ?_⟩
        exact ((head.then_token solid).complete completed).2

/-! ## Signals and methods -/

omit outlined in
theorem signalParameters_parsed {setting : Setting} {parameters : List SignalParameter}
    (ok : signalParameters state = .ok parameters after) :
    AllParsed setting [] state.spot after.spot := by
  simp only [signalParameters, run_atPunctuation, run_ite] at ok
  split at ok
  case isTrue opens =>
      rw [run_advance] at ok
      apply AllParsed.after_token (Token.isSolid_of_isPunctuation opens)
      have parsed : AllParsed setting (parameters.flatMap fun _ => []) state.advanced.spot
          after.spot := by
        apply listUntil_allParsed _ ok
        intro state parameter after parameterOk
        simp only [signalParameter, run_token] at parameterOk
        generalize typeEq : parameterType? state.cursor.current.kind = type at parameterOk
        cases type with
        | none => exact absurd parameterOk expected_ne_ok
        | some type =>
            simp only [run_advance, bind_eq_ok, expectName_eq_ok] at parameterOk
            obtain ⟨name, _, ⟨isName, rfl⟩, parameterOk⟩ := parameterOk
            cases parameterOk
            have typeSolid : state.cursor.current.isSolid = true := by
              generalize kindEq : state.cursor.current.kind = kind at typeEq
              unfold parameterType? at typeEq
              split at typeEq <;> cases typeEq <;>
                exact Token.isSolid_of_kind kindEq (by simp) (by simp)
            exact (AllParsed.token (Token.isSolid_of_name? isName)).after_token typeSolid
      rwa [List.flatMap_eq_nil_iff.mpr (by simp)] at parsed
  case isFalse =>
      cases ok
      exact .refl _

omit outlined in
theorem signal_ended {first : Spot} {found : Signal}
    (lead : AllParsed grammar.toSetting [] first state.spot)
    (ok : signal first.cursor.current.span state = .ok found after) :
    (Member.signal found).outline.Ended grammar.toSetting first after.spot := by
  simp only [signal, run_spanFrom, bind_eq_ok, expectName_eq_ok] at ok
  obtain ⟨name, _, ⟨isName, rfl⟩, parameters, between, parametersOk, _, last, skipOk, ok⟩ := ok
  cases ok
  have tokens : AllParsed grammar.toSetting [] state.spot.advanced after.spot :=
    (signalParameters_parsed parametersOk).append (skipPunctuation_parsed skipOk)
  exact ended_by_tokens lead (Token.isSolid_of_name? isName) tokens

theorem method_ended {member : Member}
    (isFunction : state.cursor.current.isKeyword .function = true)
    (clear : state.spot.Clear) (ok : grammar.method state = .ok member after) :
    member.outline.Ended grammar.toSetting state.spot after.spot := by
  simp only [method, run_token, bind_eq_ok] at ok
  obtain ⟨⟨function, source⟩, between, captureOk, ok⟩ := ok
  cases ok
  obtain ⟨functionOk, sourceEq⟩ := capture_eq_ok captureOk
  rw [run_advance] at functionOk
  have solid := Token.isSolid_of_isKeyword isFunction
  obtain ⟨parsed, closed⟩ := function_parsed outlined state.spot solid (.refl _) functionOk
  refine ⟨?_, fun ready => .inl (closed ready)⟩
  intro ready
  exact (parsed ready).withSource (by simp [Function.outline_form]) clear sourceEq

theorem signalMember_ended {first : Spot} {member : Member}
    (lead : AllParsed grammar.toSetting [] first state.spot)
    (ok : grammar.signalMember first.cursor.current.span state = .ok member after) :
    member.outline.Ended grammar.toSetting first after.spot := by
  simp only [signalMember, run_atPunctuation, run_ite] at ok
  split at ok
  case isTrue isColon =>
      simp only [run_advance, run_spanFrom, bind_eq_ok] at ok
      obtain ⟨captured, last, capturedOk, ok⟩ := ok
      cases ok
      have completed := capturedValue_completed (statement_ended outlined)
        (Token.isSolid_of_isPunctuation isColon) capturedOk
      exact (lead.complete completed).ended
  case isFalse =>
      obtain ⟨found, _, foundOk, ok⟩ := bind_eq_ok.mp ok
      cases ok
      exact signal_ended lead foundOk

/-! ## Members that begin with a name -/

omit outlined in
theorem dottedWords_parsed {setting : Setting} {words : List String}
    (ok : collect dottedWord state = .ok words after) :
    AllParsed setting [] state.spot after.spot := by
  have round {state : State} {found : Option String} {after : State}
      (stepped : dottedWord state = .ok found after) :
      AllParsed setting [] state.spot after.spot := by
    simp only [dottedWord, run_atPunctuation, run_ite] at stepped
    split at stepped
    case isTrue isDot =>
        simp only [run_advance, bind_eq_ok, expectWord_eq_ok] at stepped
        obtain ⟨word, _, ⟨isWord, rfl⟩, stepped⟩ := stepped
        cases stepped
        apply AllParsed.after_token (Token.isSolid_of_isPunctuation isDot)
        exact .token (Token.isSolid_of_word? isWord)
    case isFalse =>
        cases stepped
        exact .refl _
  have parsed : AllParsed setting (words.flatMap fun _ => []) state.spot after.spot := by
    apply collect_allParsed _ _ ok
    · intro state after stepped
      exact round stepped
    · intro state value after stepped
      exact round stepped
  rwa [List.flatMap_eq_nil_iff.mpr (by simp)] at parsed

omit outlined in
theorem qualifiedName_parsed {setting : Setting} {name : QualifiedName}
    (ok : qualifiedName state = .ok name after) : AllParsed setting [] state.spot after.spot := by
  simp only [qualifiedName, bind_eq_ok, expectWord_eq_ok] at ok
  obtain ⟨first, _, ⟨isWord, rfl⟩, more, last, moreOk, ok⟩ := ok
  cases ok
  apply AllParsed.after_token (Token.isSolid_of_word? isWord)
  exact dottedWords_parsed moreOk

omit outlined in
theorem elementTarget_parsed {setting : Setting} {target : Option String}
    (ok : elementTarget state = .ok target after) : AllParsed setting [] state.spot after.spot := by
  simp only [elementTarget, run_atName, run_ite] at ok
  split at ok
  case isTrue isOn =>
      simp only [run_advance, bind_eq_ok, expectName_eq_ok] at ok
      obtain ⟨name, _, ⟨isName, rfl⟩, ok⟩ := ok
      cases ok
      apply AllParsed.after_token (Token.isSolid_of_isName isOn)
      exact .token (Token.isSolid_of_name? isName)
  case isFalse =>
      cases ok
      exact .refl _

theorem elementTail_ended {first : Spot} {typeName : QualifiedName} {element : Element}
    (lead : AllParsed grammar.toSetting [] first state.spot)
    (ok : grammar.elementTail typeName first.cursor.current.span state = .ok element after) :
    element.outline.Ended grammar.toSetting first after.spot := by
  simp only [elementTail, run_spanFrom, bind_eq_ok] at ok
  obtain ⟨target, between, targetOk, members, last, membersOk, ok⟩ := ok
  cases ok
  have head : AllParsed grammar.toSetting [] first between.spot :=
    lead.append (elementTarget_parsed targetOk)
  obtain ⟨parsed, clear⟩ := memberBlock_parsed outlined membersOk
  refine ⟨Parsed.widen head parsed, fun ready => .inl ?_⟩
  exact clear ((head ready).ready ready)

theorem bindingValue_parsed {stringKeys : Bool} {path : QualifiedName} {value : BindingValue}
    (solid : state.cursor.current.isSolid = true)
    (ok : grammar.bindingValue stringKeys path state.advanced = .ok value after) :
    AllParsed grammar.toSetting [value.outline] state.spot after.spot ∧
      (stringKeys = false → state.spot.Ready grammar.source → after.spot.Settled) := by
  simp only [bindingValue, run_ite] at ok
  split at ok
  case isTrue keyed =>
      obtain ⟨captured, _, capturedOk, ok⟩ := bind_eq_ok.mp ok
      cases ok
      refine ⟨keyedValue_parsed outlined solid capturedOk, ?_⟩
      intro plain
      rw [plain] at keyed
      cases keyed
  case isFalse =>
      split at ok
      case isTrue =>
          obtain ⟨captured, _, capturedOk, ok⟩ := bind_eq_ok.mp ok
          cases ok
          have completed := handlerValue_completed outlined solid capturedOk
          exact ⟨completed.1, fun _ => completed.2⟩
      case isFalse =>
          obtain ⟨captured, _, capturedOk, ok⟩ := bind_eq_ok.mp ok
          cases ok
          have completed := propertyValue_completed outlined solid capturedOk
          exact ⟨completed.1, fun _ => completed.2⟩

theorem pathMember_parsed {first : Spot} {stringKeys : Bool} {member : Member}
    (lead : AllParsed grammar.toSetting [] first state.spot)
    (ok : grammar.pathMember stringKeys first.cursor.current.span state = .ok member after) :
    member.outline.Parsed grammar.toSetting first after.spot ∧
      (stringKeys = false → first.Ready grammar.source → after.spot.Settled) := by
  simp only [pathMember, run_atPunctuation, run_ite, bind_eq_ok] at ok
  obtain ⟨path, between, pathOk, ok⟩ := ok
  have head : AllParsed grammar.toSetting [] first between.spot :=
    lead.append (qualifiedName_parsed pathOk)
  split at ok
  case isTrue =>
      obtain ⟨element, _, elementOk, ok⟩ := bind_eq_ok.mp ok
      cases ok
      have ended := elementTail_ended outlined head elementOk
      exact ⟨ended.1, fun _ => ended.2⟩
  case isFalse =>
      split at ok
      case isTrue =>
          simp only [run_spanFrom, bind_eq_ok] at ok
          obtain ⟨members, last, membersOk, ok⟩ := ok
          cases ok
          obtain ⟨parsed, clear⟩ := memberBlock_parsed outlined membersOk
          exact ⟨Parsed.widen head parsed, fun _ ready => .inl (clear ((head ready).ready ready))⟩
      case isFalse =>
          simp only [run_spanFrom, bind_eq_ok, expectPunctuation_eq_ok] at ok
          obtain ⟨_, _, ⟨isColon, rfl, rfl⟩, value, last, valueOk, ok⟩ := ok
          cases ok
          obtain ⟨parsed, settled⟩ :=
            bindingValue_parsed outlined (Token.isSolid_of_isPunctuation isColon) valueOk
          refine ⟨Parsed.node (head.append parsed), ?_⟩
          intro plain ready
          exact settled plain ((head ready).ready ready)

theorem namedMember_parsed {first : Spot} {stringKeys : Bool} {name : String} {member : Member}
    (lead : AllParsed grammar.toSetting [] first state.spot)
    (solid : state.cursor.current.isSolid = true)
    (ok : grammar.namedMember stringKeys name first.cursor.current.span state = .ok member after) :
    member.outline.Parsed grammar.toSetting first after.spot ∧
      (stringKeys = false → first.Ready grammar.source → after.spot.Settled) := by
  simp only [namedMember, run_peek, run_ite] at ok
  split at ok
  case isTrue readonly =>
      simp only [run_advance, bind_eq_ok] at ok
      obtain ⟨declaration, _, declarationOk, ok⟩ := ok
      cases ok
      simp only [Bool.and_eq_true] at readonly
      have next : state.advanced.cursor.current.isSolid = true := Token.isSolid_of_isName readonly.2
      have head : AllParsed grammar.toSetting [] first state.advanced.advanced.spot :=
        (lead.then_token solid).then_token next
      have ended := declaration_ended outlined head declarationOk
      exact ⟨ended.1, fun _ => ended.2⟩
  case isFalse =>
      split at ok
      case isTrue =>
          simp only [run_advance, bind_eq_ok] at ok
          obtain ⟨declaration, _, declarationOk, ok⟩ := ok
          cases ok
          have head : AllParsed grammar.toSetting [] first state.advanced.spot :=
            lead.then_token solid
          have ended := declaration_ended outlined head declarationOk
          exact ⟨ended.1, fun _ => ended.2⟩
      case isFalse => exact pathMember_parsed outlined lead ok

theorem keyedMember_parsed {first : Spot} {key : String} {member : Member}
    (lead : AllParsed grammar.toSetting [] first state.spot)
    (solid : state.cursor.current.isSolid = true)
    (ok : grammar.keyedMember key first.cursor.current.span state = .ok member after) :
    member.outline.Parsed grammar.toSetting first after.spot := by
  simp only [keyedMember, run_advance, run_spanFrom, bind_eq_ok, expectPunctuation_eq_ok] at ok
  obtain ⟨_, _, ⟨isColon, rfl, rfl⟩, captured, last, capturedOk, ok⟩ := ok
  cases ok
  have value := keyedValue_parsed outlined (Token.isSolid_of_isPunctuation isColon) capturedOk
  exact Parsed.node ((lead.then_token solid).append value)

theorem defaultMember_ended {first : Spot} {member : Member}
    (lead : AllParsed grammar.toSetting [] first state.spot)
    (solid : state.cursor.current.isSolid = true)
    (ok : grammar.defaultMember first.cursor.current.span state = .ok member after) :
    member.outline.Ended grammar.toSetting first after.spot := by
  simp only [defaultMember, run_advance, bind_eq_ok, expectNameOf_eq_ok] at ok
  obtain ⟨_, _, ⟨isProperty, rfl, rfl⟩, declaration, _, declarationOk, ok⟩ := ok
  cases ok
  have head : AllParsed grammar.toSetting [] first state.advanced.advanced.spot :=
    (lead.then_token solid).then_token (Token.isSolid_of_isName isProperty)
  exact declaration_ended outlined head declarationOk

/-! ## All members -/

/-- What a round over the members of a block has found was read, and nothing
else. A round that found nothing consumed tokens only, or went past the end of
the text. -/
def Found (setting : Setting) : Option Member → Spot → Spot → Prop
  | some member, first, last => member.outline.Read setting first last
  | none, first, last => AllRead setting [] first last ∨ last.cursor.current.isEnd = true

omit outlined in
theorem Found.allRead {setting : Setting} {found : Option Member} {first last : Spot}
    (read : Found setting found first last) :
    AllRead setting (found.toList.flatMap fun member => [member.outline]) first last ∨
      last.cursor.current.isEnd = true := by
  cases found with
  | none => exact read
  | some member => exact .inl (Outline.Read.alone read)

/-- A round over the members of a block. After what it has found the next member
may begin, or the keys of the block are strings. -/
def Passed (setting : Setting) (found : Option Member) (first : Spot) (after : State) : Prop :=
  first.Ready setting.source → Found setting found first after.spot ∧
    (after.spot.Settled ∨ after.scope.stringKeys = true)

omit outlined in
theorem passed_of_ended {setting : Setting} {member : Member} {first : Spot}
    (ended : member.outline.Ended setting first after.spot) :
    Passed setting (some member) first after :=
  fun ready => ⟨ended.1 ready, .inl (ended.2 ready)⟩

omit outlined in
theorem passed_by_skip {first : Spot} {place : Span} {value : Unit} {setting : Setting}
    (lead : AllParsed setting [] first state.spot)
    (whole : state.cursor.current.isMalformed = false)
    (ok : skipToken place state = .ok value after) : Passed setting none first after := by
  obtain ⟨cursorEq, -, patchesEq⟩ := skipToken_eq_ok ok
  have afterEq : after.spot = state.spot.advanced := by
    simp [State.spot, Spot.advanced, cursorEq, patchesEq]
  intro ready
  have stateReady := (lead ready).ready ready
  rcases atEnd : state.cursor.current.isEnd with _ | _
  · have solid : state.cursor.current.isSolid = true := by simp [Token.isSolid, atEnd, whole]
    rw [afterEq]
    exact ⟨.inl (lead.then_token solid ready),
      .inl (.inl (stateReady.clear_of_reach (.one solid) (by simp)))⟩
  · have ended : after.cursor.current.isEnd = true := by
      rw [cursorEq]
      exact stateReady.on.isEnd_advance atEnd
    exact ⟨.inr ended, .inl (.inr (.inr ended))⟩

section Rounds

variable [grammar.deeper.KeepsScope]

omit outlined in
theorem passed_of_parsed {setting : Setting} {stringKeys : Bool} {member : Member} {first : Spot}
    (keyed : stringKeys = true → after.scope.stringKeys = true)
    (parsed : member.outline.Parsed setting first after.spot ∧
      (stringKeys = false → first.Ready setting.source → after.spot.Settled)) :
    Passed setting (some member) first after := by
  intro ready
  refine ⟨parsed.1 ready, ?_⟩
  cases stringKeys with
  | false => exact .inl (parsed.2 rfl ready)
  | true => exact .inr (keyed rfl)

theorem memberByToken_passed {first : Spot} {isFirst stringKeys : Bool} {found : Option Member}
    (keyed : stringKeys = true → state.scope.stringKeys = true)
    (lead : AllParsed grammar.toSetting [] first state.spot)
    (ok : grammar.memberByToken isFirst stringKeys first.cursor.current.span state =
      .ok found after) : Passed grammar.toSetting found first after := by
  simp only [memberByToken, run_token] at ok
  generalize kindEq : state.cursor.current.kind = kind at ok
  split at ok
  · have solid := Token.isSolid_of_kind kindEq (by simp) (by simp)
    obtain ⟨member, _, memberOk, ok⟩ := bind_eq_ok.mp ok
    cases ok
    rw [← scope_of_ok memberOk] at keyed
    exact passed_of_parsed keyed (namedMember_parsed outlined lead solid memberOk)
  · have solid := Token.isSolid_of_kind kindEq (by simp) (by simp)
    obtain ⟨member, _, memberOk, ok⟩ := bind_eq_ok.mp ok
    cases ok
    exact passed_of_ended (defaultMember_ended outlined lead solid memberOk)
  · have solid := Token.isSolid_of_kind kindEq (by simp) (by simp)
    rw [run_ite] at ok
    split at ok
    case isTrue =>
        simp only [enterStringKeys, bind_eq_ok] at ok
        obtain ⟨_, keysState, entered, member, _, memberOk, ok⟩ := ok
        cases entered
        cases ok
        have parsed : member.outline.Parsed grammar.toSetting first after.spot := by
          refine keyedMember_parsed outlined ?_ ?_ memberOk
          · exact lead
          · exact solid
        refine fun ready => ⟨parsed ready, .inr ?_⟩
        rw [scope_of_ok memberOk]
        rfl
    case isFalse => exact absurd ok unexpected_ne_ok
  · exact absurd ok unexpected_ne_ok
  · exact absurd ok unexpected_ne_ok
  · exact absurd ok unexpected_ne_ok
  · exact absurd ok unexpected_ne_ok
  · rw [run_ite] at ok
    split at ok
    case isTrue => exact absurd ok unexpected_ne_ok
    case isFalse =>
        have solid := Token.isSolid_of_kind kindEq (by simp) (by simp)
        cases ok
        intro ready
        have clear := ((lead ready).ready ready).clear_of_reach (.one solid) (by simp)
        exact ⟨.inl (lead.then_token solid ready), .inl (.inl clear)⟩
  all_goals
    obtain ⟨_, _, skipOk, ok⟩ := bind_eq_ok.mp ok
    cases ok
    exact passed_by_skip lead (by simp [Token.isMalformed, kindEq]) skipOk

theorem memberAfterComma_passed {isFirst : Bool} {found : Option Member}
    (keyed : state.scope.stringKeys = true)
    (ok : grammar.memberAfterComma isFirst state.cursor.current.span state = .ok found after) :
    Passed grammar.toSetting found state.spot after := by
  simp only [memberAfterComma, run_ite] at ok
  split at ok
  case isTrue =>
    exact memberByToken_passed outlined (fun _ => keyed)
      (AllParsed.refl state.spot) ok
  case isFalse =>
      simp only [run_atPunctuation, run_ite, bind_eq_ok, expectPunctuation_eq_ok] at ok
      obtain ⟨_, _, ⟨isComma, rfl, rfl⟩, ok⟩ := ok
      have solid := Token.isSolid_of_isPunctuation isComma
      split at ok
      case isTrue =>
          cases ok
          exact fun ready => ⟨.inl (AllParsed.token solid ready), .inr keyed⟩
      case isFalse =>
          have moved : state.advanced.scope.stringKeys = true := keyed
          exact memberByToken_passed outlined (fun _ => moved) (.token solid) ok

theorem member_passed {isFirst : Bool} {found : Option Member}
    (entry : state.spot.Clear ∨ state.scope.stringKeys = true)
    (ok : grammar.member isFirst state = .ok found after) :
    Passed grammar.toSetting found state.spot after := by
  simp only [Grammar.member, run_token, run_scope, run_ite] at ok
  split at ok
  case isTrue keyed => exact memberAfterComma_passed outlined keyed ok
  case isFalse plain =>
      split at ok
      case isTrue isFunction =>
          obtain ⟨member, _, memberOk, ok⟩ := bind_eq_ok.mp ok
          cases ok
          have clear := entry.resolve_right plain
          exact passed_of_ended (method_ended outlined isFunction clear memberOk)
      case isFalse =>
          split at ok
          case isTrue isSignal =>
              simp only [run_advance, bind_eq_ok] at ok
              obtain ⟨member, _, memberOk, ok⟩ := ok
              cases ok
              have lead : AllParsed grammar.toSetting [] state.spot state.advanced.spot :=
                .token (Token.isSolid_of_isName isSignal)
              exact passed_of_ended (signalMember_ended outlined lead memberOk)
          case isFalse =>
              exact memberByToken_passed outlined (by simp) (AllParsed.refl state.spot) ok

theorem memberRound_passed {isFirst : Bool} {found : Option (Option Member)}
    (ok : grammar.memberRound isFirst state = .ok found after) :
    (found = none ∧ state = after ∧ state.cursor.current.isPunctuation '}' = true) ∨
      ∃ member, found = some member ∧ state.cursor.current.isEnd = false ∧
        (state.spot.Settled ∨ state.scope.stringKeys = true →
          Passed grammar.toSetting member state.spot after) := by
  simp only [memberRound, run_atPunctuation, run_atEnd, run_ite] at ok
  split at ok
  case isTrue closes =>
      cases ok
      exact .inl ⟨rfl, rfl, closes⟩
  case isFalse inside =>
      split at ok
      case isTrue => exact absurd ok unexpected_ne_ok
      case isFalse notEnd =>
          obtain ⟨member, _, memberOk, ok⟩ := bind_eq_ok.mp ok
          cases ok
          refine .inr ⟨member, rfl, by simpa using notEnd, ?_⟩
          rintro ((clear | closes | atEnd) | keyed)
          · exact member_passed outlined (.inl clear) memberOk
          · exact absurd closes inside
          · exact absurd atEnd notEnd
          · exact member_passed outlined (.inr keyed) memberOk

omit outlined [grammar.deeper.KeepsScope] in
theorem outlineAll_members (found : List (Option Member)) :
    Member.outlineAll (found.filterMap id) =
      found.flatMap fun member => member.toList.flatMap fun member => [member.outline] := by
  induction found with
  | nil => rfl
  | cons member found induction =>
      cases member with
      | none => simpa using induction
      | some member => simpa [Member.outlineAll] using induction

theorem memberRounds_read {found : List (Option Member)}
    (ok : collect (grammar.memberRound false) state = .ok found after) :
    state.cursor.current.isEnd = false ∧
      (state.spot.Settled ∨ state.scope.stringKeys = true →
        AllParsed grammar.toSetting (Member.outlineAll (found.filterMap id))
          state.spot after.spot) := by
  apply collect_induction
    (motive := fun state found after => state.cursor.current.isEnd = false ∧
      (state.spot.Settled ∨ state.scope.stringKeys = true →
        AllParsed grammar.toSetting (Member.outlineAll (found.filterMap id))
          state.spot after.spot)) _ _ ok
  · intro state after stepped
    rcases memberRound_passed outlined stepped with ⟨-, rfl, closes⟩ | ⟨member, missing, -⟩
    · refine ⟨?_, fun _ => .refl _⟩
      simp only [Token.isPunctuation, decide_eq_true_eq] at closes
      simp [Token.isEnd, closes]
    · cases missing
  · rintro state member between more after stepped ⟨inside, rest⟩
    rcases memberRound_passed outlined stepped with ⟨missing, -⟩ | ⟨member, foundEq, notEnd, passed⟩
    · cases missing
    · cases foundEq
      refine ⟨notEnd, ?_⟩
      intro entry ready
      obtain ⟨read, next⟩ := passed entry ready
      rcases read.allRead with read | atEnd
      · rw [outlineAll_members, List.flatMap_cons, ← outlineAll_members]
        exact read.append (rest next (read.ready ready))
      · simp [inside] at atEnd

theorem members_parsed {members : List Member}
    (ok : grammar.members state = .ok members after) (clear : state.spot.Clear) :
    AllParsed grammar.toSetting (Member.outlineAll members) state.spot after.spot := by
  simp only [Grammar.members, bind_eq_ok] at ok
  obtain ⟨first, between, firstOk, ok⟩ := ok
  rcases memberRound_passed outlined firstOk with ⟨rfl, rfl, -⟩ | ⟨member, rfl, -, passed⟩
  · cases ok
    exact .refl _
  · simp only [bind_eq_ok] at ok
    obtain ⟨more, last, moreOk, ok⟩ := ok
    cases ok
    obtain ⟨inside, rest⟩ := memberRounds_read outlined moreOk
    intro ready
    obtain ⟨read, next⟩ := passed (.inl (.inl clear)) ready
    rcases read.allRead with read | atEnd
    · rw [outlineAll_members, List.flatMap_cons, ← outlineAll_members]
      exact read.append (rest next (read.ready ready))
    · simp [inside] at atEnd

end Rounds

end Grammar

end Qml
