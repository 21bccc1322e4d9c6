import Qml.Grammar.Nesting
import Qml.Proofs.Outline.Parsed

/-! # Outlines of expressions

What the productions for expressions yield, given what the productions one level
deeper do. -/

namespace Qml

open Outline Qml.Parser

structure Deeper.Outlined (setting : Setting) (deeper : Deeper) : Prop where
  statement : ∀ {state statement after}, deeper.statement state = .ok statement after →
    statement.outline.Ended setting state.spot after.spot
  assignment : ∀ {noIn state expr after}, deeper.assignment noIn state = .ok expr after →
    expr.outline.Parsed setting state.spot after.spot
  unary : ∀ {calls state expr after}, deeper.unary calls state = .ok expr after →
    expr.outline.Parsed setting state.spot after.spot
  atom : ∀ {calls state expr after}, deeper.atom calls state = .ok expr after →
    expr.outline.Parsed setting state.spot after.spot
  members : ∀ {state members after}, deeper.members state = .ok members after →
    state.spot.Clear → AllParsed setting (Member.outlineAll members) state.spot after.spot

/-! ## Repetition -/

section Loops

variable {α : Type} {setting : Setting} {outlines : α → List Outline} {state after : State}

theorem collect_allParsed {step : Parser (Option α)} {values : List α}
    (last : ∀ {state after}, step state = .ok none after →
      AllParsed setting [] state.spot after.spot)
    (round : ∀ {state value after}, step state = .ok (some value) after →
      AllParsed setting (outlines value) state.spot after.spot)
    (ok : collect step state = .ok values after) :
    AllParsed setting (values.flatMap outlines) state.spot after.spot := by
  apply collect_induction
    (motive := fun state values after =>
      AllParsed setting (values.flatMap outlines) state.spot after.spot) _ _ ok
  · intro state after stepped
    exact last stepped
  · intro state value between more after stepped rest
    exact (round stepped).append rest

theorem listItem_allParsed {closing : Char} {trailing : Bool} {item : Parser α}
    {value : Option α}
    (parses : ∀ {state value after}, item state = .ok value after →
      AllParsed setting (outlines value) state.spot after.spot)
    (ok : listItem closing trailing item state = .ok value after) :
    AllParsed setting (value.toList.flatMap outlines) state.spot after.spot ∧
      (value = none → after.cursor.current.isPunctuation closing = true) := by
  simp only [listItem, run_atPunctuation, run_ite] at ok
  split at ok
  case isTrue closes =>
      cases ok
      exact ⟨.refl _, fun _ => closes⟩
  case isFalse =>
      obtain ⟨_, _, comma, ok⟩ := bind_eq_ok.mp ok
      obtain ⟨isComma, rfl, rfl⟩ := expectPunctuation_eq_ok.mp comma
      have solid := Token.isSolid_of_isPunctuation isComma
      simp only [run_atPunctuation, run_ite] at ok
      split at ok
      case isTrue closes =>
          cases ok
          simp only [Bool.and_eq_true] at closes
          exact ⟨.token solid, fun _ => closes.2⟩
      case isFalse =>
          obtain ⟨found, _, itemOk, ok⟩ := bind_eq_ok.mp ok
          cases ok
          refine ⟨.after_token solid ?_, by simp⟩
          simpa using parses itemOk

theorem listUntil_parsed {closing : Char} {trailing : Bool} {item : Parser α}
    {values : List α}
    (parses : ∀ {state value after}, item state = .ok value after →
      AllParsed setting (outlines value) state.spot after.spot)
    (ok : listUntil closing trailing item state = .ok values after) :
    ∃ close : State, AllParsed setting (values.flatMap outlines) state.spot close.spot ∧
      close.cursor.current.isPunctuation closing = true ∧ close.advanced = after := by
  simp only [listUntil, run_atPunctuation, run_ite] at ok
  split at ok
  case isTrue closes =>
      cases ok
      exact ⟨state, .refl _, closes, rfl⟩
  case isFalse =>
      obtain ⟨first, middle, firstOk, ok⟩ := bind_eq_ok.mp ok
      obtain ⟨more, close, moreOk, ok⟩ := bind_eq_ok.mp ok
      cases ok
      obtain ⟨before, lastOk⟩ := collect_last moreOk
      have closes := (listItem_allParsed parses lastOk).2 rfl
      have rest : AllParsed setting (more.flatMap outlines) middle.spot close.spot := by
        apply collect_allParsed _ _ moreOk
        · intro state after stepped
          exact (listItem_allParsed parses stepped).1
        · intro state value after stepped
          simpa using (listItem_allParsed parses stepped).1
      exact ⟨close, (parses firstOk).append rest, closes, rfl⟩

theorem listUntil_allParsed {closing : Char} {trailing : Bool} {item : Parser α}
    {values : List α}
    (parses : ∀ {state value after}, item state = .ok value after →
      AllParsed setting (outlines value) state.spot after.spot)
    (ok : listUntil closing trailing item state = .ok values after) :
    AllParsed setting (values.flatMap outlines) state.spot after.spot := by
  obtain ⟨close, inside, closes, rfl⟩ := listUntil_parsed parses ok
  exact inside.then_token (Token.isSolid_of_isPunctuation closes)

end Loops

namespace Grammar

variable {grammar : Grammar} {state after : State}

/-! ## Statements in blocks, and functions -/

theorem skipPunctuation_parsed {setting : Setting} {mark : Char} {value : Unit}
    (ok : skipPunctuation mark state = .ok value after) :
    AllParsed setting [] state.spot after.spot := by
  rcases skipPunctuation_eq_ok.mp ok with ⟨isMark, rfl⟩ | ⟨-, rfl⟩
  · exact .token (Token.isSolid_of_isPunctuation isMark)
  · exact .refl _

theorem pragma_ended {statement : Statement} (ok : pragma state = .ok statement after)
    (isDot : state.cursor.current.isPunctuation '.' = true)
    (isWord : state.cursor.peek.isName "pragma" = true) {setting : Setting} :
    statement.outline.Ended setting state.spot after.spot := by
  simp only [pragma, run_advance, run_spanFrom, bind_eq_ok, expectWord_eq_ok] at ok
  obtain ⟨name, _, ⟨isName, rfl⟩, _, last, skipOk, ok⟩ := ok
  cases ok
  have dotSolid := Token.isSolid_of_isPunctuation isDot
  have wordSolid : state.advanced.cursor.current.isSolid = true := Token.isSolid_of_isName isWord
  have tokens : AllParsed setting [] state.spot.advanced after.spot := by
    apply AllParsed.after_token wordSolid
    apply AllParsed.after_token (Token.isSolid_of_word? isName)
    exact skipPunctuation_parsed skipOk
  exact ended_by_tokens (.refl _) dotSolid tokens

theorem pragmaOr_ended {setting : Setting} {otherwise : Parser Statement} {statement : Statement}
    (ends : otherwise state = .ok statement after →
      statement.outline.Ended setting state.spot after.spot)
    (ok : pragmaOr otherwise state = .ok statement after) :
    statement.outline.Ended setting state.spot after.spot := by
  simp only [pragmaOr, run_atPunctuation, run_peek, run_ite] at ok
  split at ok
  case isTrue isDot =>
      split at ok
      case isTrue isWord => exact pragma_ended ok isDot isWord
      case isFalse => exact absurd ok unexpected_ne_ok
  case isFalse => exact ends ok

variable (outlined : grammar.deeper.Outlined grammar.toSetting)

include outlined

theorem statement_ended {statement : Statement}
    (ok : grammar.statement state = .ok statement after) :
    statement.outline.Ended grammar.toSetting state.spot after.spot := by
  unfold Grammar.statement at ok
  generalize grammar.dialect = dialect at ok
  split at ok
  · exact outlined.statement ok
  · rw [run_takeAwaited] at ok
    have ended := pragmaOr_ended outlined.statement ok
    exact ended

theorem blockItem_parsed {item : Option Statement}
    (ok : grammar.blockItem state = .ok item after) :
    AllParsed grammar.toSetting (item.toList.flatMap fun statement => [statement.outline])
      state.spot after.spot ∧
      (item = none → after.cursor.current.isPunctuation '}' = true) := by
  simp only [blockItem, run_atPunctuation, run_atEnd, run_ite] at ok
  split at ok
  case isTrue closes =>
      cases ok
      exact ⟨.refl _, fun _ => closes⟩
  case isFalse =>
      split at ok
      case isTrue => exact absurd ok unexpected_ne_ok
      case isFalse =>
          obtain ⟨statement, _, statementOk, ok⟩ := bind_eq_ok.mp ok
          cases ok
          exact ⟨(statement_ended outlined statementOk).1.alone, by simp⟩

theorem block_parsed {statements : List Statement}
    (ok : grammar.block state = .ok statements after) :
    state.cursor.current.isSolid = true ∧
      AllParsed grammar.toSetting (Statement.outlineAll statements) state.spot.advanced after.spot ∧
      (state.spot.Ready grammar.source → after.spot.Clear) := by
  simp only [block, run_advance, bind_eq_ok, expectPunctuation_eq_ok] at ok
  obtain ⟨_, _, ⟨opens, rfl, rfl⟩, statements, between, itemsOk, ok⟩ := ok
  cases ok
  obtain ⟨before, lastOk⟩ := collect_last itemsOk
  have closes := (blockItem_parsed outlined lastOk).2 rfl
  have openSolid := Token.isSolid_of_isPunctuation opens
  have closeSolid := Token.isSolid_of_isPunctuation closes
  have inside : AllParsed grammar.toSetting (Statement.outlineAll statements) state.spot.advanced
      between.spot := by
    rw [Statement.outlineAll_eq]
    apply collect_allParsed _ _ itemsOk
    · intro state after stepped
      exact (blockItem_parsed outlined stepped).1
    · intro state value after stepped
      simpa using (blockItem_parsed outlined stepped).1
  refine ⟨openSolid, inside.then_token closeSolid, ?_⟩
  intro ready
  have openReady := ready.reach (.one openSolid)
  exact ((inside openReady).ready openReady).clear_of_reach (.one closeSolid) (by simp)

omit outlined in
theorem functionName_parsed {setting : Setting} {required : Bool} {name : Option String}
    (ok : functionName required state = .ok name after) :
    AllParsed setting [] state.spot after.spot := by
  simp only [functionName, run_token] at ok
  generalize nameEq : state.cursor.current.kind.name? = found at ok
  cases found with
  | some name =>
      cases ok
      exact .token (Token.isSolid_of_name? nameEq)
  | none =>
      cases required with
      | true => exact absurd ok expected_ne_ok
      | false =>
          cases ok
          exact .refl _

omit outlined in
theorem parameters_parsed {setting : Setting} {closing : Char} {names : List String}
    (ok : listUntil closing false expectName state = .ok names after) :
    AllParsed setting [] state.spot after.spot := by
  have parsed : AllParsed setting (names.flatMap fun _ => []) state.spot after.spot := by
    apply listUntil_allParsed _ ok
    intro state name after nameOk
    obtain ⟨isName, rfl⟩ := expectName_eq_ok.mp nameOk
    exact .token (Token.isSolid_of_name? isName)
  rwa [List.flatMap_eq_nil_iff.mpr (by simp)] at parsed

theorem function_parsed {named : Bool} (first : Spot) {function : Function}
    (solid : first.cursor.current.isSolid = true)
    (lead : AllParsed grammar.toSetting [] first.advanced state.spot)
    (ok : grammar.function named first.cursor.current.span state = .ok function after) :
    function.outline.Parsed grammar.toSetting first after.spot ∧
      (first.Ready grammar.source → after.spot.Clear) := by
  simp only [Grammar.function, run_spanFrom, bind_eq_ok, expectPunctuation_eq_ok,
    inScope_eq_ok] at ok
  obtain ⟨name, middle, nameOk, _, _, ⟨opens, rfl, rfl⟩, names, inside, namesOk, body, _,
    ⟨last, bodyOk, rfl⟩, ok⟩ := ok
  cases ok
  have head : AllParsed grammar.toSetting [] first.advanced inside.spot :=
    lead.append ((functionName_parsed nameOk).append
      ((parameters_parsed namesOk).after_token (Token.isSolid_of_isPunctuation opens)))
  obtain ⟨bodySolid, bodyParsed, closed⟩ := block_parsed outlined bodyOk
  refine ⟨Parsed.node_after_token solid (head.append (bodyParsed.after_token bodySolid)), ?_⟩
  intro ready
  have wordReady := ready.reach (.one solid)
  exact closed ((head wordReady).ready wordReady)

/-! ## Sequences -/

theorem memberBlock_parsed {members : List Member}
    (ok : grammar.memberBlock state = .ok members after) :
    (node .other (state.spot.spanTo after.spot) none (Member.outlineAll members)).Parsed
      grammar.toSetting state.spot after.spot ∧
      (state.spot.Ready grammar.source → after.spot.Clear) := by
  simp only [memberBlock, bind_eq_ok, expectPunctuation_eq_ok] at ok
  obtain ⟨_, _, ⟨opens, rfl, rfl⟩, members, between, membersOk, _, _, ⟨closes, rfl, rfl⟩, ok⟩ := ok
  cases ok
  have openSolid := Token.isSolid_of_isPunctuation opens
  have closeSolid : between.spot.cursor.current.isSolid = true :=
    Token.isSolid_of_isPunctuation closes
  have inside (ready : state.spot.Ready grammar.source) :
      AllRead grammar.toSetting (Member.outlineAll members) state.spot.advanced between.spot := by
    have clear : state.spot.advanced.Clear := ready.clear_of_reach (.one openSolid) (by simp)
    exact outlined.members membersOk clear (ready.reach (.one openSolid))
  constructor
  · intro ready
    exact read_after_token openSolid ((inside ready).then_reach (.one closeSolid))
  · intro ready
    have openReady := ready.reach (.one openSolid)
    exact ((inside ready).ready openReady).clear_of_reach (.one closeSolid) (by simp)

omit outlined in
theorem exists_reach_of_segments? {setting : Setting} {expr : Expr} {segments : List String}
    (segmentsEq : expr.segments? = some segments) {first last : Spot}
    (read : expr.outline.Read setting first last) : ∃ used, first.Reach used last := by
  induction expr using Expr.segments?.induct generalizing segments first last with
  | case1 name span =>
      obtain ⟨inner, ⟨used, reach⟩, rfl, -⟩ := read
      exact ⟨used, reach.1, by simpa [NodeForm.patches, ExprKind.form] using reach.2⟩
  | case2 object property span induction =>
      obtain ⟨inner, ⟨used, start, stop, reach, head, rest, tail⟩, rfl, -⟩ := read
      obtain ⟨name, nameEq, -⟩ := Option.map_eq_some_iff.mp segmentsEq
      obtain ⟨middle, between⟩ := induction nameEq head
      have whole := (reach.trans between).trans tail
      exact ⟨_, whole.1, by simpa [NodeForm.patches, ExprKind.form] using whole.2⟩
  | case3 expr notName notDot => simp_all [Expr.segments?]

theorem elementOr_parsed {first : Spot} {expr found : Expr}
    (parsed : expr.outline.Parsed grammar.toSetting first state.spot)
    (ok : grammar.elementOr first.cursor.current.span expr state = .ok found after) :
    found.outline.Parsed grammar.toSetting first after.spot := by
  simp only [elementOr, run_atPunctuation] at ok
  generalize state.cursor.current.isPunctuation '{' = opens at ok
  generalize nameEq : expr.qualifiedName? = name at ok
  split at ok
  · simp only [run_spanFrom, bind_eq_ok] at ok
    obtain ⟨members, last, membersOk, ok⟩ := ok
    cases ok
    intro ready
    have read := parsed ready
    obtain ⟨segments, segmentsEq, -⟩ := Option.map_eq_some_iff.mp nameEq
    obtain ⟨used, reach⟩ := exists_reach_of_segments? segmentsEq read
    have inside := ((memberBlock_parsed outlined membersOk).1 (ready.reach reach)).children
    obtain ⟨more, reads⟩ := inside.reads
    have moves := read.moves.append_right reads
    have element := read_node (inside.after_reach reach) moves
    exact read_node element.alone moves
  · cases ok
    exact parsed

theorem sequenceItem_parsed {noIn : Bool} {expr : Expr}
    (ok : grammar.sequenceItem noIn state = .ok expr after) :
    expr.outline.Parsed grammar.toSetting state.spot after.spot := by
  simp only [sequenceItem, run_token, bind_eq_ok] at ok
  obtain ⟨inner, between, innerOk, ok⟩ := ok
  have parsed := outlined.assignment innerOk
  generalize grammar.dialect = dialect at ok
  cases dialect with
  | script =>
      cases ok
      exact parsed
  | declarative helper component =>
      exact elementOr_parsed outlined parsed ok

omit outlined in
/-- What a later sequence is made of was read where the sequence was. -/
theorem allRead_items {setting : Setting} {rest : Expr} {first last : Spot}
    (read : rest.outline.Read setting first last) :
    AllRead setting (Expr.outlineAll (match rest.kind with
      | .sequence more => more
      | _ => [rest])) first last := by
  obtain ⟨kind, span⟩ := rest
  split
  case h_1 items kindEq =>
      simp only at kindEq
      subst kindEq
      obtain ⟨inner, all, rfl, -⟩ := read
      simpa [NodeForm.patches, ExprKind.form, ExprKind.outlines] using all
  case h_2 => exact read.alone

omit outlined in
theorem joinSequence_parsed {setting : Setting} {first rest : Expr} {one middle start last : Spot}
    (parsed : first.outline.Parsed setting one middle)
    (between : AllParsed setting [] middle start)
    (more : rest.outline.Parsed setting start last) :
    (joinSequence first rest).outline.Parsed setting one last := by
  intro ready
  have middleReady := (parsed ready).ready ready
  have startReady := (between middleReady).ready middleReady
  have whole := (parsed ready).cons ((between middleReady).append (allRead_items (more startReady)))
  have spanEq : first.span.through rest.span = one.spanTo last := by
    rw [← first.outline_span, ← rest.outline_span, (parsed ready).span_eq,
      (more startReady).span_eq]
    rfl
  have read := read_node whole whole.moves
  rw [← spanEq] at read
  exact read

theorem sequenceStep_eq_ok {noIn : Bool} {found : Option Expr}
    (ok : grammar.sequenceStep noIn state = .ok found after) :
    (found = none ∧ state = after) ∨
      ∃ expr, found = some expr ∧ state.cursor.current.isPunctuation ',' = true ∧
        expr.outline.Parsed grammar.toSetting state.spot.advanced after.spot := by
  simp only [sequenceStep, run_atPunctuation, run_ite] at ok
  split at ok
  case isTrue isComma =>
      simp only [run_advance, bind_eq_ok] at ok
      obtain ⟨expr, _, exprOk, ok⟩ := ok
      cases ok
      exact .inr ⟨expr, rfl, isComma, sequenceItem_parsed outlined exprOk⟩
  case isFalse =>
      cases ok
      exact .inl ⟨rfl, rfl⟩

theorem sequenceTail_parsed {commas noIn : Bool} {first found : Expr} {one : Spot}
    (parsed : first.outline.Parsed grammar.toSetting one state.spot)
    (ok : grammar.sequenceTail commas noIn first state = .ok found after) :
    found.outline.Parsed grammar.toSetting one after.spot := by
  cases commas with
  | false =>
      cases ok
      exact parsed
  | true =>
      simp only [sequenceTail, if_true, bind_eq_ok] at ok
      obtain ⟨more, _, moreOk, ok⟩ := ok
      cases ok
      -- The sequence of a first expression and those that follow, wherever the
      -- first one began.
      apply collect_induction
        (motive := fun state more after => ∀ {first one},
          first.outline.Parsed grammar.toSetting one state.spot →
          (sequenceOf first more).outline.Parsed grammar.toSetting one after.spot)
        _ _ moreOk parsed
      · intro state after stepped first one parsed
        rcases sequenceStep_eq_ok outlined stepped with ⟨-, rfl⟩ | ⟨expr, missing, -⟩
        · exact parsed
        · cases missing
      · intro state second between more after stepped induction first one parsed
        rcases sequenceStep_eq_ok outlined stepped with ⟨missing, -⟩ | ⟨expr, secondEq, comma, read⟩
        · cases missing
        · cases secondEq
          exact joinSequence_parsed parsed (.token (Token.isSolid_of_isPunctuation comma))
            (induction read)

theorem expression_parsed {commas noIn : Bool} {expr : Expr}
    (ok : grammar.expression commas noIn state = .ok expr after) :
    expr.outline.Parsed grammar.toSetting state.spot after.spot := by
  simp only [expression, bind_eq_ok] at ok
  obtain ⟨first, between, firstOk, ok⟩ := ok
  exact sequenceTail_parsed outlined (sequenceItem_parsed outlined firstOk) ok

theorem parenthesized_parsed {expr : Expr}
    (ok : grammar.parenthesized state = .ok expr after) :
    AllParsed grammar.toSetting [expr.outline] state.spot after.spot := by
  simp only [parenthesized, bind_eq_ok, expectPunctuation_eq_ok] at ok
  obtain ⟨_, _, ⟨opens, rfl, rfl⟩, expr, between, exprOk, _, _, ⟨closes, rfl, rfl⟩, ok⟩ := ok
  cases ok
  have solid := Token.isSolid_of_isPunctuation closes
  have inside := (expression_parsed outlined exprOk).alone.then_token solid
  exact inside.after_token (Token.isSolid_of_isPunctuation opens)

/-! ## Lists, arrays and objects -/

theorem listedExpression_parsed {holes : Bool} {item : Option Expr}
    (ok : grammar.listedExpression holes state = .ok item after) :
    AllParsed grammar.toSetting (Expr.outlineOption item) state.spot after.spot := by
  simp only [listedExpression, run_atPunctuation, run_ite] at ok
  split at ok
  case isTrue =>
      cases ok
      exact .refl _
  case isFalse =>
      obtain ⟨expr, _, exprOk, ok⟩ := bind_eq_ok.mp ok
      cases ok
      exact (expression_parsed outlined exprOk).alone

omit outlined in
theorem outlineAll_filterMap (items : List (Option Expr)) :
    Expr.outlineAll (items.filterMap id) = items.flatMap Expr.outlineOption := by
  induction items with
  | nil => rfl
  | cons item items induction =>
      cases item with
      | none => simpa [Expr.outlineOption] using induction
      | some expr => simpa [Expr.outlineOption, Expr.outlineAll] using induction

theorem arguments_parsed {arguments : List Expr}
    (ok : grammar.arguments state = .ok arguments after) :
    AllParsed grammar.toSetting (Expr.outlineAll arguments) state.spot after.spot := by
  simp only [Grammar.arguments, bind_eq_ok] at ok
  obtain ⟨items, _, itemsOk, ok⟩ := ok
  cases ok
  rw [outlineAll_filterMap]
  apply listUntil_allParsed _ itemsOk
  intro state item after itemOk
  exact listedExpression_parsed outlined itemOk

theorem array_parsed {expr : Expr}
    (opens : state.cursor.current.isPunctuation '[' = true)
    (ok : grammar.array state.cursor.current.span state.advanced = .ok expr after) :
    expr.outline.Parsed grammar.toSetting state.spot after.spot := by
  simp only [array, scriptArray, run_spanFrom, bind_eq_ok, run_pure] at ok
  obtain ⟨_, _, ⟨elements, last, elementsOk, plainEq⟩, ok⟩ := ok
  cases plainEq
  obtain ⟨close, parsed, closes, rfl⟩ := listUntil_parsed
    (fun itemOk => listedExpression_parsed outlined itemOk) elementsOk
  rw [← Expr.outlineHoles_eq, State.advanced_spot] at parsed
  have openSolid := Token.isSolid_of_isPunctuation opens
  have closeSolid : close.spot.cursor.current.isSolid = true :=
    Token.isSolid_of_isPunctuation closes
  intro ready
  have openReady := ready.reach (.one openSolid)
  have inside := parsed openReady
  have all := (inside.after_reach (.one openSolid)).then_reach (.one closeSolid)
  obtain ⟨used, reads⟩ := inside.reads
  have path : state.cursor.Reads (state.cursor.current :: (used ++ [close.cursor.current]))
      close.cursor.advance := .step openSolid (reads.append (.one closeSolid))
  generalize dialectEq : grammar.dialect = dialect at ok
  cases dialect with
  | script =>
      cases ok
      exact ⟨_, all, by simp [NodeForm.patches, ExprKind.form], ⟨_, by simp, path⟩, rfl, dialectEq⟩
  | declarative helper component =>
      simp only [run_offset, run_effectiveText] at ok
      cases ok
      refine ⟨_, all, by simp [NodeForm.patches, ExprKind.form], ⟨_, by simp, path⟩, rfl, ?_⟩
      refine ⟨by simp [dialectEq], ⟨⟨[], state.cursor.current, used, close.cursor.current, [],
        path, by simp, opens, closes, by simp, ?_, rfl⟩⟩⟩
      intro child member
      have lower := inside.le_child_start openReady.on member
      have upper := inside.child_stop_le openReady.on member
      have closeReady := inside.ready openReady
      exact ⟨Nat.le_trans openReady.on.previousEnd_le_offset lower,
        Nat.le_trans upper closeReady.on.previousEnd_le_offset⟩

omit outlined in
theorem propertyName_parsed {key : String}
    (ok : propertyName state = .ok key after) :
    state.cursor.current.isSolid = true ∧ after.spot = state.spot.advanced := by
  simp only [propertyName, run_token] at ok
  generalize kindEq : state.cursor.current.kind = kind at ok
  split at ok
  · cases ok
    exact ⟨Token.isSolid_of_kind kindEq (by simp) (by simp), rfl⟩
  · cases ok
    exact ⟨Token.isSolid_of_kind kindEq (by simp) (by simp), rfl⟩
  · obtain ⟨isWord, rfl⟩ := expectWord_eq_ok.mp ok
    exact ⟨Token.isSolid_of_word? isWord, rfl⟩

theorem objectEntry_parsed {entry : ObjectEntry}
    (ok : grammar.objectEntry state = .ok entry after) :
    AllParsed grammar.toSetting [entry.outline] state.spot after.spot := by
  simp only [objectEntry, run_token, run_atPunctuation, bind_eq_ok] at ok
  obtain ⟨key, between, keyOk, ok⟩ := ok
  obtain ⟨solid, betweenEq⟩ := propertyName_parsed keyOk
  generalize between.cursor.current.isPunctuation ':' = isColon at ok
  generalize accessorKind? state.cursor.current = accessor at ok
  split at ok
  · simp only [run_spanFrom, bind_eq_ok] at ok
    obtain ⟨name, middle, nameOk, function, last, functionOk, ok⟩ := ok
    cases ok
    obtain ⟨nameSolid, middleEq⟩ := propertyName_parsed nameOk
    have lead : AllParsed grammar.toSetting [] state.spot.advanced middle.spot := by
      rw [middleEq, ← betweenEq]
      exact .token nameSolid
    exact (Parsed.node (function_parsed outlined state.spot solid lead functionOk).1.alone).alone
  · simp only [bind_eq_ok, expectPunctuation_eq_ok] at ok
    obtain ⟨_, _, ⟨colon, rfl, rfl⟩, value, last, valueOk, ok⟩ := ok
    cases ok
    have parsed := (expression_parsed outlined valueOk).alone
    apply AllParsed.after_token solid
    rw [← betweenEq]
    exact parsed.after_token (Token.isSolid_of_isPunctuation colon)

theorem object_parsed {expr : Expr}
    (solid : state.cursor.current.isSolid = true)
    (ok : grammar.object state.cursor.current.span state.advanced = .ok expr after) :
    expr.outline.Parsed grammar.toSetting state.spot after.spot := by
  simp only [object, run_spanFrom, bind_eq_ok] at ok
  obtain ⟨entries, _, entriesOk, ok⟩ := ok
  cases ok
  have parsed := listUntil_allParsed (fun entryOk => objectEntry_parsed outlined entryOk) entriesOk
  rw [← ObjectEntry.outlineAll_eq] at parsed
  exact Parsed.node_after_token solid parsed

/-! ## Atoms and what follows them -/

theorem subscript_parsed {calls : Bool} {expr : Expr} {found : Option Expr} {first : Spot}
    (parsed : expr.outline.Parsed grammar.toSetting first state.spot)
    (ok : grammar.subscript calls expr state = .ok found after) :
    (found.getD expr).outline.Parsed grammar.toSetting first after.spot := by
  simp only [subscript, run_atPunctuation, run_ite] at ok
  split at ok
  case isTrue isDot =>
      simp only [run_advance, run_spanFrom, bind_eq_ok, expectWord_eq_ok] at ok
      obtain ⟨property, _, ⟨isWord, rfl⟩, ok⟩ := ok
      cases ok
      have tail : AllParsed grammar.toSetting [] state.spot state.spot.advanced.advanced :=
        (AllParsed.token (Token.isSolid_of_word? isWord)).after_token
          (Token.isSolid_of_isPunctuation isDot)
      have whole := parsed.extend tail
      rwa [Expr.outline_span] at whole
  case isFalse =>
      split at ok
      case isTrue opens =>
          simp only [run_advance, run_spanFrom, bind_eq_ok, expectPunctuation_eq_ok] at ok
          obtain ⟨index, between, indexOk, _, _, ⟨closes, rfl, rfl⟩, ok⟩ := ok
          cases ok
          have solid := Token.isSolid_of_isPunctuation closes
          have inside := (expression_parsed outlined indexOk).alone.then_token solid
          have whole := parsed.extend (inside.after_token (Token.isSolid_of_isPunctuation opens))
          rwa [Expr.outline_span] at whole
      case isFalse =>
          split at ok
          case isTrue opens =>
              simp only [run_advance, run_spanFrom, bind_eq_ok] at ok
              obtain ⟨arguments, between, argumentsOk, ok⟩ := ok
              cases ok
              simp only [Bool.and_eq_true] at opens
              have inside := arguments_parsed outlined argumentsOk
              have whole := parsed.extend
                (inside.after_token (Token.isSolid_of_isPunctuation opens.2))
              rwa [Expr.outline_span] at whole
          case isFalse =>
              cases ok
              exact parsed

theorem subscripts_parsed {calls : Bool} {expr found : Expr} {first : Spot}
    (parsed : expr.outline.Parsed grammar.toSetting first state.spot)
    (ok : grammar.subscripts calls expr state = .ok found after) :
    found.outline.Parsed grammar.toSetting first after.spot := by
  obtain ⟨before, kept, lastOk⟩ := iterate_invariant
    (motive := fun expr state => expr.outline.Parsed grammar.toSetting first state.spot)
    (fun kept stepped => subscript_parsed outlined kept stepped) ok parsed
  exact subscript_parsed outlined kept lastOk

theorem construction_parsed {expr : Expr}
    (solid : state.cursor.current.isSolid = true)
    (ok : grammar.construction state.cursor.current.span state.advanced = .ok expr after) :
    expr.outline.Parsed grammar.toSetting state.spot after.spot := by
  simp only [construction, run_atPunctuation, run_ite, bind_eq_ok] at ok
  obtain ⟨callee, middle, calleeOk, ok⟩ := ok
  have parsed := outlined.atom calleeOk
  split at ok
  case isTrue opens =>
      simp only [run_advance, run_spanFrom, bind_eq_ok] at ok
      obtain ⟨arguments, last, argumentsOk, ok⟩ := ok
      cases ok
      have inside := arguments_parsed outlined argumentsOk
      exact Parsed.node_after_token solid
        (parsed.cons (inside.after_token (Token.isSolid_of_isPunctuation opens)))
  case isFalse =>
      cases ok
      exact Parsed.node_after_token solid parsed.alone

omit outlined in
theorem source_eq_none {kind : ExprKind} (plain : kind.form ≠ .array) : kind.source = none := by
  cases kind <;> first | rfl | exact absurd rfl plain

omit outlined in
/-- More parentheses leave the source of an array as it is. -/
theorem nonempty_arraySource_parenthesized {setting : Setting} {first last : Spot}
    {children : List Outline} {source : String}
    (found : ArraySource setting first.advanced last children source)
    (opens : first.cursor.current.isPunctuation '(' = true)
    (closes : last.cursor.current.isPunctuation ')' = true) :
    Nonempty (ArraySource setting first last.advanced children source) := by
  refine ⟨first.cursor.current :: found.opens, found.opening, found.inside, found.closing,
    found.closes ++ [last.cursor.current], ?_, ?_, found.opening_eq, found.closing_eq, ?_,
    found.children_inside, ?_⟩
  · have path := Cursor.Reads.step (Token.isSolid_of_isPunctuation opens)
      (found.reads.append (.one (Token.isSolid_of_isPunctuation closes)))
    simpa [Spot.advanced] using path
  · simpa [opens] using found.opens_eq
  · simpa [or_imp, forall_and] using ⟨found.closes_eq, closes⟩
  · refine found.source_eq.trans ?_
    cases found.closes <;> rfl

omit outlined in
theorem parsed_parenthesized {setting : Setting} {inner : Expr} {first last : Spot}
    (opens : first.cursor.current.isPunctuation '(' = true)
    (parsed : inner.outline.Parsed setting first.advanced last)
    (closes : last.cursor.current.isPunctuation ')' = true) :
    (Expr.outline ⟨inner.kind, first.spanTo last.advanced⟩).Parsed setting first last.advanced := by
  have openSolid := Token.isSolid_of_isPunctuation opens
  have closeSolid := Token.isSolid_of_isPunctuation closes
  intro ready
  have read := parsed (ready.reach (.one openSolid))
  rw [Expr.outline_eq] at read
  obtain ⟨middle, all, lastEq, moves, -, fits⟩ := read
  have innerSolid : middle.cursor.current.isSolid = true := by
    rw [lastEq] at closeSolid
    exact closeSolid
  have whole := (all.after_reach (.one openSolid)).then_reach (.one innerSolid)
  refine ⟨_, whole, by rw [lastEq]; rfl,
    (moves.append_left (.one openSolid)).append_right (.one closeSolid), rfl, ?_⟩
  cases formEq : inner.kind.form with
  | instanceTest =>
      rw [source_eq_none (by simp [formEq])]
      trivial
  | other =>
      rw [source_eq_none (by simp [formEq])]
      trivial
  | array =>
      rw [formEq] at fits
      cases sourceEq : inner.kind.source with
      | none =>
          rw [sourceEq] at fits
          exact fits
      | some source =>
          rw [sourceEq] at fits
          obtain ⟨declarative, ⟨found⟩⟩ := fits
          exact ⟨declarative, nonempty_arraySource_parenthesized found opens closes⟩

theorem parenthesizedAtom_parsed {expr : Expr}
    (opens : state.cursor.current.isPunctuation '(' = true)
    (ok : grammar.parenthesizedAtom state.cursor.current.span state.advanced = .ok expr after) :
    expr.outline.Parsed grammar.toSetting state.spot after.spot := by
  simp only [parenthesizedAtom, run_spanFrom, bind_eq_ok, expectPunctuation_eq_ok] at ok
  obtain ⟨inner, last, innerOk, _, _, ⟨closes, rfl, rfl⟩, ok⟩ := ok
  cases ok
  have parsed : inner.outline.Parsed grammar.toSetting state.spot.advanced last.spot :=
    expression_parsed outlined innerOk
  have closing : last.spot.cursor.current.isPunctuation ')' = true := closes
  exact parsed_parenthesized opens parsed closing

theorem functionAtom_parsed {expr : Expr}
    (solid : state.cursor.current.isSolid = true)
    (ok : grammar.functionAtom state.cursor.current.span state.advanced = .ok expr after) :
    expr.outline.Parsed grammar.toSetting state.spot after.spot ∧
      (state.spot.Ready grammar.source → after.spot.Clear) := by
  simp only [functionAtom, run_spanFrom, bind_eq_ok] at ok
  obtain ⟨function, last, functionOk, ok⟩ := ok
  cases ok
  obtain ⟨parsed, closed⟩ := function_parsed outlined state.spot solid (.refl _) functionOk
  exact ⟨Parsed.node parsed.alone, closed⟩

omit outlined in
theorem simpleAtom?_form {kind : TokenKind} {atom : ExprKind}
    (atomEq : simpleAtom? kind = some atom) :
    atom.form = .other ∧ atom.source = none ∧ atom.outlines = [] := by
  cases kind <;> cases atomEq <;> exact ⟨rfl, rfl, rfl⟩

omit outlined in
theorem isSolid_of_simpleAtom? {token : Token} {atom : ExprKind}
    (atomEq : simpleAtom? token.kind = some atom) : token.isSolid = true := by
  cases kindEq : token.kind <;> rw [kindEq] at atomEq <;> cases atomEq <;>
    exact Token.isSolid_of_kind kindEq (by simp) (by simp)

theorem bareAtom_parsed {expr : Expr} (ok : grammar.bareAtom state = .ok expr after) :
    expr.outline.Parsed grammar.toSetting state.spot after.spot := by
  simp only [bareAtom, run_token] at ok
  generalize kindEq : state.cursor.current.kind = kind at ok
  split at ok
  · have solid := Token.isSolid_of_kind kindEq (by simp) (by simp)
    rw [run_advance] at ok
    exact construction_parsed outlined solid ok
  · rw [run_advance] at ok
    exact parenthesizedAtom_parsed outlined (decide_eq_true kindEq) ok
  · rw [run_advance] at ok
    exact array_parsed outlined (decide_eq_true kindEq) ok
  · have solid := Token.isSolid_of_kind kindEq (by simp) (by simp)
    rw [run_advance] at ok
    exact object_parsed outlined solid ok
  · have solid := Token.isSolid_of_kind kindEq (by simp) (by simp)
    rw [run_advance] at ok
    exact (functionAtom_parsed outlined solid ok).1
  · generalize atomEq : simpleAtom? _ = atom at ok
    cases atom with
    | none => exact absurd ok unexpected_ne_ok
    | some atom =>
        cases ok
        subst kindEq
        obtain ⟨formEq, sourceEq, outlinesEq⟩ := simpleAtom?_form atomEq
        have solid := isSolid_of_simpleAtom? atomEq
        rw [Expr.outline_eq]
        simp only [formEq, sourceEq, outlinesEq]
        exact Parsed.node_after_token solid (.refl _)

theorem atom_parsed {calls : Bool} {expr : Expr} (ok : grammar.atom calls state = .ok expr after) :
    expr.outline.Parsed grammar.toSetting state.spot after.spot := by
  simp only [Grammar.atom, bind_eq_ok] at ok
  obtain ⟨inner, between, innerOk, ok⟩ := ok
  exact subscripts_parsed outlined (bareAtom_parsed outlined innerOk) ok

/-! ## Operators -/

omit outlined in
theorem applyUnary_eq_ok {operator : Operator} {fixity : Fixity} {operand expr : Expr}
    {start : Span} (ok : applyUnary operator fixity operand start state = .ok expr after) :
    expr = ⟨.unary operator fixity operand, start.endingAt state.cursor.previousEnd⟩ ∧
      state = after := by
  simp only [applyUnary, run_ite] at ok
  split at ok
  case isTrue => exact absurd ok refuseAt_ne_ok
  case isFalse =>
      cases ok
      exact ⟨rfl, rfl⟩

omit outlined in
theorem stepAfter_parsed {setting : Setting} {expr : Expr} {found : Option Expr} {first : Spot}
    (parsed : expr.outline.Parsed setting first state.spot)
    (ok : stepAfter expr state = .ok found after) :
    (found.getD expr).outline.Parsed setting first after.spot := by
  simp only [stepAfter, run_token] at ok
  generalize kindEq : state.cursor.current.kind = kind at ok
  split at ok
  · rw [run_ite] at ok
    split at ok
    case isTrue =>
        simp only [run_advance, run_spanFrom, bind_eq_ok] at ok
        obtain ⟨stepped, last, steppedOk, ok⟩ := ok
        cases ok
        obtain ⟨rfl, rfl⟩ := applyUnary_eq_ok steppedOk
        have solid := Token.isSolid_of_kind kindEq (by simp) (by simp)
        have whole := parsed.extend (.token solid)
        rwa [Expr.outline_span] at whole
    case isFalse =>
        cases ok
        exact parsed
  · cases ok
    exact parsed

theorem stepped_parsed {calls : Bool} {expr : Expr}
    (ok : grammar.stepped calls state = .ok expr after) :
    expr.outline.Parsed grammar.toSetting state.spot after.spot := by
  simp only [stepped, bind_eq_ok] at ok
  obtain ⟨inner, between, innerOk, ok⟩ := ok
  obtain ⟨before, kept, lastOk⟩ := iterate_invariant
    (motive := fun expr after => expr.outline.Parsed grammar.toSetting state.spot after.spot)
    (fun kept stepped => stepAfter_parsed kept stepped) ok (atom_parsed outlined innerOk)
  exact stepAfter_parsed kept lastOk

theorem unary_parsed {calls : Bool} {expr : Expr}
    (ok : grammar.unary calls state = .ok expr after) :
    expr.outline.Parsed grammar.toSetting state.spot after.spot := by
  simp only [Grammar.unary, run_token] at ok
  generalize kindEq : state.cursor.current.kind = kind at ok
  split at ok
  · rw [run_ite] at ok
    split at ok
    case isTrue =>
        simp only [run_advance, bind_eq_ok] at ok
        obtain ⟨operand, between, operandOk, ok⟩ := ok
        obtain ⟨rfl, rfl⟩ := applyUnary_eq_ok ok
        have solid := Token.isSolid_of_kind kindEq (by simp) (by simp)
        exact Parsed.node_after_token solid (outlined.unary operandOk).alone
    case isFalse => exact stepped_parsed outlined ok
  · exact stepped_parsed outlined ok

omit outlined in
theorem applyBinary_eq_ok {operator : Operator} {left right expr : Expr}
    (ok : grammar.applyBinary operator left right state = .ok expr after) :
    expr = ⟨.binary operator left right, left.span.through right.span⟩ ∧
      after.spot = ⟨state.cursor, state.patches ++
        (ExprKind.binary operator left right).form.patches grammar.toSetting
          [left.outline, right.outline]⟩ := by
  simp only [applyBinary] at ok
  generalize dialectEq : grammar.dialect = dialect at ok
  split at ok
  case h_1 helper component =>
      cases ok
      simp [NodeForm.patches, ExprKind.form, dialectEq, State.spot]
  case h_2 plain =>
      cases ok
      refine ⟨rfl, ?_⟩
      cases operator <;> cases dialect <;>
        simp_all [NodeForm.patches, ExprKind.form, State.spot]

omit outlined in
theorem applyBinary_parsed {operator : Operator} {left right expr : Expr}
    {first middle start : Spot}
    (leftParsed : left.outline.Parsed grammar.toSetting first middle)
    (between : AllParsed grammar.toSetting [] middle start)
    (rightParsed : right.outline.Parsed grammar.toSetting start state.spot)
    (ok : grammar.applyBinary operator left right state = .ok expr after) :
    expr.outline.Parsed grammar.toSetting first after.spot := by
  obtain ⟨rfl, afterEq⟩ := applyBinary_eq_ok ok
  have plain : (ExprKind.binary operator left right).form ≠ .array := by
    cases operator <;> simp [ExprKind.form]
  have whole := Parsed.binary plain leftParsed between rightParsed
  rw [Expr.outline_span, Expr.outline_span] at whole
  rw [afterEq]
  exact whole

omit outlined in
theorem isSolid_of_binaryOperator? {noIn : Bool} {least precedence : Nat} {token : Token}
    {operator : Operator}
    (operatorEq : binaryOperator? noIn least token = some (operator, precedence)) :
    token.isSolid = true := by
  unfold binaryOperator? at operatorEq
  split at operatorEq
  case h_1 kindEq => exact Token.isSolid_of_kind kindEq (by simp) (by simp)
  case h_2 => cases operatorEq

/-- One more operator extends what was read before it, if its right operand is
extended in the same way. -/
theorem operatorRound_parsed {noIn : Bool} {least : Nat} {tighter : Nat → Expr → Parser Expr}
    (extended : ∀ {precedence operand expr first state after},
      operand.outline.Parsed grammar.toSetting first state.spot →
      tighter precedence operand state = .ok expr after →
      expr.outline.Parsed grammar.toSetting first after.spot)
    {left : Expr} {found : Option Expr} {first : Spot}
    (parsed : left.outline.Parsed grammar.toSetting first state.spot)
    (ok : grammar.operatorRound noIn least tighter left state = .ok found after) :
    (found.getD left).outline.Parsed grammar.toSetting first after.spot := by
  simp only [operatorRound, run_token] at ok
  generalize operatorEq : binaryOperator? noIn least state.cursor.current = next at ok
  split at ok
  · cases ok
    exact parsed
  · simp only [run_advance, bind_eq_ok] at ok
    obtain ⟨operand, between, operandOk, right, last, rightOk, whole, _, wholeOk, ok⟩ := ok
    cases ok
    have solid := isSolid_of_binaryOperator? operatorEq
    have rightParsed := extended (unary_parsed outlined operandOk) rightOk
    exact applyBinary_parsed parsed (.token solid) rightParsed wholeOk

theorem climb_parsed {noIn : Bool} {room least : Nat} {left expr : Expr} {first : Spot}
    (parsed : left.outline.Parsed grammar.toSetting first state.spot)
    (ok : grammar.climb noIn room least left state = .ok expr after) :
    expr.outline.Parsed grammar.toSetting first after.spot := by
  induction room generalizing least left expr first state after with
  | zero =>
      cases ok
      exact parsed
  | succ room induction =>
      simp only [climb] at ok
      obtain ⟨before, kept, lastOk⟩ := iterate_invariant
        (motive := fun left state => left.outline.Parsed grammar.toSetting first state.spot)
        (fun kept stepped => operatorRound_parsed outlined induction kept stepped) ok parsed
      exact operatorRound_parsed outlined induction kept lastOk

theorem operation_parsed {noIn : Bool} {expr : Expr}
    (ok : grammar.operation noIn state = .ok expr after) :
    expr.outline.Parsed grammar.toSetting state.spot after.spot := by
  simp only [operation, bind_eq_ok] at ok
  obtain ⟨left, between, leftOk, ok⟩ := ok
  exact climb_parsed outlined (unary_parsed outlined leftOk) ok

theorem conditional_parsed {noIn : Bool} {expr : Expr}
    (ok : grammar.conditional noIn state = .ok expr after) :
    expr.outline.Parsed grammar.toSetting state.spot after.spot := by
  simp only [Grammar.conditional, run_atOperator, run_ite, bind_eq_ok] at ok
  obtain ⟨test, between, testOk, ok⟩ := ok
  have testParsed := operation_parsed outlined testOk
  split at ok
  case isTrue isQuestion =>
      simp only [run_advance, bind_eq_ok, expectPunctuation_eq_ok] at ok
      obtain ⟨consequent, middle, consequentOk, _, _, ⟨isColon, rfl, rfl⟩, alternate, last,
        alternateOk, ok⟩ := ok
      cases ok
      have consequentParsed := (expression_parsed outlined consequentOk).alone.then_token
        (Token.isSolid_of_isPunctuation isColon)
      have whole := testParsed.through
        (consequentParsed.after_token (Token.isSolid_of_isOperator isQuestion))
        (expression_parsed outlined alternateOk)
      rwa [Expr.outline_span, Expr.outline_span] at whole
  case isFalse =>
      cases ok
      exact testParsed

theorem assignment_parsed {noIn : Bool} {expr : Expr}
    (ok : grammar.assignment noIn state = .ok expr after) :
    expr.outline.Parsed grammar.toSetting state.spot after.spot := by
  simp only [Grammar.assignment, run_token, bind_eq_ok] at ok
  obtain ⟨left, between, leftOk, ok⟩ := ok
  have leftParsed := conditional_parsed outlined leftOk
  generalize operatorEq : assignmentOperator? between.cursor.current = operator at ok
  split at ok
  · cases ok
    exact leftParsed
  · rw [run_ite] at ok
    split at ok
    case isTrue =>
        simp only [run_advance, bind_eq_ok] at ok
        obtain ⟨value, last, valueOk, ok⟩ := ok
        cases ok
        have solid : between.cursor.current.isSolid = true := by
          unfold assignmentOperator? at operatorEq
          split at operatorEq
          case h_1 kindEq => exact Token.isSolid_of_kind kindEq (by simp) (by simp)
          case h_2 => cases operatorEq
        have whole := leftParsed.through (.token solid) (outlined.assignment valueOk)
        rwa [Expr.outline_span, Expr.outline_span] at whole
    case isFalse => exact absurd ok refuseAt_ne_ok

end Grammar

end Qml
