import Qml.Proofs.Comparison.Edge
import Qml.Proofs.Entry
import Qml.Proofs.InstanceTest.Call
import Qml.Proofs.InstanceTest.Reductions

/-! # The replacement of a test

The text that a patch puts in the place of a test with `instanceof` is read as a
call of the helper. Its arguments are the left operand, up to labels, the text of
the right operand as a string, and the component. This holds in the context in
which the test was read, with two more levels of nesting: one for the call and
one for its arguments. -/

namespace Qml

open Qml.Parser

/-! ## The text of an operand -/

namespace Lexer.Passes

variable {lexer later : Lexer} {token : Token} {used : List Token}

theorem previousEnd_eq {cursor last : Cursor} (passes : lexer.Passes (token :: used) later)
    (reads : cursor.Reads (token :: used) last) : last.previousEnd = later.position.offset := by
  induction used generalizing lexer token cursor with
  | nil =>
      obtain ⟨first, done⟩ := passes.cons_inv
      obtain ⟨current, -, stays⟩ := reads.current_eq
      cases done
      cases stays
      obtain ⟨gap, body, tile, positionEq⟩ := lexer.next_tile
      rw [positionEq, Position.after_append, Position.offset_after]
      simp only [Cursor.advance]
      rw [current, first, tile.span_eq]
  | cons next used induction =>
      exact induction passes.cons_inv.2 reads.current_eq.2.2

end Lexer.Passes

/-- What is read from some place on, the lexer cuts from the text between the
first token and the last, also if it begins there. -/
theorem Cursor.Reads.exists_passes {text : List Char} {cursor later : Cursor} {first : Token}
    {used : List Token} (reads : cursor.Reads (first :: used) later) (on : cursor.On text)
    (other : first.kind.isDivision = false) :
    ∃ lexer behind : Lexer, lexer.Passes ({ first with afterLineBreak := false } :: used) behind ∧
      lexer.rest = Text.slice text cursor.offset later.previousEnd ++ behind.rest ∧
      lexer.regexpAllowed = true := by
  obtain ⟨current, solid, -⟩ := reads.current_eq
  obtain ⟨before, tokensEq⟩ := on.split
  rw [reads.remaining_eq on] at tokensEq
  obtain ⟨lexer, bound, lead, restEq⟩ := Lexer.Passes.of_takeToEnd
    (show (Lexer.ofText text).takeToEnd _ = _ from tokensEq) (by simp)
  obtain ⟨behind, -, passes, -⟩ := Lexer.Passes.of_takeToEnd restEq (by simp [Cursor.remaining])
  have stopEq := passes.previousEnd_eq reads
  have again := passes.fresh solid other
  obtain ⟨passed, textEq, positionEq⟩ := lead.exists_taken
  obtain ⟨taken, takenEq, behindEq⟩ := again.exists_taken
  obtain ⟨gap, gapEq, freshEq⟩ := lexer.exists_gap
  have freshOffset : lexer.fresh.position.offset = Text.byteLength (passed ++ gap) := by
    rw [freshEq, positionEq, ← Position.after_append, Position.offset_after]
    exact Nat.zero_add _
  have startEq : cursor.offset = lexer.fresh.position.offset := by
    rw [passes.cons_inv.1] at solid current
    have token := (Lexer.next_of_closed (Lexer.closed_of_solid solid)).1
    unfold Cursor.offset
    rw [current, token]
    rfl
  have wholeEq : text = (passed ++ gap) ++ (taken ++ behind.rest) := by
    rw [← takenEq, List.append_assoc, ← gapEq]
    exact textEq
  refine ⟨lexer.fresh, behind, again, ?_, rfl⟩
  have sliced := Text.slice_append (passed ++ gap) taken behind.rest
  rw [← wholeEq, ← freshOffset, ← startEq] at sliced
  rw [takenEq, stopEq, behindEq, Position.offset_after, ← startEq, sliced]

/-! ## The first token of an operand -/

def State.onSameLine (state : State) : State := state.enteredAfter false state.cursor.previousEnd

/-! ## Two texts with one operand -/

/-- A declarative text that goes on with a test, and another one that goes on with
a comma behind the same tokens. -/
def Comparison.argument (setting : Setting) (declarative : setting.dialect ≠ .script)
    (replacement : List Char) {test comma : Token} (isTest : test.kind = .operator .instanceOf)
    (isComma : comma.kind = .punctuation ',') (more rest : List Token) : Comparison where
  first := setting
  second := { setting with source := replacement }
  labels := .both .bare
  firstTail := test :: more
  secondTail := comma :: rest
  excused _ := True
  closed := False
  inside _ := True
  samePatches _ _ := True
  sameSkipped _ _ := True
  strict_of_strict strict := strict
  script_of_script := id
  arraySource_eq script := absurd script declarative
  excused_of_script _ _ _ := trivial
  excused_of_strict _ _ _ := trivial
  excused_of_tail _ _ := trivial
  secondTail_eq_nil := nofun
  secondTail_ne_nil _ := List.cons_ne_nil _ _
  looksLike same same' := by
    rw [← (List.cons.inj same).1, ← (List.cons.inj same').1]
    right
    simp [Token.LooksLike, Token.isName, Token.isPunctuation, Token.isString, isTest, isComma]
  samePatches_append _ _ _ := trivial
  source_eq _ _ _ _ _ _ _ _ _ _ _ _ := rfl
  arraySource_some_eq _ _ _ _ _ _ _ _ _ _ _ _ := rfl
  sameSkipped_append _ _ _ := trivial

namespace Comparison

open Qml.Grammar

variable {comparison : Comparison} (divides : comparison.Divides) {room limit : Nat}
  (rooms : comparison.Rooms room limit) {start other state : State} {left : Expr} {noIn : Bool}
  {least : Nat}

include divides rooms

/-- An operand in front of the test is also read in front of the comma, where all
of its operators are allowed. -/
theorem exists_operation
    (chain : (Grammar.within comparison.first room).Chain noIn least start left state)
    (allowed : Allowed noIn state) (edge : state.cursor.remaining = comparison.firstTail)
    (alike : comparison.Alike start other) :
    ∃ left' after, (Grammar.within comparison.second limit).operation false other =
        .ok left' after ∧ comparison.labels.Same left left' ∧
      after.cursor.remaining = comparison.secondTail := by
  have levels := edgeLevels_within divides rooms
  have onward : ∀ setting room, (Grammar.within setting room).deeper.Follows State.Onward :=
    Deeper.within_obeys
  have consumes : ∀ setting room, (Grammar.within setting room).deeper.Consumes :=
    Deeper.within_consumes
  obtain ⟨operand, between, operandOk, rounds⟩ := chain
  have free := rounds_of_allowed rounds allowed
  have here : ¬ comparison.Past state := by
    unfold Past State.ahead
    rw [← edge, Cursor.remaining]
    simp
  have still : ¬ comparison.Past between := not_past_of_onward free.ahead_le here
  obtain ⟨operand', between', operandOk', sameOperand, near⟩ :=
    (unary_toEdge divides levels true).exists_ok (.inl alike) operandOk still
  have toEdge : ∀ {value value'}, comparison.labels.Same value value' → comparison.ToEdge
      ((Grammar.within comparison.first room).operatorRound false 0
        ((Grammar.within comparison.first room).operators false) value)
      ((Grammar.within comparison.second limit).operatorRound false 0
        ((Grammar.within comparison.second limit).operators false) value') := fun same =>
    operatorRound_toEdge divides levels false 0 (operators_toEdge divides levels false) same
  obtain ⟨left', after, rounds', same, near'⟩ := exists_rounds toEdge free sameOperand near here
  have there : comparison.AtEdge state after := by
    refine near'.resolve_left fun alike => ?_
    obtain ⟨shared, -, ahead, -⟩ := alike.upcoming
    have lengths := congrArg List.length edge
    simp only [Cursor.remaining, ahead, List.length_cons, List.length_append] at lengths
    omega
  obtain ⟨comma, following, rest, tail, -⟩ := divides.second
  have ended : operatorRound (Grammar.within comparison.second limit) false 0
      ((Grammar.within comparison.second limit).operators false) left' after = .ok none after := by
    have ends := there.endsExpression divides
    exact operatorRound_eq_none.mpr ⟨ends.binaryOperator?_eq_none false 0, rfl⟩
  have inside : 0 < after.ahead := by
    have upcoming := (List.cons.inj (there.there.trans tail)).2
    simp [State.ahead, upcoming]
  refine ⟨left', after, bind_eq_ok.mpr ⟨operand', between', operandOk', ?_⟩, same, there.there⟩
  rw [operators_eq]
  exact iterate_of_rounds rounds' ended inside

end Comparison

/-! ## Tests -/

theorem Token.BeginsOperand.isDivision_eq_false {token : Token} (begins : token.BeginsOperand) :
    token.kind.isDivision = false := by
  cases kind : token.kind with
  | operator operator =>
      rcases begins.2.2 operator kind with unary | rfl
      · cases operator <;> first | rfl | cases unary
      · rfl
  | _ => rfl

namespace TestReduction

open Qml.Grammar

variable {setting : Setting} {limit : Nat} (test : TestReduction setting limit)

theorem round_inv : test.before.cursor.current.kind = .operator .instanceOf ∧
    ∃ earlier, test.after.patches =
      earlier ++ setting.testPatches test.left.span test.right.span := by
  obtain ⟨operator, precedence, operand, between, right, last, operator?, -, -, applied⟩ :=
    operatorRound_eq_some.mp test.round
  rw [run_applyBinary] at applied
  injection applied with exprEq afterEq
  injection exprEq with kindEq
  injection kindEq with operatorEq _ rightEq
  subst operatorEq rightEq
  refine ⟨of_decide_eq_true (binaryOperator?_eq_some.mp operator?).1, last.patches, ?_⟩
  rw [← afterEq]
  rfl

theorem scope_eq : test.after.scope = test.start.scope := by
  have keeps : (Grammar.within setting test.room).deeper.KeepsScope :=
    Deeper.within_keepsScope setting test.room
  obtain ⟨operand, between, operandOk, rounds⟩ := test.chain
  have before : test.before.scope = test.start.scope :=
    rounds.invariant (motive := fun _ state => state.scope = test.start.scope)
      (fun kept ok => (scope_of_ok ok).trans kept) (scope_of_ok operandOk)
  exact (scope_of_ok test.round).trans before

theorem exists_reads : ∃ used,
    test.start.cursor.Reads (test.start.cursor.current :: used) test.before.cursor ∧
      test.left.span.text setting.source = Text.slice setting.source test.start.cursor.offset
        test.before.cursor.previousEnd := by
  have read := test.chain.parsed (within_outlined setting test.room) test.ready
  obtain ⟨used, moved, reads⟩ := read.moves
  have spanEq := read.span_eq
  rw [Expr.outline_span] at spanEq
  cases used with
  | nil => exact absurd rfl moved
  | cons first used =>
      obtain ⟨rfl, -, -⟩ := reads.current_eq
      refine ⟨used, reads, ?_⟩
      rw [spanEq]
      rfl

variable {helper component : String}

theorem exists_tokens (helperName : IsName helper) (componentName : IsName component)
    (right : List Char) :
    ∃ used, test.start.cursor.Reads (test.start.cursor.current :: used) test.before.cursor ∧
      ∃ call : CallTokens helper (String.ofList right) component,
        tokens (instanceTest helper component (test.left.span.text setting.source) right) =
          call.all ∧
        Relabeling.bare.Same (test.start.onSameLine.cursor.current :: used) call.operand := by
  obtain ⟨used, reads, textEq⟩ := test.exists_reads
  obtain ⟨operand, between, operandOk, -⟩ := test.chain
  have other := (unary_firstToken operandOk).isDivision_eq_false
  obtain ⟨lexer, behind, passes, restEq, allowed⟩ := reads.exists_passes test.ready.on other
  have solid : ∀ token ∈ test.start.onSameLine.cursor.current :: used, token.isSolid = true := by
    intro token member
    rcases List.mem_cons.mp member with rfl | later
    · exact reads.current_eq.2.1
    · exact reads.isSolid_of_mem (List.mem_cons_of_mem _ later)
  rw [textEq]
  have call := tokens_instanceTest helperName componentName right passes solid restEq allowed
  exact ⟨used, reads, call⟩

theorem exists_argument (declarative : setting.dialect ≠ .script) (replacement : List Char)
    {used operand rest : List Token} {comma next : Token} {other : State}
    (reads : test.start.cursor.Reads (test.start.cursor.current :: used) test.before.cursor)
    (same : Relabeling.bare.Same (test.start.onSameLine.cursor.current :: used) operand)
    (there : other.cursor.remaining = operand ++ comma :: next :: rest)
    (isComma : comma.kind = .punctuation ',') (agrees : test.start.scope.Agrees other.scope) :
    ∃ left after,
      (Grammar.within { setting with source := replacement } limit).operation false other =
        .ok left after ∧ Relabeling.bare.Same test.left left ∧
      after.cursor.remaining = comma :: next :: rest := by
  have isTest := test.round_inv.1
  have on := reads.on test.ready.on
  obtain ⟨following, more, upcoming⟩ := List.exists_cons_of_ne_nil (on.upcoming_ne_nil
    (Token.isSolid_of_kind isTest (by simp) (by simp)))
  let comparison := Comparison.argument setting declarative replacement isTest isComma
    test.before.cursor.upcoming (next :: rest)
  have divides : comparison.Divides :=
    ⟨rfl, Comparison.not_crossing declarative,
      ⟨_, following, more, by rw [← upcoming]; rfl, .inl isTest⟩,
      ⟨comma, next, rest, rfl, .of_mark isComma (by decide)⟩, fun _ _ => ⟨trivial, rfl⟩⟩
  have chain : (Grammar.within setting test.room).Chain test.noIn test.least test.start.onSameLine
      test.left test.before := by
    obtain ⟨operand, between, operandOk, rounds⟩ := test.chain
    exact ⟨operand, between, Enters.ok operandOk false _, rounds⟩
  cases operand with
  | nil => cases same
  | cons first operand =>
      obtain ⟨sameFirst, sameUsed⟩ := List.cons.inj same.both.relabel_eq
      obtain ⟨current, upcoming'⟩ := List.cons.inj there
      have alike : comparison.Alike test.start.onSameLine other := by
        refine ⟨?_, ⟨used, operand, (List.cons.inj (reads.remaining_eq test.ready.on)).2, upcoming',
          sameUsed⟩, rfl, agrees, trivial, trivial, .of_declarative declarative rfl _⟩
        rw [current]
        exact sameFirst
      exact Comparison.exists_operation divides (.inr ⟨test.room_le, trivial⟩) chain
        (allowed_of_some test.round) rfl alike

theorem exists_call (declarative : setting.dialect = .declarative helper component)
    (helperName : IsName helper) (componentName : IsName component) {replacement : List Char}
    (replacementEq : replacement = instanceTest helper component
      (test.left.span.text setting.source) (test.right.span.text setting.source)) :
    ∃ callee left value reference span after,
      (Grammar.within { setting with source := replacement } (limit + 2)).expression false false
          { State.ofText replacement with scope := { test.after.scope with depth := 0 } } =
        .ok ⟨.call callee [left, value, reference], span⟩ after ∧
      after.cursor.current.isEnd = true ∧ callee.kind = .name helper ∧
      Relabeling.bare.Same test.left left ∧
      value.kind = .string (String.ofList (test.right.span.text setting.source)) ∧
      reference.kind = .name component := by
  obtain ⟨used, reads, call, tokensEq, same⟩ := test.exists_tokens helperName componentName
    (test.right.span.text setting.source)
  rw [← replacementEq] at tokensEq
  let state : State :=
    { State.ofText replacement with scope := { test.after.scope with depth := 0 } }
  have here : state.cursor.remaining = call.all :=
    (Cursor.remaining_ofText replacement).trans tokensEq
  have behindName : state.cursor.advance.remaining = _ := Cursor.remaining_advance here
  let inner : State :=
    { state with
      cursor := state.cursor.advance.advance
      scope := Scope.deeper.enter (Scope.deeper.enter state.scope) }
  have there : inner.cursor.remaining = call.operand ++ call.rest := by
    cases operandEq : call.operand with
    | nil =>
        rw [operandEq] at same
        cases same
    | cons first more =>
        rw [operandEq] at behindName
        exact Cursor.remaining_advance behindName
  have agrees : test.start.scope.Agrees inner.scope := by
    rw [← test.scope_eq]
    exact ⟨rfl, rfl, rfl, rfl⟩
  obtain ⟨left, after, leftOk, sameLeft, behind⟩ := test.exists_argument
    (by rw [declarative]; nofun) replacement reads same there call.comma_kind agrees
  obtain ⟨span, last, whole, atLast⟩ := call.exists_expression here leftOk behind
  exact ⟨_, left, _, _, span, last, whole, by simp [atLast, Token.isEnd, call.last_kind], rfl,
    sameLeft, rfl, rfl⟩

end TestReduction

/-- The patch that a test leaves in a text under some options. -/
def TestReduction.patch {options : Options} {text : List Char}
    (test : TestReduction (options.grammar text).toSetting options.limit) : Patch :=
  Grammar.instancePatch text options.helper options.component test.left.span test.right.span

/-- Whenever a parse, also one that fails, has left another patch, a test in the
text has just been read. Each test leaves its own patch, and if the helper and the
component are names, the replacement is read as a whole as a call of the helper: in
the same context and with two more levels of nesting, the arguments are the left
operand up to labels, the text of the right operand as a string, and the
component. -/
theorem test_replacement_reads_back (options : Options) (text : List Char)
    (helperName : IsName options.helper) (componentName : IsName options.component) :
    (∀ earlier patch,
      earlier ++ [patch] <+: (finalState (options.tree text (.ofText text))).patches →
        ∃ test : TestReduction (options.grammar text).toSetting options.limit,
          test.after.patches = earlier ++ [patch]) ∧
    ∀ test : TestReduction (options.grammar text).toSetting options.limit,
      (∃ earlier, test.after.patches = earlier ++ [test.patch]) ∧
      ∃ callee left value reference span after,
        ({ options with limit := options.limit + 2 }.grammar test.patch.replacement).expression
            false false
            { State.ofText test.patch.replacement with
              scope := { test.after.scope with depth := 0 } } =
          .ok ⟨.call callee [left, value, reference], span⟩ after ∧
        after.cursor.current.isEnd = true ∧ callee.kind = .name options.helper ∧
        Relabeling.bare.Same test.left left ∧
        value.kind = .string (String.ofList (test.right.span.text text)) ∧
        reference.kind = .name options.component := by
  refine ⟨fun _ _ made => exists_test_of_patches made, fun test => ⟨test.round_inv.2, ?_⟩⟩
  have whole := test.exists_call rfl helperName componentName rfl
  exact whole

theorem test_replacement_reads_back_regexp :
    IsName "__qmlweb_instanceof" ∧ IsName "__component" ∧
    ∃ test : TestReduction
        (Options.grammar { kind := .script } "a + /b,/ instanceof C".toList).toSetting 64,
      (finalState (Options.tree { kind := .script } "a + /b,/ instanceof C".toList
        (.ofText "a + /b,/ instanceof C".toList))).patches = [test.patch] ∧
      test.patch.replacement = "__qmlweb_instanceof(a + /b,/, \"C\", __component)".toList ∧
      ∃ callee left value reference span after,
        (Options.grammar { kind := .script, limit := 66 } test.patch.replacement).expression
            false false
            { State.ofText test.patch.replacement with
              scope := { test.after.scope with depth := 0 } } =
          .ok ⟨.call callee [left, value, reference], span⟩ after ∧
        after.cursor.current.isEnd = true ∧ callee.kind = .name "__qmlweb_instanceof" ∧
        Relabeling.bare.Same test.left left ∧ value.kind = .string
          (String.ofList (test.right.span.text "a + /b,/ instanceof C".toList)) ∧
        reference.kind = .name "__component" := by
  have helperName : IsName "__qmlweb_instanceof" := by decide +kernel
  have componentName : IsName "__component" := by decide +kernel
  have patches : (finalState (Options.tree { kind := .script } "a + /b,/ instanceof C".toList
      (.ofText "a + /b,/ instanceof C".toList))).patches =
      [⟨0, 21, "__qmlweb_instanceof(a + /b,/, \"C\", __component)".toList⟩] := by
    decide +kernel
  obtain ⟨recorded, reads⟩ := test_replacement_reads_back { kind := .script }
    "a + /b,/ instanceof C".toList helperName componentName
  obtain ⟨test, made⟩ := recorded [] _ (by rw [patches]; exact List.prefix_refl _)
  obtain ⟨⟨earlier, left⟩, call⟩ := reads test
  have patchEq := (List.append_inj' (left.symm.trans made) rfl).2
  refine ⟨helperName, componentName, test, ?_, ?_, call⟩
  · rw [patches, patchEq]
  · rw [(List.cons.inj patchEq).1]

end Qml
