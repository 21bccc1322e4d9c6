import Qml.Proofs.Operators
import Qml.Proofs.Outline.Document

/-! # Where patches come from

A patch is left by a round of operators that reads a test with `instanceof`. All
that a parse leaves, whether it succeeds or fails, goes back to such rounds, each
at a place among the tokens of the text. -/

namespace Qml

open Qml.Parser

/-! ## Chains -/

namespace Grammar

/-- From `start` to `state`, `left` has been read: an operand, and after it some
rounds of operators that bind tighter than `least`. -/
def Chain (grammar : Grammar) (noIn : Bool) (least : Nat) (start : State) (left : Expr)
    (state : State) : Prop :=
  ∃ operand between, grammar.unary true start = .ok operand between ∧
    Rounds (grammar.operatorRound noIn least (grammar.operators noIn)) operand between left state

variable {grammar : Grammar} {noIn : Bool} {least : Nat} {start state after : State}
  {left next : Expr}

theorem Chain.of_unary (ok : grammar.unary true start = .ok left state) :
    grammar.Chain noIn least start left state :=
  ⟨left, state, ok, .done left state⟩

theorem Chain.round (chain : grammar.Chain noIn least start left state)
    (ok : grammar.operatorRound noIn least (grammar.operators noIn) left state =
      .ok (some next) after) : grammar.Chain noIn least start next after := by
  obtain ⟨operand, between, operandOk, rounds⟩ := chain
  exact ⟨operand, between, operandOk, rounds.snoc ok⟩

section

variable (outlined : grammar.deeper.Outlined grammar.toSetting)

include outlined

theorem operatorRound_extends {first : Spot}
    (parsed : left.outline.Parsed grammar.toSetting first state.spot)
    (ok : grammar.operatorRound noIn least (grammar.operators noIn) left state =
      .ok (some next) after) : next.outline.Parsed grammar.toSetting first after.spot :=
  operatorRound_parsed outlined (fun parsed ok => climb_parsed outlined parsed ok) parsed ok

theorem Chain.parsed (chain : grammar.Chain noIn least start left state) :
    left.outline.Parsed grammar.toSetting start.spot state.spot := by
  obtain ⟨operand, between, operandOk, rounds⟩ := chain
  exact rounds.invariant
    (motive := fun left state => left.outline.Parsed grammar.toSetting start.spot state.spot)
    (fun parsed ok => operatorRound_extends outlined parsed ok) (unary_parsed outlined operandOk)

end

end Grammar

/-! ## Reductions -/

/-- A test with `instanceof` as it is read from some place of a text. After what
stands before the test, a round of operators leaves it with its two operands. -/
structure TestReduction (setting : Setting) (limit : Nat) where
  room : Nat
  noIn : Bool
  least : Nat
  start : State
  before : State
  after : State
  left : Expr
  right : Expr
  room_le : room ≤ limit
  ready : start.spot.Ready setting.source
  chain : (Grammar.within setting room).Chain noIn least start left before
  round : (Grammar.within setting room).operatorRound noIn least
    ((Grammar.within setting room).operators noIn) left before =
      .ok (some ⟨.binary .instanceOf left right, left.span.through right.span⟩) after

/-- A state on the tokens of a text with all patches behind it, or one that has
come to the end of the text. -/
def State.Sound (text : List Char) (state : State) : Prop :=
  state.spot.Ready text ∨ (state.cursor.current.isEnd = true ∧ state.cursor.upcoming = [])

/-- From a sound state to a sound one, on a way on which patches are left by tests
only: whatever patches there were at some time, there were before, or when a test
had just been read. -/
def State.Tested (setting : Setting) (limit : Nat) (before after : State) : Prop :=
  before.Sound setting.source → after.Sound setting.source ∧
    ∀ patches, patches <+: after.patches → patches <+: before.patches ∨
      ∃ test : TestReduction setting limit, test.after.patches = patches

theorem State.Sound.advanced {text : List Char} {state : State} (sound : state.Sound text) :
    state.advanced.Sound text := by
  have stays : state.cursor.current.isEnd = true → state.cursor.upcoming = [] →
      state.advanced.Sound text := by
    intro atEnd nothing
    refine .inr ⟨?_, by simp [Cursor.advance, nothing]⟩
    simpa [Cursor.advance, Cursor.peek, nothing, Token.isEnd] using atEnd
  rcases sound with ready | ⟨atEnd, nothing⟩
  · by_cases atEnd : state.cursor.current.isEnd = true
    · exact stays atEnd (ready.on.upcoming_eq_nil atEnd)
    · refine .inl ⟨ready.on.advance_of_inside (by simpa using atEnd), ?_⟩
      intro patch member
      exact Nat.le_trans (ready.behind patch member) ready.on.previousEnd_le_stop
  · exact stays atEnd nothing

section

variable {setting : Setting} {limit : Nat}

theorem State.Tested.of_sound {before after : State}
    (sound : before.Sound setting.source → after.Sound setting.source)
    (same : after.patches = before.patches) : before.Tested setting limit after :=
  fun held => ⟨sound held, fun _ earlier => .inl (same ▸ earlier)⟩

instance : Flow (Steps (State.Tested setting limit)) where
  refl _ := .of_sound id rfl
  trans one two sound := by
    obtain ⟨middle, left⟩ := one sound
    obtain ⟨last, more⟩ := two middle
    refine ⟨last, fun patches earlier => ?_⟩
    rcases more patches earlier with before | found
    · exact left patches before
    · exact .inr found
  advance _ := .of_sound State.Sound.advanced rfl
  skipped _ _ := .of_sound id rfl
  settled _ := .of_sound id rfl
  visited _ _ _ _ tested := tested
  current _ _ _ held := held ⟨fun _ => .of_sound id rfl⟩

instance : Keyed (Steps (State.Tested setting limit)) := ⟨fun _ => .of_sound id rfl⟩

theorem Setting.prefix_append_testPatches {patches made : List Patch} {left right : Span}
    (earlier : made <+: patches ++ setting.testPatches left right) :
    made <+: patches ∨ made = patches ++ setting.testPatches left right := by
  unfold testPatches at earlier ⊢
  cases dialect : setting.dialect with
  | script =>
      rw [dialect, List.append_nil] at earlier
      exact .inl earlier
  | declarative helper component =>
      rw [dialect] at earlier
      exact (List.prefix_concat_iff.mp earlier).symm

theorem State.Sound.ready_of_unary {grammar : Grammar} {text : List Char} {state after : State}
    {calls : Bool} {expr : Expr} (sound : state.Sound text)
    (ok : grammar.unary calls state = .ok expr after) : state.spot.Ready text := by
  rcases sound with ready | ⟨atEnd, -⟩
  · exact ready
  · rw [(Grammar.unary_firstToken ok).1] at atEnd
    cases atEnd

namespace Grammar

variable {room : Nat} {noIn : Bool} {least : Nat} {start state after : State} {left : Expr}

theorem Chain.ready (chain : (within setting room).Chain noIn least start left state)
    (ready : start.spot.Ready setting.source) : state.spot.Ready setting.source :=
  (chain.parsed (within_outlined setting room) ready).ready ready

theorem operatorRound_tested (fewer : room ≤ limit)
    (below : (Deeper.within setting room).Follows (State.Tested setting limit))
    (ready : start.spot.Ready setting.source)
    (chain : (within setting room).Chain noIn least start left state)
    (tighter : ∀ {precedence start operand between}, least < precedence →
      start.spot.Ready setting.source →
      (within setting room).Chain noIn precedence start operand between →
        ObeysAt (Steps (State.Tested setting limit))
          ((within setting room).operators noIn precedence operand) between) :
    ObeysAt (Steps (State.Tested setting limit))
      ((within setting room).operatorRound noIn least ((within setting room).operators noIn) left)
      state := by
  have level : (within setting room).deeper.Follows (State.Tested setting limit) := below
  refine Obeys.bindAt (Obeys.holds state) ?_
  rintro found _ ⟨⟩
  cases operator? : binaryOperator? noIn least state.cursor.current with
  | none => exact Flow.refl state
  | some pair =>
      obtain ⟨operator, precedence⟩ := pair
      obtain ⟨-, -, tight, -⟩ := binaryOperator?_eq_some.mp operator?
      have solid := isSolid_of_binaryOperator? operator?
      have further : state.advanced.spot.Ready setting.source :=
        (chain.ready ready).reach (.one solid)
      refine Obeys.bindAt (Obeys.holds state) ?_
      rintro _ _ ⟨⟩
      refine Obeys.bindAt (Obeys.holds state.advanced) fun {operand between} operandOk => ?_
      have onward := tighter tight further (.of_unary operandOk)
      refine Obeys.bindAt onward fun {right last} rightOk => ?_
      have applied : (within setting room).applyBinary operator left right last = .ok _ _ :=
        run_applyBinary
      have round := operatorRound_eq_some.mpr
        ⟨operator, precedence, operand, between, right, last, operator?, operandOk, rightOk,
          applied⟩
      have extended := operatorRound_extends (within_outlined setting room)
        (chain.parsed (within_outlined setting room)) round
      have run : (do return some (← (within setting room).applyBinary operator left right)) last =
          .ok _ _ := bind_eq_ok.mpr ⟨_, _, applied, rfl⟩
      unfold ObeysAt
      rw [run]
      intro _
      refine ⟨.inl ((extended ready).ready ready), fun patches earlier => ?_⟩
      by_cases isTest : operator = .instanceOf
      · subst isTest
        refine (Setting.prefix_append_testPatches earlier).imp_right fun made => ?_
        exact ⟨⟨room, noIn, least, start, state, _, left, right, fewer, ready, chain, round⟩,
          made.symm⟩
      · simp only [isTest, if_false, List.append_nil] at earlier
        exact .inl earlier

theorem operators_tested (fewer : room ≤ limit)
    (below : (Deeper.within setting room).Follows (State.Tested setting limit))
    (ready : start.spot.Ready setting.source)
    (chain : (within setting room).Chain noIn least start left state) :
    ObeysAt (Steps (State.Tested setting limit))
      ((within setting room).operators noIn least left) state := by
  induction gap : Operator.greatestPrecedence - least using Nat.strongRecOn
    generalizing least start left state with
  | ind gap induction =>
      by_cases greatest : Operator.greatestPrecedence ≤ least
      · rw [operators_eq, iterate_operatorRound_of_greatest greatest]
        exact Flow.refl state
      · rw [operators_eq]
        refine Obeys.iterate_of_kept
          (fun left state => (within setting room).Chain noIn least start left state)
          (fun chain => ?_) (fun chain ok => chain.round ok) chain
        exact operatorRound_tested fewer below ready chain fun tight ready chain =>
          induction _ (by omega) ready chain rfl

theorem operation_tested (fewer : room ≤ limit)
    (below : (Deeper.within setting room).Follows (State.Tested setting limit)) (noIn : Bool) :
    Follows (State.Tested setting limit) ((within setting room).operation noIn) := by
  have level : (within setting room).deeper.Follows (State.Tested setting limit) := below
  constructor
  intro state sound
  have whole : ObeysAt (Steps (State.Tested setting limit)) ((within setting room).operation noIn)
      state := by
    refine Obeys.bindAt (Obeys.holds state) fun {operand between} operandOk => ?_
    exact operators_tested fewer below (sound.ready_of_unary operandOk) (.of_unary operandOk)
  exact whole sound

end Grammar

end

/-- Whatever patches there are at some time of a parse, whether it succeeds or
fails, there were when a test in the text had just been read. -/
theorem exists_test_of_patches {options : Options} {text : List Char} {earlier : List Patch}
    {patch : Patch}
    (made : earlier ++ [patch] <+: (finalState (options.tree text (.ofText text))).patches) :
    ∃ test : TestReduction (options.grammar text).toSetting options.limit,
      test.after.patches = earlier ++ [patch] := by
  have levels : (options.grammar text).deeper.Follows
      (State.Tested (options.grammar text).toSetting options.limit) :=
    Deeper.within_obeys_of _ _
      (fun room fewer below => Grammar.operation_tested (Nat.le_of_lt fewer) below)
      (fun _ _ below => Grammar.members_obeys _ below)
  have sound : (State.ofText text).Sound text :=
    .inl ⟨Cursor.on_ofText text, by simp [State.ofText]⟩
  have tested := (Options.tree_obeys levels).holds (.ofText text) sound
  rcases tested.2 _ made with before | found
  · simp [State.ofText] at before
  · exact found

end Qml
