import Qml.Parser.Loop

/-! # Successful parses

What is known once a parser has succeeded. Steps that cannot fail run on the
spot; a sequence of two parsers succeeds when both do, one after the other; and
a repetition that succeeds has an induction principle, one case for its last
round and one for every other. -/

namespace Qml

def State.advanced (state : State) : State := { state with cursor := state.cursor.advance }

@[simp] theorem State.advanced_cursor (state : State) :
    state.advanced.cursor = state.cursor.advance := rfl

@[simp] theorem State.advanced_scope (state : State) : state.advanced.scope = state.scope := rfl

def State.settled (state : State) : State := { state with awaitsValue := false }

@[simp] theorem State.advanced_patches (state : State) :
    state.advanced.patches = state.patches := rfl

namespace Parser

variable {α β : Type} {state after : State}

/-! ## Sequences and choices -/

theorem bind_eq_ok {first : Parser α} {next : α → Parser β} {value : β} :
    (first >>= next) state = .ok value after ↔
      ∃ middle between, first state = .ok middle between ∧
        next middle between = .ok value after := by
  change EStateM.bind first next state = _ ↔ _
  unfold EStateM.bind
  cases first state with
  | ok middle between =>
      simp only [EStateM.Result.ok.injEq]
      constructor
      · intro equation
        exact ⟨_, _, ⟨rfl, rfl⟩, equation⟩
      · rintro ⟨_, _, ⟨rfl, rfl⟩, equation⟩
        exact equation
  | error fault between => simp

theorem run_pure (value : α) : (pure value : Parser α) state = .ok value state := rfl

theorem run_ite {condition : Prop} [Decidable condition] (left right : Parser α) :
    (if condition then left else right) state =
      if condition then left state else right state := by
  split <;> rfl

/-! ## Steps that cannot fail -/

theorem run_token (next : Token → Parser α) :
    (token >>= next) state = next state.cursor.current state := rfl

theorem run_peek (next : Token → Parser α) :
    (peek >>= next) state = next state.cursor.peek state := rfl

theorem run_advance (next : Token → Parser α) :
    (advance >>= next) state = next state.cursor.current state.advanced := rfl

theorem run_offset (next : Nat → Parser α) :
    (offset >>= next) state = next state.cursor.offset state := rfl

theorem run_spanFrom (start : Span) (next : Span → Parser α) :
    (spanFrom start >>= next) state =
      next (start.endingAt state.cursor.previousEnd) state := rfl

theorem run_scope (next : Scope → Parser α) :
    (scope >>= next) state = next state.scope state := rfl

theorem run_takeAwaited (next : Bool → Parser α) :
    (takeAwaited >>= next) state = next state.awaitsValue state.settled := rfl

theorem run_remaining (next : List Token → Parser α) :
    (remaining >>= next) state = next state.cursor.remaining state := rfl

theorem run_effectiveText (source : List Char) (start stop : Nat) (next : List Char → Parser α) :
    (effectiveText source start stop >>= next) state =
      next (Patch.effectiveText source state.patches start stop) state := rfl

theorem run_atPunctuation (mark : Char) (next : Bool → Parser α) :
    (atPunctuation mark >>= next) state =
      next (state.cursor.current.isPunctuation mark) state := rfl

theorem run_atOperator (operator : Operator) (next : Bool → Parser α) :
    (atOperator operator >>= next) state =
      next (state.cursor.current.isOperator operator) state := rfl

theorem run_atKeyword (keyword : Keyword) (next : Bool → Parser α) :
    (atKeyword keyword >>= next) state =
      next (state.cursor.current.isKeyword keyword) state := rfl

theorem run_atName (text : String) (next : Bool → Parser α) :
    (atName text >>= next) state = next (state.cursor.current.isName text) state := rfl

theorem run_atEnd (next : Bool → Parser α) :
    (atEnd >>= next) state = next state.cursor.current.isEnd state := rfl

/-! ## Steps that always fail -/

theorem fail_ne_ok {cause : Cause} {position : Position} {value : α} :
    fail cause position state ≠ .ok value after := by
  simp [fail]

theorem unexpected_ne_ok {value : α} : unexpected state ≠ .ok value after := fail_ne_ok

theorem expected_ne_ok {what : String} {value : α} : expected what state ≠ .ok value after :=
  fail_ne_ok

theorem refuseAt_ne_ok {place : Span} {rule : BrokenRule} {value : α} :
    refuseAt place rule state ≠ .ok value after := fail_ne_ok

theorem refuse_ne_ok {rule : BrokenRule} {value : α} : refuse rule state ≠ .ok value after :=
  fail_ne_ok

/-! ## Context and records -/

theorem inScope_eq_ok {visit : Visit} {parser : Parser α} {value : α} :
    inScope visit parser state = .ok value after ↔
      ∃ inner, parser { state with scope := visit.enter state.scope } = .ok value inner ∧
        leave visit state inner = after := by
  unfold inScope
  cases parser { state with scope := visit.enter state.scope } with
  | ok result inner =>
      constructor
      · intro equation
        cases equation
        exact ⟨inner, rfl, rfl⟩
      · rintro ⟨_, equation, rfl⟩
        cases equation
        rfl
  | error fault inner => simp

theorem skipToken_eq_ok {place : Span} {value : Unit}
    (ok : skipToken place state = .ok value after) :
    after.cursor = state.cursor.advance ∧ after.scope = state.scope ∧
      after.patches = state.patches := by
  cases ok
  exact ⟨rfl, rfl, rfl⟩

/-! ## Single tokens -/

theorem expectPunctuation_eq_ok {mark : Char} {found : Token} :
    expectPunctuation mark state = .ok found after ↔
      state.cursor.current.isPunctuation mark ∧ state.cursor.current = found ∧
        state.advanced = after := by
  simp only [expectPunctuation, run_atPunctuation, run_ite]
  split <;> simp_all [advance, State.advanced, expected_ne_ok]

theorem expectNameOf_eq_ok {text : String} {found : Token} :
    expectNameOf text state = .ok found after ↔
      state.cursor.current.isName text ∧ state.cursor.current = found ∧
        state.advanced = after := by
  simp only [expectNameOf, run_atName, run_ite]
  split <;> simp_all [advance, State.advanced, expected_ne_ok]

theorem expectKeyword_eq_ok {keyword : Keyword} {found : Token} :
    expectKeyword keyword state = .ok found after ↔
      state.cursor.current.isKeyword keyword ∧ state.cursor.current = found ∧
        state.advanced = after := by
  simp only [expectKeyword, run_atKeyword, run_ite]
  split <;> simp_all [advance, State.advanced, expected_ne_ok]

theorem expectName_eq_ok {name : String} :
    expectName state = .ok name after ↔
      state.cursor.current.kind.name? = some name ∧ state.advanced = after := by
  simp only [expectName, run_token]
  cases state.cursor.current.kind.name? <;> simp [run_advance, run_pure, expected_ne_ok]

theorem expectWord_eq_ok {word : String} :
    expectWord state = .ok word after ↔
      state.cursor.current.kind.word? = some word ∧ state.advanced = after := by
  simp only [expectWord, run_token]
  cases state.cursor.current.kind.word? <;> simp [run_advance, run_pure, expected_ne_ok]

theorem skipPunctuation_eq_ok {mark : Char} {value : Unit} :
    skipPunctuation mark state = .ok value after ↔
      (state.cursor.current.isPunctuation mark ∧ state.advanced = after) ∨
        (¬ state.cursor.current.isPunctuation mark ∧ state = after) := by
  simp only [skipPunctuation, run_atPunctuation, run_ite]
  split <;> simp_all [run_advance, run_pure]

/-! ## Repetition -/

theorem collectWithin_cons_eq_ok {step : Parser (Option α)} {tick : Token} {clock : List Token}
    {values : List α} :
    collectWithin step (tick :: clock) state = .ok values after ↔
      (step state = .ok none after ∧ values = []) ∨
        ∃ value between more, step state = .ok (some value) between ∧
          collectWithin step clock between = .ok more after ∧ values = value :: more := by
  simp only [collectWithin, bind_eq_ok]
  constructor
  · rintro ⟨result, between, stepped, rest⟩
    cases result with
    | none =>
        simp only [run_pure, EStateM.Result.ok.injEq] at rest
        obtain ⟨rfl, rfl⟩ := rest
        exact .inl ⟨stepped, rfl⟩
    | some value =>
        simp only [bind_eq_ok, run_pure, EStateM.Result.ok.injEq] at rest
        obtain ⟨more, _, repeated, rfl, rfl⟩ := rest
        exact .inr ⟨value, between, more, stepped, repeated, rfl⟩
  · rintro (⟨stepped, rfl⟩ | ⟨value, between, more, stepped, repeated, rfl⟩)
    · exact ⟨none, after, stepped, rfl⟩
    · refine ⟨some value, between, stepped, ?_⟩
      simp only [bind_eq_ok]
      exact ⟨more, after, repeated, rfl⟩

/-- A property of whole repetitions, from what the last round and every other
round contribute to it. -/
theorem collect_induction {step : Parser (Option α)} {motive : State → List α → State → Prop}
    (last : ∀ {state after}, step state = .ok none after → motive state [] after)
    (round : ∀ {state value between more after}, step state = .ok (some value) between →
      motive between more after → motive state (value :: more) after)
    {values : List α} (ok : collect step state = .ok values after) :
    motive state values after := by
  simp only [collect, run_remaining] at ok
  generalize state.cursor.remaining = clock at ok
  induction clock generalizing state values with
  | nil => exact absurd ok unexpected_ne_ok
  | cons tick clock induction =>
      rw [collectWithin_cons_eq_ok] at ok
      rcases ok with ⟨stepped, rfl⟩ | ⟨value, between, more, stepped, repeated, rfl⟩
      · exact last stepped
      · exact round stepped (induction repeated)

theorem collect_last {step : Parser (Option α)} {values : List α}
    (ok : collect step state = .ok values after) : ∃ before, step before = .ok none after := by
  apply collect_induction (motive := fun _ _ after => ∃ before, step before = .ok none after) _ _ ok
  · intro before after stepped
    exact ⟨before, stepped⟩
  · intro state value between more after stepped rest
    exact rest

theorem iterateWithin_cons_eq_ok {step : α → Parser (Option α)} {tick : Token}
    {clock : List Token} {start result : α} :
    iterateWithin step (tick :: clock) start state = .ok result after ↔
      (step start state = .ok none after ∧ start = result) ∨
        ∃ next between, step start state = .ok (some next) between ∧
          iterateWithin step clock next between = .ok result after := by
  simp only [iterateWithin, bind_eq_ok]
  constructor
  · rintro ⟨outcome, between, stepped, rest⟩
    cases outcome with
    | none =>
        simp only [run_pure, EStateM.Result.ok.injEq] at rest
        obtain ⟨rfl, rfl⟩ := rest
        exact .inl ⟨stepped, rfl⟩
    | some next => exact .inr ⟨next, between, stepped, rest⟩
  · rintro (⟨stepped, rfl⟩ | ⟨next, between, stepped, repeated⟩)
    · exact ⟨none, after, stepped, rfl⟩
    · exact ⟨some next, between, stepped, repeated⟩

/-- What every round of an iteration keeps holds when its last round begins. -/
theorem iterate_invariant {step : α → Parser (Option α)} {motive : α → State → Prop}
    (kept : ∀ {value state next after}, motive value state →
      step value state = .ok (some next) after → motive next after)
    {start result : α} (ok : iterate step start state = .ok result after)
    (initially : motive start state) :
    ∃ before, motive result before ∧ step result before = .ok none after := by
  simp only [iterate, run_remaining] at ok
  generalize state.cursor.remaining = clock at ok
  induction clock generalizing state start with
  | nil => exact absurd ok unexpected_ne_ok
  | cons tick clock induction =>
      rw [iterateWithin_cons_eq_ok] at ok
      rcases ok with ⟨stepped, rfl⟩ | ⟨next, between, stepped, repeated⟩
      · exact ⟨state, initially, stepped⟩
      · exact induction (kept initially stepped) repeated

end Parser

end Qml
