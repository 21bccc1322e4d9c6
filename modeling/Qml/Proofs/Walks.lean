import Qml.Proofs.Parser.Path
import Qml.Proofs.Progress

/-! # Walks over a text

A cursor is moved by advancing alone. A parser over a text therefore only ever
stands where some number of steps from the first token lead: at one of the tokens,
or at the end once more after the end was passed. On such a walk the offset never
goes back, and it grows with every token that is neither the end nor malformed. -/

namespace Qml

open Qml.Parser

/-! ## Cursors -/

namespace Cursor

def further : Nat → Cursor → Cursor
  | 0, cursor => cursor
  | count + 1, cursor => further count cursor.advance

theorem further_succ (count : Nat) (cursor : Cursor) :
    further (count + 1) cursor = (further count cursor).advance := by
  induction count generalizing cursor with
  | zero => rfl
  | succ count induction => exact induction cursor.advance

theorem further_further (more count : Nat) (cursor : Cursor) :
    further more (further count cursor) = further (count + more) cursor := by
  induction more with
  | zero => rfl
  | succ more induction => rw [further_succ, induction, ← Nat.add_assoc, further_succ]

/-- A place that a cursor over a text can come to. -/
def Over (text : List Char) (cursor : Cursor) : Prop :=
  ∃ count, cursor = further count (ofText text)

theorem over_ofText (text : List Char) : (ofText text).Over text := ⟨0, rfl⟩

variable {text : List Char} {cursor : Cursor}

theorem On.offset_le_stop (on : cursor.On text) : cursor.offset ≤ cursor.current.span.stop := by
  obtain ⟨consumed, gap, body, after, -, -, tile, -⟩ := on.current_tile
  have offsets := offset_eq tile
  omega

theorem offset_advance_of_last (last : cursor.upcoming = []) :
    cursor.advance.offset = cursor.offset := by
  simp [offset, Cursor.advance, peek, last]

namespace Over

theorem further (inText : cursor.Over text) (count : Nat) : (further count cursor).Over text := by
  obtain ⟨passed, rfl⟩ := inText
  exact ⟨passed + count, further_further count passed _⟩

theorem advance (inText : cursor.Over text) : cursor.advance.Over text := inText.further 1

theorem on_or_end (inText : cursor.Over text) :
    cursor.On text ∨ (cursor.current.isEnd = true ∧ cursor.upcoming = []) := by
  obtain ⟨count, rfl⟩ := inText
  induction count with
  | zero => exact .inl (on_ofText text)
  | succ count induction =>
      rw [further_succ]
      rcases induction with on | ⟨atEnd, last⟩
      · cases isEnd : (Cursor.further count (ofText text)).current.isEnd with
        | false => exact .inl (on.advance_of_inside isEnd)
        | true =>
            refine .inr ⟨on.isEnd_advance isEnd, ?_⟩
            simp [Cursor.advance, on.upcoming_eq_nil isEnd]
      · refine .inr ⟨?_, by simp [Cursor.advance, last]⟩
        simpa [Cursor.advance, peek, last, Token.isEnd] using atEnd

theorem on (inText : cursor.Over text) (inside : cursor.current.isEnd = false) :
    cursor.On text := by
  rcases inText.on_or_end with on | ⟨atEnd, -⟩
  · exact on
  · rw [inside] at atEnd
    cases atEnd

theorem last (inText : cursor.Over text) (atEnd : cursor.current.isEnd = true) :
    cursor.upcoming = [] := by
  rcases inText.on_or_end with on | ⟨-, last⟩
  · exact on.upcoming_eq_nil atEnd
  · exact last

theorem remaining_eq (inText : cursor.Over text) (inside : cursor.current.isEnd = false) :
    cursor.remaining = cursor.current :: cursor.advance.remaining := by
  obtain ⟨next, rest, upcomingEq⟩ :=
    List.exists_cons_of_ne_nil ((inText.on inside).upcoming_ne_nil_of_inside inside)
  simp [remaining, Cursor.advance, peek, upcomingEq]

theorem offset_le_advance (inText : cursor.Over text) : cursor.offset ≤ cursor.advance.offset := by
  cases isEnd : cursor.current.isEnd with
  | false =>
      have on := inText.on isEnd
      exact Nat.le_trans on.offset_le_stop (on.advance_of_inside isEnd).previousEnd_le_offset
  | true => exact Nat.le_of_eq (offset_advance_of_last (inText.last isEnd)).symm

theorem offset_lt_advance (inText : cursor.Over text) (solid : cursor.current.isSolid = true) :
    cursor.offset < cursor.advance.offset := by
  have on := inText.on (Token.isEnd_of_isSolid solid)
  exact Nat.lt_of_lt_of_le (on.offset_lt_stop solid) (on.advance solid).previousEnd_le_offset

theorem offset_le_further (inText : cursor.Over text) (count : Nat) :
    cursor.offset ≤ (Cursor.further count cursor).offset := by
  induction count with
  | zero => exact Nat.le_refl _
  | succ count induction =>
      rw [further_succ]
      exact Nat.le_trans induction (inText.further count).offset_le_advance

end Over

end Cursor

/-! ## States -/

def State.further (count : Nat) (state : State) : State :=
  { state with cursor := state.cursor.further count }

@[simp] theorem State.further_zero (state : State) : state.further 0 = state := rfl

@[simp] theorem State.further_cursor (count : Nat) (state : State) :
    (state.further count).cursor = state.cursor.further count := rfl

def State.Walks (before after : State) : Prop :=
  ∃ count, after.cursor = before.cursor.further count

instance : Flow (Steps State.Walks) where
  refl _ := ⟨0, rfl⟩
  trans := by
    rintro first middle last failed ⟨count, one⟩ ⟨more, two⟩
    exact ⟨count + more, by rw [two, one, Cursor.further_further]⟩
  advance _ := ⟨1, rfl⟩
  skipped _ _ := ⟨0, rfl⟩
  settled _ := ⟨0, rfl⟩
  visited _ _ _ _ walks := walks
  current _ _ _ held := held ⟨fun _ => ⟨0, rfl⟩⟩

instance : Patched (Steps State.Walks) := ⟨fun _ _ => ⟨0, rfl⟩⟩

instance : Keyed (Steps State.Walks) := ⟨fun _ => ⟨0, rfl⟩⟩

namespace State.Walks

variable {text : List Char} {before after : State}

theorem stays_over (walks : before.Walks after) (inText : before.cursor.Over text) :
    after.cursor.Over text := by
  obtain ⟨count, cursorEq⟩ := walks
  rw [cursorEq]
  exact inText.further count

theorem offset_lt (walks : before.Walks after) (inText : before.cursor.Over text)
    (solid : before.cursor.current.isSolid = true) (moved : after.ahead < before.ahead) :
    before.cursor.offset < after.cursor.offset := by
  obtain ⟨count, cursorEq⟩ := walks
  cases count with
  | zero =>
      have unmoved : after.ahead = before.ahead := by
        unfold State.ahead
        rw [cursorEq]
        rfl
      omega
  | succ count =>
      rw [cursorEq]
      exact Nat.lt_of_lt_of_le (inText.offset_lt_advance solid)
        (inText.advance.offset_le_further count)

end State.Walks

theorem State.ahead_pos {text : List Char} {state : State} (inText : state.cursor.Over text)
    (inside : state.cursor.current.isEnd = false) : 0 < state.ahead :=
  List.length_pos_iff.mpr ((inText.on inside).upcoming_ne_nil_of_inside inside)

/-! ## Repetitions end by themselves

A repetition is run by a clock with one tick for every token that remains. Where
each round that yields a value leaves fewer tokens ahead, the clock outlasts the
repetition: it ends with a round that yields nothing or fails. -/

namespace Parser

variable {α : Type}

/-- The outcome of repeating a step, one round after the other, until a round
yields nothing or fails. -/
inductive Repeats (step : Parser (Option α)) :
    State → EStateM.Result Fault State (List α) → Prop
  | stop {state after : State} (last : step state = .ok none after) :
      Repeats step state (.ok [] after)
  | fail {state after : State} {fault : Fault} (last : step state = .error fault after) :
      Repeats step state (.error fault after)
  | found {state between after : State} {value : α} {more : List α}
      (first : step state = .ok (some value) between)
      (rest : Repeats step between (.ok more after)) :
      Repeats step state (.ok (value :: more) after)
  | lost {state between after : State} {value : α} {fault : Fault}
      (first : step state = .ok (some value) between)
      (rest : Repeats step between (.error fault after)) : Repeats step state (.error fault after)

/-- The outcome of applying a step to its own results until it yields nothing or
fails. -/
inductive Iterates (step : α → Parser (Option α)) :
    α → State → EStateM.Result Fault State α → Prop
  | stop {value : α} {state after : State} (last : step value state = .ok none after) :
      Iterates step value state (.ok value after)
  | fail {value : α} {state after : State} {fault : Fault}
      (last : step value state = .error fault after) :
      Iterates step value state (.error fault after)
  | round {value next : α} {state between : State} {outcome : EStateM.Result Fault State α}
      (first : step value state = .ok (some next) between)
      (rest : Iterates step next between outcome) : Iterates step value state outcome

def Shortens (text : List Char) (step : Parser (Option α)) : Prop :=
  ∀ {state value after}, state.cursor.Over text → step state = .ok (some value) after →
    after.cursor.Over text ∧ after.ahead < state.ahead

theorem collectWithin_repeats {text : List Char} {step : Parser (Option α)}
    (shortens : Shortens text step) {clock : List Token} {state : State}
    (inText : state.cursor.Over text) (enough : state.ahead < clock.length) :
    Repeats step state (collectWithin step clock state) := by
  induction clock generalizing state with
  | nil => exact absurd enough (Nat.not_lt_zero _)
  | cons tick clock induction =>
      change Repeats step state (EStateM.bind step _ state)
      unfold EStateM.bind
      cases stepped : step state with
      | error fault after => exact .fail stepped
      | ok found between =>
          cases found with
          | none => exact .stop stepped
          | some value =>
              obtain ⟨overNext, fewer⟩ := shortens inText stepped
              rw [List.length_cons] at enough
              have rest := induction overNext (by omega)
              change Repeats step state (EStateM.bind (collectWithin step clock) _ between)
              unfold EStateM.bind
              cases outcome : collectWithin step clock between with
              | ok more after =>
                  rw [outcome] at rest
                  exact .found stepped rest
              | error fault after =>
                  rw [outcome] at rest
                  exact .lost stepped rest

theorem collect_repeats {text : List Char} {step : Parser (Option α)}
    (shortens : Shortens text step) {state : State} (inText : state.cursor.Over text) :
    Repeats step state (collect step state) :=
  collectWithin_repeats shortens inText (Nat.lt_succ_self _)

theorem Iterates.unique {step : α → Parser (Option α)} {value : α} {state : State}
    {outcome outcome' : EStateM.Result Fault State α} (one : Iterates step value state outcome)
    (two : Iterates step value state outcome') : outcome = outcome' := by
  induction one with
  | stop last =>
      cases two with
      | stop last' =>
          cases last.symm.trans last'
          rfl
      | fail last' => cases last.symm.trans last'
      | round first => cases last.symm.trans first
  | fail last =>
      cases two with
      | stop last' => cases last.symm.trans last'
      | fail last' =>
          cases last.symm.trans last'
          rfl
      | round first => cases last.symm.trans first
  | round first rest induction =>
      cases two with
      | stop last' => cases first.symm.trans last'
      | fail last' => cases first.symm.trans last'
      | round first' rest' =>
          cases first.symm.trans first'
          exact induction rest'

theorem iterateWithin_iterates {text : List Char} {step : α → Parser (Option α)}
    (shortens : ∀ value, Shortens text (step value)) {clock : List Token} {start : α}
    {state : State} (inText : state.cursor.Over text) (enough : state.ahead < clock.length) :
    Iterates step start state (iterateWithin step clock start state) := by
  induction clock generalizing start state with
  | nil => exact absurd enough (Nat.not_lt_zero _)
  | cons tick clock induction =>
      change Iterates step start state (EStateM.bind (step start) _ state)
      unfold EStateM.bind
      cases stepped : step start state with
      | error fault after => exact .fail stepped
      | ok found between =>
          cases found with
          | none => exact .stop stepped
          | some next =>
              obtain ⟨overNext, fewer⟩ := shortens start inText stepped
              rw [List.length_cons] at enough
              exact .round stepped (induction overNext (by omega))

theorem iterate_iterates {text : List Char} {step : α → Parser (Option α)}
    (shortens : ∀ value, Shortens text (step value)) {start : α} {state : State}
    (inText : state.cursor.Over text) : Iterates step start state (iterate step start state) :=
  iterateWithin_iterates shortens inText (Nat.lt_succ_self _)

/-- After a round the iteration goes on as if it began there. -/
theorem iterate_eq_of_round {text : List Char} {step : α → Parser (Option α)}
    (shortens : ∀ value, Shortens text (step value)) {value next : α} {state between : State}
    (inText : state.cursor.Over text) (first : step value state = .ok (some next) between) :
    iterate step value state = iterate step next between := by
  have later : Iterates step next between (iterate step next between) :=
    iterate_iterates shortens (shortens value inText first).1
  exact (iterate_iterates shortens inText).unique (.round first later)

end Parser

end Qml
