import Qml.Proofs.Progress

/-! # Chains of operators

The operators after an expression are read in rounds, each with an operator and
its right operand, which is extended by the operators that bind tighter. The
bound on how often precedence can grow never stops a round, so that operators
are read the same with any bound that is large enough; and the ban on `in` only
matters where a chain ends before it. -/

namespace Qml

open Qml.Parser

/-! ## Rounds -/

namespace Parser

variable {α : Type} {step : α → Parser (Option α)}

inductive Rounds (step : α → Parser (Option α)) : α → State → α → State → Prop
  | done (value : α) (state : State) : Rounds step value state value state
  | round {value next result : α} {state between after : State}
      (first : step value state = .ok (some next) between)
      (rest : Rounds step next between result after) : Rounds step value state result after

theorem Rounds.snoc {value result next : α} {state before after : State}
    (rounds : Rounds step value state result before)
    (last : step result before = .ok (some next) after) : Rounds step value state next after := by
  induction rounds with
  | done value state => exact .round last (.done _ _)
  | round first rest induction => exact .round first (induction last)

theorem Rounds.trans {value middle result : α} {state between after : State}
    (first : Rounds step value state middle between)
    (rest : Rounds step middle between result after) : Rounds step value state result after := by
  induction first with
  | done value state => exact rest
  | round one more induction => exact .round one (induction rest)

theorem Rounds.invariant {motive : α → State → Prop} {value result : α} {state before : State}
    (rounds : Rounds step value state result before)
    (kept : ∀ {value state next after}, motive value state →
      step value state = .ok (some next) after → motive next after)
    (initially : motive value state) : motive result before := by
  induction rounds with
  | done value state => exact initially
  | round first rest induction => exact induction (kept initially first)

theorem iterate_of_none {value : α} {state after : State}
    (last : step value state = .ok none after) : iterate step value state = .ok value after := by
  simp only [iterate, run_remaining, Cursor.remaining]
  exact iterateWithin_cons_eq_ok.mpr (.inl ⟨last, rfl⟩)

section

variable [consumes : ∀ value, Consumes Continues (step value)] {value result : α}
  {state before after : State}

theorem Rounds.ahead_le (rounds : Rounds step value state result before) :
    before.ahead ≤ state.ahead := by
  induction rounds with
  | done value state => exact Nat.le_refl _
  | @round value next result state between after first rest induction =>
      have consumed := (consumes value).ahead_le first nofun
      omega

/-- Rounds that do not reach the end of the text are those of an iteration. -/
theorem iterateWithin_of_rounds (rounds : Rounds step value state result before)
    (last : step result before = .ok none after) (inside : 0 < before.ahead)
    {clock : List Token} (enough : state.ahead < clock.length + before.ahead) :
    iterateWithin step clock value state = .ok result after := by
  induction rounds generalizing clock with
  | done value state =>
      obtain ⟨tick, clock, rfl⟩ := List.exists_cons_of_length_pos (l := clock) (by omega)
      exact iterateWithin_cons_eq_ok.mpr (.inl ⟨last, rfl⟩)
  | @round value next result state between before first rest induction =>
      have consumed := (consumes value).ahead_le first nofun
      have later := rest.ahead_le
      obtain ⟨tick, clock, rfl⟩ := List.exists_cons_of_length_pos (l := clock) (by omega)
      rw [List.length_cons] at enough
      have more : iterateWithin step clock next between = .ok result after :=
        induction last inside (by omega)
      exact iterateWithin_cons_eq_ok.mpr (.inr ⟨next, between, first, more⟩)

theorem iterate_of_rounds (rounds : Rounds step value state result before)
    (last : step result before = .ok none after) (inside : 0 < before.ahead) :
    iterate step value state = .ok result after := by
  apply iterateWithin_of_rounds rounds last inside
  simp only [Cursor.remaining, List.length_cons, State.ahead]
  omega

end

end Parser

def Setting.testPatches (setting : Setting) (left right : Span) : List Patch :=
  match setting.dialect with
  | .script => []
  | .declarative helper component =>
    [Grammar.instancePatch setting.source helper component left right]

/-- Whether an operand may begin with a token: it is neither the end of the text
nor a closing mark or a comma, and no operator but a unary one or `new`. -/
def Token.BeginsOperand (token : Token) : Prop :=
  token.isEnd = false ∧ (∀ mark ∈ [')', ']', '}', ','], token.isPunctuation mark = false) ∧
    ∀ operator, token.kind = .operator operator → operator.isUnary = true ∨ operator = .new

namespace Grammar

/-! ## Operands -/

section

variable {grammar : Grammar} {state after : State}

theorem bareAtom_firstToken {expr : Expr} (ok : grammar.bareAtom state = .ok expr after) :
    state.cursor.current.BeginsOperand := by
  unfold Token.BeginsOperand Token.isEnd Token.isPunctuation
  simp only [bareAtom, run_token] at ok
  generalize state.cursor.current.kind = kind at ok ⊢
  split at ok
  case h_6 =>
      cases kind with
      | endOfInput => exact absurd ok unexpected_ne_ok
      | operator => exact absurd ok unexpected_ne_ok
      | punctuation => exact absurd ok unexpected_ne_ok
      | _ => simp
  all_goals simp

theorem unary_firstToken {calls : Bool} {expr : Expr}
    (ok : grammar.unary calls state = .ok expr after) : state.cursor.current.BeginsOperand := by
  have plain : ∀ {expr}, grammar.stepped calls state = .ok expr after →
      state.cursor.current.BeginsOperand := by
    intro expr ok
    simp only [stepped, Grammar.atom, bind_eq_ok] at ok
    obtain ⟨_, _, ⟨_, _, atomOk, -⟩, -⟩ := ok
    exact bareAtom_firstToken atomOk
  simp only [Grammar.unary, run_token] at ok
  generalize kindEq : state.cursor.current.kind = kind at ok
  split at ok
  case h_1 operator =>
      rw [run_ite] at ok
      split at ok
      case isTrue unary =>
        simp [Token.BeginsOperand, Token.isEnd, Token.isPunctuation, kindEq, unary]
      case isFalse => exact plain ok
  case h_2 => exact plain ok

theorem assignment_firstToken {noIn : Bool} {expr : Expr}
    (ok : grammar.assignment noIn state = .ok expr after) :
    state.cursor.current.BeginsOperand := by
  simp only [Grammar.assignment, run_token, bind_eq_ok] at ok
  obtain ⟨left, between, conditionalOk, -⟩ := ok
  obtain ⟨test, tested, operationOk, -⟩ := bind_eq_ok.mp conditionalOk
  obtain ⟨operand, read, unaryOk, -⟩ := bind_eq_ok.mp operationOk
  exact unary_firstToken unaryOk

theorem expression_firstToken {commas noIn : Bool} {expr : Expr}
    (deeper : ∀ {expr after}, grammar.deeper.assignment noIn state = .ok expr after →
      state.cursor.current.BeginsOperand)
    (ok : grammar.expression commas noIn state = .ok expr after) :
    state.cursor.current.BeginsOperand := by
  obtain ⟨item, between, itemOk, -⟩ := bind_eq_ok.mp ok
  simp only [sequenceItem, run_token] at itemOk
  obtain ⟨first, read, firstOk, -⟩ := bind_eq_ok.mp itemOk
  exact deeper firstOk

end

/-! ## One round -/

theorem binaryOperator?_eq_some {noIn : Bool} {least : Nat} {found : Token}
    {operator : Operator} {precedence : Nat} :
    binaryOperator? noIn least found = some (operator, precedence) ↔
      found.isOperator operator = true ∧ operator.precedence? = some precedence ∧
        least < precedence ∧ ¬ (noIn = true ∧ operator = .in_) := by
  unfold binaryOperator? Token.isOperator
  cases kind : found.kind with
  | operator sign =>
      simp only [TokenKind.operator.injEq, decide_eq_true_eq]
      grind
  | _ => simp

theorem binaryOperator?_of_greatest {noIn : Bool} {least : Nat} {found : Token}
    (greatest : Operator.greatestPrecedence ≤ least) : binaryOperator? noIn least found = none := by
  cases operator? : binaryOperator? noIn least found with
  | none => rfl
  | some pair =>
      obtain ⟨-, binary, tighter, -⟩ := binaryOperator?_eq_some.mp operator?
      have bounded := (Operator.precedence?_le binary).2
      omega

variable {grammar : Grammar}

theorem run_applyBinary {operator : Operator} {left right : Expr} {state : State} :
    grammar.applyBinary operator left right state =
      .ok ⟨.binary operator left right, left.span.through right.span⟩
        { state with patches := state.patches ++
          if operator = .instanceOf then grammar.testPatches left.span right.span else [] } := by
  unfold applyBinary Setting.testPatches
  by_cases test : operator = .instanceOf
  · subst test
    cases dialect : grammar.dialect with
    | script => simp [run_pure]
    | declarative helper component => rfl
  · simp [test, run_pure]

variable {noIn : Bool} {least : Nat} {tighter tighter' : Nat → Expr → Parser Expr}
  {left expr : Expr} {state after : State}

theorem operatorRound_eq_none :
    grammar.operatorRound noIn least tighter left state = .ok none after ↔
      binaryOperator? noIn least state.cursor.current = none ∧ state = after := by
  simp only [operatorRound, run_token]
  cases binaryOperator? noIn least state.cursor.current with
  | none => simp [run_pure]
  | some pair => simp only [run_advance, bind_eq_ok, run_pure]; simp

theorem operatorRound_eq_some :
    grammar.operatorRound noIn least tighter left state = .ok (some expr) after ↔
      ∃ operator precedence operand between right last,
        binaryOperator? noIn least state.cursor.current = some (operator, precedence) ∧
        grammar.unary true state.advanced = .ok operand between ∧
        tighter precedence operand between = .ok right last ∧
        grammar.applyBinary operator left right last = .ok expr after := by
  simp only [operatorRound, run_token]
  cases binaryOperator? noIn least state.cursor.current with
  | none => simp [run_pure]
  | some pair =>
      simp only [run_advance, bind_eq_ok, run_pure]
      constructor
      · rintro ⟨operand, between, operandOk, right, last, rightOk, result, final, applied, ok⟩
        cases ok
        exact ⟨_, _, operand, between, right, last, rfl, operandOk, rightOk, applied⟩
      · rintro ⟨_, _, operand, between, right, last, found, operandOk, rightOk, applied⟩
        cases found
        exact ⟨operand, between, operandOk, right, last, rightOk, expr, after, applied, rfl⟩

theorem operatorRound_congr
    (same : ∀ precedence, least < precedence → tighter precedence = tighter' precedence) :
    grammar.operatorRound noIn least tighter = grammar.operatorRound noIn least tighter' := by
  funext left state
  simp only [operatorRound, run_token]
  cases operator? : binaryOperator? noIn least state.cursor.current with
  | none => rfl
  | some pair =>
      obtain ⟨-, -, tight, -⟩ := binaryOperator?_eq_some.mp operator?
      simp only [same _ tight]

/-! ## Any bound -/

theorem iterate_operatorRound_of_greatest (greatest : Operator.greatestPrecedence ≤ least) :
    iterate (grammar.operatorRound noIn least tighter) left = pure left := by
  funext state
  exact iterate_of_none (operatorRound_eq_none.mpr ⟨binaryOperator?_of_greatest greatest, rfl⟩)

theorem climb_eq_climb {room room' least : Nat}
    (enough : Operator.greatestPrecedence ≤ room + least)
    (enough' : Operator.greatestPrecedence ≤ room' + least) :
    grammar.climb noIn room least = grammar.climb noIn room' least := by
  induction room generalizing room' least with
  | zero =>
      cases room' with
      | zero => rfl
      | succ room' =>
          funext left
          exact (iterate_operatorRound_of_greatest (by omega)).symm
  | succ room induction =>
      cases room' with
      | zero =>
          funext left
          exact iterate_operatorRound_of_greatest (by omega)
      | succ room' =>
          funext left
          unfold climb
          rw [operatorRound_congr]
          intro precedence tight
          exact induction (by omega) (by omega)

theorem operators_eq (grammar : Grammar) (noIn : Bool) (least : Nat) :
    grammar.operators noIn least = iterate (grammar.operatorRound noIn least
      (grammar.operators noIn)) := by
  funext left
  unfold operators
  by_cases greatest : Operator.greatestPrecedence ≤ least
  · rw [iterate_operatorRound_of_greatest greatest, Nat.sub_eq_zero_of_le greatest]
    rfl
  · obtain ⟨room, roomEq⟩ : ∃ room, Operator.greatestPrecedence - least = room + 1 :=
      ⟨Operator.greatestPrecedence - least - 1, by omega⟩
    rw [roomEq, climb]
    rw [operatorRound_congr]
    intro precedence tight
    exact climb_eq_climb (by omega) (by omega)

/-! ## The ban on one operator -/

/-- A chain of operators that is to be read in the same way where `in` is
allowed: it does not end before this operator. -/
def Allowed (noIn : Bool) (after : State) : Prop :=
  noIn = true → after.cursor.current.isOperator .in_ = false

theorem binaryOperator?_of_allowed {least' : Nat} {found : Token} {operator : Operator}
    {precedence : Nat} (fewer : least' ≤ least)
    (operator? : binaryOperator? noIn least found = some (operator, precedence)) :
    binaryOperator? false least' found = some (operator, precedence) := by
  obtain ⟨isOperator, binary, tight, -⟩ := binaryOperator?_eq_some.mp operator?
  exact binaryOperator?_eq_some.mpr ⟨isOperator, binary, by omega, by simp⟩

theorem binaryOperator?_none_of_allowed
    (none : binaryOperator? noIn least state.cursor.current = none) (allowed : Allowed noIn state) :
    binaryOperator? false least state.cursor.current = .none := by
  cases operator? : binaryOperator? false least state.cursor.current with
  | none => rfl
  | some pair =>
      obtain ⟨isOperator, binary, tight, -⟩ := binaryOperator?_eq_some.mp operator?
      have found : binaryOperator? noIn least state.cursor.current = some pair := by
        refine binaryOperator?_eq_some.mpr ⟨isOperator, binary, tight, ?_⟩
        rintro ⟨banned, isIn⟩
        rw [isIn, allowed banned] at isOperator
        cases isOperator
      rw [none] at found
      cases found

theorem allowed_of_some
    (ok : grammar.operatorRound noIn least tighter left state = .ok (some expr) after) :
    Allowed noIn state := by
  obtain ⟨operator, precedence, _, _, _, _, operator?, -⟩ := operatorRound_eq_some.mp ok
  obtain ⟨isOperator, -, -, notBanned⟩ := binaryOperator?_eq_some.mp operator?
  intro banned
  simp only [Token.isOperator, decide_eq_true_eq, decide_eq_false_iff_not] at isOperator ⊢
  rw [isOperator]
  rintro ⟨⟩
  exact notBanned ⟨banned, rfl⟩

theorem operatorRound_of_allowed {least' : Nat} (fewer : least' ≤ least)
    (same : ∀ {precedence operand state right after}, least < precedence →
      precedence ≤ Operator.greatestPrecedence →
      tighter precedence operand state = .ok right after → Allowed noIn after →
        tighter' precedence operand state = .ok right after)
    (ok : grammar.operatorRound noIn least tighter left state = .ok (some expr) after)
    (allowed : Allowed noIn after) :
    grammar.operatorRound false least' tighter' left state = .ok (some expr) after := by
  obtain ⟨operator, precedence, operand, between, right, last, operator?, operandOk, rightOk,
    applied⟩ := operatorRound_eq_some.mp ok
  obtain ⟨-, binary, tight, -⟩ := binaryOperator?_eq_some.mp operator?
  have bounded := (Operator.precedence?_le binary).2
  have there : last.cursor = after.cursor := by
    rw [run_applyBinary] at applied
    cases applied
    rfl
  refine operatorRound_eq_some.mpr ⟨operator, precedence, operand, between, right, last,
    binaryOperator?_of_allowed fewer operator?, operandOk, same tight bounded rightOk ?_, applied⟩
  unfold Allowed
  rw [there]
  exact allowed

theorem allowed_of_iterateWithin {clock : List Token}
    (ok : iterateWithin (grammar.operatorRound noIn least tighter) clock left state =
      .ok expr after) (allowed : Allowed noIn after) : Allowed noIn state := by
  cases clock with
  | nil => exact absurd ok unexpected_ne_ok
  | cons tick clock =>
      rcases iterateWithin_cons_eq_ok.mp ok with ⟨last, -⟩ | ⟨next, between, round, -⟩
      · rw [(operatorRound_eq_none.mp last).2]
        exact allowed
      · exact allowed_of_some round

/-- A chain that does not end before `in` is read in the same way where this
operator is allowed. -/
theorem operators_of_allowed (ok : grammar.operators noIn least left state = .ok expr after)
    (allowed : Allowed noIn after) : grammar.operators false least left state = .ok expr after := by
  induction gap : Operator.greatestPrecedence - least using Nat.strongRecOn
    generalizing least left state expr after with
  | ind gap induction =>
      rw [operators_eq] at ok ⊢
      simp only [iterate, run_remaining] at ok ⊢
      generalize state.cursor.remaining = clock at ok ⊢
      induction clock generalizing left state with
      | nil => exact absurd ok unexpected_ne_ok
      | cons tick clock again =>
          rcases iterateWithin_cons_eq_ok.mp ok with ⟨last, rfl⟩ | ⟨next, between, round, more⟩
          · obtain ⟨none, rfl⟩ := operatorRound_eq_none.mp last
            have ends := binaryOperator?_none_of_allowed none allowed
            exact iterateWithin_cons_eq_ok.mpr
              (.inl ⟨operatorRound_eq_none.mpr ⟨ends, rfl⟩, rfl⟩)
          · have here := allowed_of_iterateWithin more allowed
            have round' := operatorRound_of_allowed (Nat.le_refl least)
              (fun tight bounded ok allowed => induction _ (by omega) ok allowed rfl) round here
            exact iterateWithin_cons_eq_ok.mpr (.inr ⟨next, between, round', again more⟩)

/-- Rounds before a place where a chain goes on, or ends without a ban, are
rounds of every chain that begins with the same operand. -/
theorem rounds_of_allowed {left' : Expr} {before : State}
    (rounds : Rounds (grammar.operatorRound noIn least (grammar.operators noIn)) left state
      left' before) (allowed : Allowed noIn before) :
    Rounds (grammar.operatorRound false 0 (grammar.operators false)) left state left' before := by
  induction rounds with
  | done value state => exact .done _ _
  | @round value next result state between after first rest induction =>
      have here : Allowed noIn between := by
        cases rest with
        | done => exact allowed
        | round following => exact allowed_of_some following
      refine .round ?_ (induction allowed)
      exact operatorRound_of_allowed (Nat.zero_le least)
        (fun _ _ ok allowed => operators_of_allowed ok allowed) first here

end Grammar

end Qml
