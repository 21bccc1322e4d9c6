import Qml.Proofs.Height.Basic
import Qml.Proofs.Height.Words

/-! # Chains of expressions

A text that repeats the same few tokens is read in as many rounds. So a name with
properties, indices or calls behind it, and a sum of names, are expressions of any
height, whatever the limit is. -/

namespace Qml

open Qml.Parser Qml.Grammar

/-! ## Rounds over a text that repeats -/

/-- What a text goes on with that repeats the same tokens up to some other one. -/
theorem TokenKind.repeated_eq_cons (n : Nat) (first last : TokenKind) (tail rest : List TokenKind) :
    ∃ kind more, (List.replicate n (first :: tail)).flatten ++ last :: rest = kind :: more ∧
      (kind = first ∨ kind = last) := by
  cases n with
  | zero => exact ⟨last, rest, rfl, .inr rfl⟩
  | succ n => exact ⟨first, _, rfl, .inl rfl⟩

namespace Parser

variable {α : Type} {step : α → Parser (Option α)}

/-- Rounds over the same tokens again and again, up to some other token. What is
`reached` after so many of them is reached by one more. -/
theorem Rounds.exists_of_repeated {first last : TokenKind} {tail rest : List TokenKind} {n : Nat}
    (reached : Nat → α → Prop)
    (round : ∀ {k value state kind more}, k < n → kind = first ∨ kind = last → reached k value →
      state.Faces (first :: tail ++ kind :: more) →
        ∃ next after, Rounds step value state next after ∧ after.Faces (kind :: more) ∧
          reached (k + 1) next)
    {value : α} {state : State} (initially : reached 0 value)
    (faces : state.Faces ((List.replicate n (first :: tail)).flatten ++ last :: rest)) :
    ∃ result after, Rounds step value state result after ∧ after.Faces (last :: rest) ∧
      reached n result := by
  -- The induction is on the repetitions ahead; `k` of them have been read.
  suffices rounds : ∀ m k value state, k + m = n → reached k value →
      state.Faces ((List.replicate m (first :: tail)).flatten ++ last :: rest) →
        ∃ result after, Rounds step value state result after ∧ after.Faces (last :: rest) ∧
          reached n result from
    rounds n 0 value state (Nat.zero_add n) initially faces
  intro m
  induction m with
  | zero =>
      rintro k value state rfl reached faces
      exact ⟨value, state, .done _ _, faces, reached⟩
  | succ m induction =>
      intro k value state total reached faces
      obtain ⟨kind, more, following, expected⟩ :=
        TokenKind.repeated_eq_cons m first last tail rest
      have here : state.Faces (first :: tail ++ kind :: more) := by
        rw [← following]
        simpa [List.replicate_succ] using faces
      obtain ⟨next, between, one, there, nearer⟩ := round (by omega) expected reached here
      rw [← following] at there
      obtain ⟨result, after, rounds, behind, all⟩ :=
        induction (k + 1) next between (by omega) nearer there
      exact ⟨result, after, one.trans rounds, behind, all⟩

end Parser

theorem Link.step_of_counted {counts : Link → Bool} {link : Link} (counted : counts link = true) :
    Link.step counts link = 1 :=
  if_pos counted

namespace Grammar

variable {counts : Link → Bool} {setting : Setting} {room n : Nat} {state : State}
  {kind : TokenKind} {more : List TokenKind} {expr : Expr}

/-! ## Properties, indices and calls -/

def Extends (counts : Link → Bool) (n : Nat) (result : Option Expr) : Prop :=
  ∃ next, result = some next ∧ n + 1 ≤ next.height counts

theorem rounds_of_reaches {step : Expr → Parser (Option Expr)} {rest : List TokenKind}
    (reaches : Reaches (step expr) state rest (Extends counts n)) :
    ∃ next after, Rounds step expr state next after ∧ after.Faces rest ∧
      n + 1 ≤ next.height counts := by
  obtain ⟨_, after, stepped, faces, next, rfl, higher⟩ := reaches
  exact ⟨next, after, .round stepped (.done _ _), faces, higher⟩

theorem property_reaches (counted : counts .object = true) (high : n ≤ expr.height counts)
    (faces : state.Faces (.punctuation '.' :: .name "a" :: kind :: more)) :
    Reaches ((within setting room).subscript true expr) state (kind :: more)
      (Extends counts n) := by
  have property : Reaches expectWord state.advanced (kind :: more) fun _ => True := by
    refine ⟨"a", _, expectWord_eq_ok.mpr ⟨?_, rfl⟩, faces.advanced.advanced, trivial⟩
    rw [faces.advanced.kind_eq]
    rfl
  simp only [Reaches, subscript, run_atPunctuation, faces.isPunctuation_eq, decide_true, if_true,
    run_advance]
  refine property.bind fun word between _ there => ⟨_, _, rfl, there, _, rfl, ?_⟩
  simp only [Expr.height, ExprKind.height, Link.step_of_counted counted]
  omega

theorem call_reaches (counted : counts .callee = true) (high : n ≤ expr.height counts)
    (faces : state.Faces (.punctuation '(' :: .punctuation ')' :: kind :: more)) :
    Reaches ((within setting room).subscript true expr) state (kind :: more)
      (Extends counts n) := by
  have argumentsOk : (within setting room).arguments state.advanced =
      .ok [] state.advanced.advanced := by
    refine bind_eq_ok.mpr ⟨[], state.advanced.advanced, ?_, rfl⟩
    simp only [expressionList, listUntil, run_atPunctuation, faces.advanced.isPunctuation_eq,
      decide_true, if_true]
    rfl
  refine ⟨_, _, subscript_of_arguments faces.kind_eq argumentsOk, faces.advanced.advanced, _,
    rfl, ?_⟩
  simp only [Expr.height, ExprKind.height, Link.step_of_counted counted]
  omega

theorem name_reaches (setting : Setting) (room : Nat)
    (faces : state.Faces (.name "a" :: .punctuation ']' :: more)) :
    Reaches ((within setting (room + 1)).expression true false) state (.punctuation ']' :: more)
      fun _ => True := by
  have isAtom : simpleAtom? state.cursor.current.kind = some (.name "a") := by
    rw [faces.kind_eq]
    rfl
  have ends : state.advanced.cursor.current.EndsExpression :=
    .of_mark faces.advanced.kind_eq (by decide)
  have single : state.advanced.cursor.current.isPunctuation ',' = false := by
    rw [faces.advanced.isPunctuation_eq]
    decide
  obtain ⟨after, ok, same⟩ :=
    expression_of_simpleAtom? setting room true isAtom ends fun _ => single
  refine ⟨_, after, ok, ?_, trivial⟩
  unfold State.Faces
  rw [same]
  exact faces.advanced

theorem index_reaches (counted : counts .indexed = true) (high : n ≤ expr.height counts)
    (faces : state.Faces
      (.punctuation '[' :: .name "a" :: .punctuation ']' :: kind :: more)) :
    Reaches ((within setting (room + 1)).subscript true expr) state (kind :: more)
      (Extends counts n) := by
  have notPoint : state.cursor.current.isPunctuation '.' = false := by
    simp [faces.isPunctuation_eq]
  simp only [Reaches, subscript, run_atPunctuation, notPoint, faces.isPunctuation_eq, decide_true,
    if_true, Bool.false_eq_true, if_false, run_advance]
  refine (name_reaches setting room faces.advanced).bind fun index between _ there => ?_
  refine (Reaches.expectPunctuation there).bind fun closing after _ behind => ?_
  refine ⟨_, _, rfl, behind, _, rfl, ?_⟩
  simp only [Expr.height, ExprKind.height, Link.step_of_counted counted]
  omega

theorem subscripts_reach {first : TokenKind} {tail : List TokenKind}
    (round : ∀ {n expr state kind more}, n ≤ expr.height counts →
      state.Faces (first :: tail ++ kind :: more) →
        Reaches ((within setting room).subscript true expr) state (kind :: more)
          (Extends counts n))
    (faces : state.Faces (.name "a" ::
      ((List.replicate n (first :: tail)).flatten ++ [.punctuation ';', .endOfInput]))) :
    Reaches ((within setting room).operation false) state [.punctuation ';', .endOfInput]
      (n ≤ Expr.height counts ·) := by
  have isAtom : simpleAtom? state.cursor.current.kind = some (.name "a") := by
    rw [faces.kind_eq]
    rfl
  have consumes : (within setting room).deeper.Consumes := Deeper.within_consumes setting room
  have onward : (within setting room).deeper.Follows State.Onward :=
    Deeper.within_obeys setting room
  obtain ⟨result, after, rounds, behind, high⟩ : ∃ result after,
      Rounds ((within setting room).subscript true) _ state.advanced result after ∧
        after.Faces [.punctuation ';', .endOfInput] ∧ n ≤ result.height counts := by
    refine Rounds.exists_of_repeated (fun k expr => k ≤ Expr.height counts expr) ?_
      (Nat.zero_le (Expr.height counts ⟨.name "a", state.cursor.current.span⟩))
      faces.advanced_append
    rintro k value state kind more - - high faces
    exact rounds_of_reaches (round high faces)
  have ends : after.cursor.current.EndsExpression := .of_mark behind.kind_eq (by decide)
  have inside : 0 < after.ahead := by
    rw [behind.ahead_eq]
    decide
  have atomOk : (within setting room).atom true state = .ok result after :=
    bind_eq_ok.mpr ⟨_, _, bareAtom_of_simpleAtom? isAtom,
      iterate_of_rounds rounds (subscript_of_ends ends true _) inside⟩
  exact ⟨result, after,
    operation_of_atom (kind_ne_operator_of_simpleAtom? isAtom) atomOk ends, behind, high⟩

/-! ## Operators -/

theorem unary_of_name (grammar : Grammar)
    (faces : state.Faces (.name "a" :: kind :: more))
    (follows : kind = .operator .add ∨ kind = .punctuation ';') :
    grammar.unary true state = .ok ⟨.name "a", state.cursor.current.span⟩ state.advanced := by
  have isAtom : simpleAtom? state.cursor.current.kind = some (.name "a") := by
    rw [faces.kind_eq]
    rfl
  have unstepped : ∀ expr, stepAfter expr state.advanced = .ok none state.advanced := by
    intro expr
    simp only [stepAfter, run_token, faces.advanced.kind_eq]
    rcases follows with rfl | rfl <;> rfl
  have alone : ∀ expr, grammar.subscript true expr state.advanced = .ok none state.advanced := by
    refine subscript_of_other ?_ true
    intro mark among
    rw [faces.advanced.isPunctuation_eq]
    simp only [List.mem_cons, List.not_mem_nil, or_false] at among
    rcases among with rfl | rfl | rfl <;> rcases follows with rfl | rfl <;> rfl
  have atomOk : grammar.atom true state =
      .ok ⟨.name "a", state.cursor.current.span⟩ state.advanced :=
    bind_eq_ok.mpr ⟨_, _, bareAtom_of_simpleAtom? isAtom, iterate_of_none (alone _)⟩
  simp only [Grammar.unary, run_token, faces.kind_eq]
  exact bind_eq_ok.mpr ⟨_, _, atomOk, iterate_of_none (unstepped _)⟩

theorem sum_reaches {grammar : Grammar} (counted : counts .operand = true)
    (high : n ≤ expr.height counts)
    (follows : kind = .operator .add ∨ kind = .punctuation ';')
    (faces : state.Faces (.operator .add :: .name "a" :: kind :: more)) :
    Reaches (grammar.operatorRound false 0 (grammar.operators false) expr) state (kind :: more)
      (Extends counts n) := by
  have isSum : binaryOperator? false 0 state.cursor.current = some (.add, 9) := by
    simp only [binaryOperator?, faces.kind_eq]
    rfl
  have loose : binaryOperator? false 9 state.advanced.advanced.cursor.current = none := by
    simp only [binaryOperator?, faces.advanced.advanced.kind_eq]
    rcases follows with rfl | rfl <;> rfl
  have operandOk := unary_of_name grammar faces.advanced follows
  have rightOk : grammar.operators false 9
      ⟨.name "a", state.advanced.cursor.current.span⟩ state.advanced.advanced =
        .ok ⟨.name "a", state.advanced.cursor.current.span⟩ state.advanced.advanced := by
    rw [operators_eq]
    exact iterate_of_none (operatorRound_eq_none.mpr ⟨loose, rfl⟩)
  refine ⟨_, _, operatorRound_eq_some.mpr
    ⟨_, _, _, _, _, _, isSum, operandOk, rightOk, run_applyBinary⟩,
    faces.advanced.advanced, _, rfl, ?_⟩
  simp only [Expr.height, ExprKind.height, Link.step_of_counted counted]
  omega

theorem operators_reach (counted : counts .operand = true)
    (faces : state.Faces (.name "a" ::
      ((List.replicate n [.operator .add, .name "a"]).flatten ++
        [.punctuation ';', .endOfInput]))) :
    Reaches ((within setting room).operation false) state [.punctuation ';', .endOfInput]
      (n ≤ Expr.height counts ·) := by
  have consumes : (within setting room).deeper.Consumes := Deeper.within_consumes setting room
  have onward : (within setting room).deeper.Follows State.Onward :=
    Deeper.within_obeys setting room
  obtain ⟨kind, more, following, follows⟩ := TokenKind.repeated_eq_cons n (.operator .add)
    (.punctuation ';') [.name "a"] [.endOfInput]
  have there := faces.advanced_append
  rw [following] at faces
  obtain ⟨result, after, rounds, behind, high⟩ : ∃ result after,
      Rounds ((within setting room).operatorRound false 0 ((within setting room).operators false))
        _ state.advanced result after ∧
        after.Faces [.punctuation ';', .endOfInput] ∧ n ≤ result.height counts := by
    refine Rounds.exists_of_repeated (fun k expr => k ≤ Expr.height counts expr) ?_
      (Nat.zero_le (Expr.height counts ⟨.name "a", state.cursor.current.span⟩)) there
    rintro k value state kind more - follows high faces
    exact rounds_of_reaches (sum_reaches counted high follows faces)
  have ends : after.cursor.current.EndsExpression := .of_mark behind.kind_eq (by decide)
  have inside : 0 < after.ahead := by
    rw [behind.ahead_eq]
    decide
  have ended : (within setting room).operatorRound false 0 ((within setting room).operators false)
      result after = .ok none after := by
    refine operatorRound_eq_none.mpr ⟨?_, rfl⟩
    simp only [binaryOperator?, behind.kind_eq]
  refine ⟨result, after, bind_eq_ok.mpr ⟨_, _, unary_of_name _ faces follows, ?_⟩, behind, high⟩
  rw [operators_eq]
  exact iterate_of_rounds rounds ended inside

/-! ## Scripts -/

/-- A long chain, with a semicolon behind it, at the end of a text. -/
def LongChain (counts : Link → Bool) (n : Nat) (kinds : List TokenKind) : Prop :=
  ∀ {setting state}, state.Faces kinds →
    Reaches ((within setting 1).operation false) state [.punctuation ';', .endOfInput]
      (n ≤ Expr.height counts ·)

theorem simpleStatement_reaches {kinds : List TokenKind} (chain : LongChain counts n kinds)
    (faces : state.Faces kinds) :
    Reaches (within setting 2).simpleStatement state [.endOfInput]
      (n ≤ Statement.height counts ·) := by
  have here : State.Faces { state with scope := Scope.deeper.enter state.scope } kinds := faces
  obtain ⟨expr, after, ok, there, high⟩ := chain here
  have ends : after.cursor.current.EndsExpression := .of_mark there.kind_eq (by decide)
  have single : after.cursor.current.isPunctuation ',' = false := by
    rw [there.isPunctuation_eq]
    decide
  have whole : Reaches ((within setting 2).expression true false) state
      [.punctuation ';', .endOfInput] (n ≤ Expr.height counts ·) :=
    ⟨expr, _, expression_of_operation true ok ends fun _ => single, there, high⟩
  simp only [Reaches, simpleStatement, run_token]
  refine whole.bind fun expr between high there => ?_
  have closed : Reaches (within setting 2).semicolon between [.endOfInput] fun _ => True := by
    simp only [Reaches, semicolon, run_atPunctuation, there.isPunctuation_eq, decide_true, if_true]
    exact ⟨_, _, rfl, there.advanced, trivial⟩
  refine closed.bind fun _ last _ behind => ⟨_, _, rfl, behind, ?_⟩
  simp only [Statement.height, StatementKind.height]
  omega

theorem statement_reaches (chain : LongChain counts n (.name "a" :: kind :: more))
    (unlabeled : kind ≠ .punctuation ':') (faces : state.Faces (.name "a" :: kind :: more)) :
    Reaches (within setting 3).statement state [.endOfInput] (n ≤ Statement.height counts ·) := by
  have any : ∀ {state}, state.Faces (.name "a" :: kind :: more) →
      Reaches (within setting 3).deeper.statement state [.endOfInput]
        (n ≤ Statement.height counts ·) := by
    intro state faces
    refine Reaches.inScope ?_
    have noColon : state.cursor.peek.isPunctuation ':' = false := by
      simp [Token.isPunctuation, faces.peek_kind, unlabeled]
    simp only [Reaches, anyStatement, run_token, faces.kind_eq, run_peek, noColon]
    exact simpleStatement_reaches chain faces
  unfold Grammar.statement
  cases (within setting 3).dialect with
  | script => exact any faces
  | declarative helper component =>
      have noPoint : state.settled.cursor.current.isPunctuation '.' = false := by
        rw [show state.settled.cursor = state.cursor from rfl, faces.isPunctuation_eq]
        decide
      simp only [Reaches, run_takeAwaited, pragmaOr, run_atPunctuation, noPoint]
      have here : state.settled.Faces (.name "a" :: kind :: more) := faces
      exact any here

theorem script_reaches (chain : LongChain counts n (.name "a" :: kind :: more))
    (unlabeled : kind ≠ .punctuation ':') (faces : state.Faces (.name "a" :: kind :: more)) :
    Reaches (within setting 3).script state [.endOfInput] (n ≤ Statement.heightAll counts ·) := by
  obtain ⟨statement, after, ok, there, high⟩ := statement_reaches chain unlabeled faces
  have first : (within setting 3).scriptItem state = .ok (some statement) after := by
    have inside : state.cursor.current.isEnd = false := by simp [Token.isEnd, faces.kind_eq]
    simp only [scriptItem, run_atEnd, inside]
    exact bind_eq_ok.mpr ⟨statement, after, ok, rfl⟩
  have last : (within setting 3).scriptItem after = .ok none after := by
    have atEnd : after.cursor.current.isEnd = true := by simp [Token.isEnd, there.kind_eq]
    simp only [scriptItem, run_atEnd, atEnd]
    rfl
  have inside : 0 < state.ahead := by simp [faces.ahead_eq]
  refine ⟨[statement], after, collect_of_round first last inside, there, ?_⟩
  exact Nat.le_trans high (Nat.le_max_left _ _)

end Grammar

end Qml
