import Qml.Proofs.Operators
import Qml.Grammar.Nesting

/-! # Reading expressions

What is read from given tokens. No operator goes on behind an expression that a
comma, a semicolon, a closing mark or the end of the text follows, so that an
operand there is a whole expression. -/

namespace Qml

open Qml.Parser

def endingMarks : List Char := [',', ';', ')', ']']

def Token.EndsExpression (token : Token) : Prop :=
  token.kind = .endOfInput ∨ ∃ mark ∈ endingMarks, token.kind = .punctuation mark

namespace Token.EndsExpression

variable {token : Token}

theorem of_end (kind : token.kind = .endOfInput) : token.EndsExpression := .inl kind

theorem of_mark {mark : Char} (kind : token.kind = .punctuation mark) (ends : mark ∈ endingMarks) :
    token.EndsExpression :=
  .inr ⟨mark, ends, kind⟩

variable (ends : token.EndsExpression)

include ends

theorem isPunctuation_eq_false (mark : Char) (other : mark ∉ endingMarks) :
    token.isPunctuation mark = false := by
  rcases ends with kind | ⟨ending, among, kind⟩
  · simp [isPunctuation, kind]
  · have differs : ending ≠ mark := fun same => other (same ▸ among)
    simp [isPunctuation, kind, differs]

theorem isOperator_eq_false (operator : Operator) : token.isOperator operator = false := by
  rcases ends with kind | ⟨ending, -, kind⟩ <;> simp [isOperator, kind]

theorem kind_ne_operator (operator : Operator) : token.kind ≠ .operator operator := by
  rcases ends with kind | ⟨ending, -, kind⟩ <;> simp [kind]

theorem binaryOperator?_eq_none (noIn : Bool) (least : Nat) :
    Grammar.binaryOperator? noIn least token = none := by
  unfold Grammar.binaryOperator?
  split
  case h_1 operator kind => exact absurd kind (ends.kind_ne_operator operator)
  case h_2 => rfl

end Token.EndsExpression

namespace Cursor

variable {cursor : Cursor} {token next : Token} {rest : List Token}

theorem current_of_remaining (remaining : cursor.remaining = token :: rest) :
    cursor.current = token :=
  (List.cons.inj remaining).1

theorem isPunctuation_of_remaining (remaining : cursor.remaining = token :: rest) {mark : Char}
    (kind : token.kind = .punctuation mark) : cursor.current.isPunctuation mark = true := by
  rw [current_of_remaining remaining]
  exact decide_eq_true kind

theorem remaining_advance (remaining : cursor.remaining = token :: next :: rest) :
    cursor.advance.remaining = next :: rest := by
  have upcoming : cursor.upcoming = next :: rest := (List.cons.inj remaining).2
  simp [Cursor.remaining, advance, peek, upcoming]

theorem remaining_advance_of_ne_nil (remaining : cursor.remaining = token :: rest)
    (more : rest ≠ []) : cursor.advance.remaining = rest := by
  obtain ⟨next, rest, rfl⟩ := List.exists_cons_of_ne_nil more
  exact remaining_advance remaining

end Cursor

namespace Parser

variable {α : Type} {state after between : State}

theorem collect_of_none {step : Parser (Option α)} (last : step state = .ok none after) :
    collect step state = .ok [] after := by
  simp only [collect, run_remaining, Cursor.remaining]
  exact collectWithin_cons_eq_ok.mpr (.inl ⟨last, rfl⟩)

theorem collect_of_round {step : Parser (Option α)} {value : α}
    (first : step state = .ok (some value) between) (last : step between = .ok none after)
    (inside : 0 < state.ahead) : collect step state = .ok [value] after := by
  obtain ⟨tick, rest, upcoming⟩ := List.exists_cons_of_length_pos inside
  simp only [collect, run_remaining, Cursor.remaining, upcoming]
  exact collectWithin_cons_eq_ok.mpr
    (.inr ⟨value, between, [], first, collectWithin_cons_eq_ok.mpr (.inl ⟨last, rfl⟩), rfl⟩)

theorem iterate_of_round {step : α → Parser (Option α)} {value next : α}
    (first : step value state = .ok (some next) between)
    (last : step next between = .ok none after) (inside : 0 < state.ahead) :
    iterate step value state = .ok next after := by
  obtain ⟨tick, rest, upcoming⟩ := List.exists_cons_of_length_pos inside
  simp only [iterate, run_remaining, Cursor.remaining, upcoming]
  exact iterateWithin_cons_eq_ok.mpr
    (.inr ⟨next, between, first, iterateWithin_cons_eq_ok.mpr (.inl ⟨last, rfl⟩)⟩)

theorem listItem_of_closing {closing : Char} {trailing : Bool} {item : Parser α}
    (closes : state.cursor.current.isPunctuation closing = true) :
    listItem closing trailing item state = .ok none state := by
  simp [listItem, run_atPunctuation, run_pure, closes]

theorem listItem_at_comma {closing : Char} (trailing : Bool) {item : Parser α}
    (comma : state.cursor.current.kind = .punctuation ',') (other : closing ≠ ',') :
    listItem closing trailing item state =
      if trailing && state.advanced.cursor.current.isPunctuation closing then
        .ok none state.advanced
      else (item >>= fun value => pure (some value)) state.advanced := by
  have isComma : state.cursor.current.isPunctuation ',' = true := by
    simp [Token.isPunctuation, comma]
  have notClosing : state.cursor.current.isPunctuation closing = false := by
    simp [Token.isPunctuation, comma, other.symm]
  simp only [listItem, expectPunctuation, bind_assoc, run_atPunctuation, notClosing, isComma,
    Bool.false_eq_true, if_false, if_true, run_advance, run_ite]
  rfl

theorem listItem_of_comma (closing : Char) {item : Parser α} {value : α}
    (comma : state.cursor.current.kind = .punctuation ',') (other : closing ≠ ',')
    (ok : item state.advanced = .ok value after) :
    listItem closing false item state = .ok (some value) after := by
  rw [listItem_at_comma false comma other]
  exact bind_eq_ok.mpr ⟨value, after, ok, rfl⟩

end Parser

namespace Grammar

variable {grammar : Grammar} {state after : State} {expr : Expr}

/-! ## Behind an expression -/

theorem subscript_of_other
    (other : ∀ mark ∈ ['.', '[', '('], state.cursor.current.isPunctuation mark = false)
    (calls : Bool) (expr : Expr) : grammar.subscript calls expr state = .ok none state := by
  simp only [List.forall_mem_cons] at other
  obtain ⟨notPoint, notBracket, notOpening, -⟩ := other
  simp [subscript, run_atPunctuation, run_pure, notPoint, notBracket, notOpening]

section

variable (ends : state.cursor.current.EndsExpression)

include ends

theorem subscript_of_ends (calls : Bool) (expr : Expr) :
    grammar.subscript calls expr state = .ok none state := by
  refine subscript_of_other ?_ calls expr
  intro mark among
  simp only [List.mem_cons, List.not_mem_nil, or_false] at among
  rcases among with rfl | rfl | rfl <;> exact ends.isPunctuation_eq_false _ (by decide)

theorem stepAfter_of_ends (expr : Expr) : stepAfter expr state = .ok none state := by
  have plain := ends.kind_ne_operator
  simp only [stepAfter, run_token]
  rfl

theorem operators_of_ends (least : Nat) (left : Expr) :
    grammar.operators false least left state = .ok left state := by
  rw [operators_eq]
  exact iterate_of_none
    (operatorRound_eq_none.mpr ⟨ends.binaryOperator?_eq_none false least, rfl⟩)

theorem elementOr_of_ends (start : Span) (expr : Expr) :
    grammar.elementOr start expr state = .ok expr state := by
  have notBrace := ends.isPunctuation_eq_false '{' (by decide)
  simp [elementOr, run_atPunctuation, notBrace, run_pure]

theorem assignmentOperator?_of_ends : assignmentOperator? state.cursor.current = none := by
  unfold assignmentOperator?
  split
  case h_1 operator kind => exact absurd kind (ends.kind_ne_operator operator)
  case h_2 => rfl

end

/-! ## Operands alone -/

theorem operation_of_atom (plain : ∀ operator, state.cursor.current.kind ≠ .operator operator)
    (ok : grammar.atom true state = .ok expr after) (ends : after.cursor.current.EndsExpression) :
    grammar.operation false state = .ok expr after := by
  have unaryOk : grammar.unary true state = .ok expr after := by
    simp only [Grammar.unary, run_token]
    exact bind_eq_ok.mpr ⟨expr, after, ok, iterate_of_none (stepAfter_of_ends ends expr)⟩
  exact bind_eq_ok.mpr ⟨expr, after, unaryOk, operators_of_ends ends 0 expr⟩

/-- An operand is a whole expression if nothing but its end follows, and no comma
where it may be one of a sequence. -/
theorem expression_of_operation {setting : Setting} {room : Nat} (commas : Bool)
    (ok : (within setting room).operation false
      { state with scope := Scope.deeper.enter state.scope } = .ok expr after)
    (ends : after.cursor.current.EndsExpression)
    (single : commas = true → after.cursor.current.isPunctuation ',' = false) :
    (within setting (room + 1)).expression commas false state =
      .ok expr (leave Scope.deeper state after) := by
  have notQuestion := ends.isOperator_eq_false .question
  have conditionalOk : (within setting room).conditional false
      { state with scope := Scope.deeper.enter state.scope } = .ok expr after := by
    refine bind_eq_ok.mpr ⟨expr, after, ok, ?_⟩
    simp [run_atOperator, notQuestion, run_pure]
  have assignmentOk : (within setting room).assignment false
      { state with scope := Scope.deeper.enter state.scope } = .ok expr after := by
    simp only [Grammar.assignment, run_token]
    refine bind_eq_ok.mpr ⟨expr, after, conditionalOk, ?_⟩
    simp [run_token, assignmentOperator?_of_ends ends, run_pure]
  have deeperOk : (within setting (room + 1)).deeper.assignment false state =
      .ok expr (leave Scope.deeper state after) := inScope_eq_ok.mpr ⟨after, assignmentOk, rfl⟩
  have itemOk : (within setting (room + 1)).sequenceItem false state =
      .ok expr (leave Scope.deeper state after) := by
    simp only [sequenceItem, run_token]
    refine bind_eq_ok.mpr ⟨_, _, deeperOk, ?_⟩
    cases (within setting (room + 1)).dialect with
    | script => rfl
    | declarative helper component =>
        have there : (leave Scope.deeper state after).cursor.current.EndsExpression := ends
        exact elementOr_of_ends there _ expr
  refine bind_eq_ok.mpr ⟨_, _, itemOk, ?_⟩
  cases commas with
  | false => rfl
  | true =>
      have notComma : (leave Scope.deeper state after).cursor.current.isPunctuation ',' = false :=
        single rfl
      have ended : (within setting (room + 1)).sequenceStep false (leave Scope.deeper state after) =
          .ok none (leave Scope.deeper state after) := by
        simp [sequenceStep, run_atPunctuation, notComma, run_pure]
      exact bind_eq_ok.mpr ⟨_, _, collect_of_none ended, rfl⟩

theorem listedExpression_of_expression
    (ok : grammar.expression false false state = .ok expr after) :
    grammar.listedExpression false state = .ok (some expr) after :=
  bind_eq_ok.mpr ⟨_, _, rfl, bind_eq_ok.mpr ⟨expr, after, ok, rfl⟩⟩

theorem bareAtom_of_simpleAtom? {kind : ExprKind}
    (isAtom : simpleAtom? state.cursor.current.kind = some kind) :
    grammar.bareAtom state = .ok ⟨kind, state.cursor.current.span⟩ state.advanced := by
  simp only [bareAtom, run_token]
  generalize state.cursor.current.kind = found at isAtom ⊢
  cases found <;> cases isAtom <;> rfl

theorem kind_ne_operator_of_simpleAtom? {found : TokenKind} {kind : ExprKind}
    (isAtom : simpleAtom? found = some kind) (operator : Operator) :
    found ≠ .operator operator := by
  rintro rfl
  cases isAtom

theorem subscript_of_arguments {arguments : List Expr}
    (opens : state.cursor.current.kind = .punctuation '(')
    (ok : grammar.arguments state.advanced = .ok arguments after) :
    grammar.subscript true expr state =
      .ok (some ⟨.call expr arguments, expr.span.endingAt after.cursor.previousEnd⟩) after := by
  have isOpening : state.cursor.current.isPunctuation '(' = true := by
    simp [Token.isPunctuation, opens]
  have notPoint : state.cursor.current.isPunctuation '.' = false := by
    simp [Token.isPunctuation, opens]
  have notBracket : state.cursor.current.isPunctuation '[' = false := by
    simp [Token.isPunctuation, opens]
  simp only [subscript, run_atPunctuation, run_advance, isOpening, notPoint, notBracket,
    Bool.false_eq_true, if_false, Bool.and_self, if_true]
  exact bind_eq_ok.mpr ⟨_, _, ok, rfl⟩

theorem expression_of_simpleAtom? (setting : Setting) (room : Nat) (commas : Bool)
    {kind : ExprKind} (isAtom : simpleAtom? state.cursor.current.kind = some kind)
    (ends : state.advanced.cursor.current.EndsExpression)
    (single : commas = true → state.advanced.cursor.current.isPunctuation ',' = false) :
    ∃ after, (within setting (room + 1)).expression commas false state =
      .ok ⟨kind, state.cursor.current.span⟩ after ∧ after.cursor = state.advanced.cursor := by
  let inner : State := { state with scope := Scope.deeper.enter state.scope }
  have here : simpleAtom? inner.cursor.current.kind = some kind := isAtom
  have behind : inner.advanced.cursor.current.EndsExpression := ends
  have atomOk : (within setting room).atom true inner =
      .ok ⟨kind, inner.cursor.current.span⟩ inner.advanced :=
    bind_eq_ok.mpr ⟨_, _, bareAtom_of_simpleAtom? here,
      iterate_of_none (subscript_of_ends behind true _)⟩
  have operationOk := operation_of_atom (kind_ne_operator_of_simpleAtom? here) atomOk behind
  exact ⟨_, expression_of_operation commas operationOk behind single, rfl⟩

theorem exists_argument (setting : Setting) (room : Nat) {token next : Token} {rest : List Token}
    {kind : ExprKind}
    (here : state.cursor.remaining = token :: next :: rest)
    (isAtom : simpleAtom? token.kind = some kind) (ends : next.EndsExpression) :
    ∃ after, (within setting (room + 1)).listedExpression false state =
        .ok (some ⟨kind, token.span⟩) after ∧ after.cursor.remaining = next :: rest := by
  have there := Cursor.remaining_advance here
  have current : state.cursor.current = token := Cursor.current_of_remaining here
  rw [← current] at isAtom
  have behind : state.advanced.cursor.current.EndsExpression := by
    rw [State.advanced_cursor, Cursor.current_of_remaining there]
    exact ends
  obtain ⟨after, ok, same⟩ := expression_of_simpleAtom? setting room false isAtom behind
    (absurd · Bool.false_ne_true)
  rw [current] at ok
  refine ⟨after, listedExpression_of_expression ok, ?_⟩
  rw [same]
  exact there

end Grammar

end Qml
