import Qml.Proofs.InstanceTest.Tokens
import Qml.Proofs.Reading

/-! # Reading the call

A call with three arguments is read from its tokens, once its first argument is.
The other two are single tokens. -/

namespace Qml

open Qml.Parser

namespace CallTokens

open Qml.Grammar

variable {helper value component : String} (call : CallTokens helper value component)
  {setting : Setting} {limit : Nat} {state after : State} {left : Expr}

theorem exists_rest (setting : Setting) (limit : Nat) (here : state.cursor.remaining = call.rest) :
    ∃ final, collect (listItem ')' false
        ((Grammar.within setting (limit + 1)).listedExpression false)) state =
        .ok [some ⟨.string value, call.literal.span⟩,
          some ⟨.name component, call.word.span⟩] final ∧
      final.cursor.remaining = [call.closing, call.last] := by
  have isString : simpleAtom? call.literal.kind = some (.string value) := by
    rw [call.literal_kind]
    rfl
  have isName : simpleAtom? call.word.kind = some (.name component) := by
    rw [call.word_kind]
    rfl
  have atComma : state.cursor.current.kind = .punctuation ',' := by
    rw [Cursor.current_of_remaining here, call.comma_kind]
  have atLiteral : state.advanced.cursor.remaining = _ := Cursor.remaining_advance here
  obtain ⟨second, secondOk, behindLiteral⟩ :=
    exists_argument setting limit atLiteral isString (.of_mark call.secondComma_kind (by decide))
  have atSecondComma : second.cursor.current.kind = .punctuation ',' := by
    rw [Cursor.current_of_remaining behindLiteral, call.secondComma_kind]
  have atWord : second.advanced.cursor.remaining = _ := Cursor.remaining_advance behindLiteral
  obtain ⟨third, thirdOk, behindWord⟩ :=
    exists_argument setting limit atWord isName (.of_mark call.closing_kind (by decide))
  have closes : third.cursor.current.isPunctuation ')' = true := by
    rw [Cursor.current_of_remaining behindWord]
    simp [Token.isPunctuation, call.closing_kind]
  refine ⟨third, ?_, behindWord⟩
  have one := listItem_of_comma ')' atComma (by decide) secondOk
  have two := listItem_of_comma ')' atSecondComma (by decide) thirdOk
  simp only [collect, run_remaining, here, rest]
  refine collectWithin_cons_eq_ok.mpr (.inr ⟨_, _, _, one, ?_, rfl⟩)
  refine collectWithin_cons_eq_ok.mpr (.inr ⟨_, _, _, two, ?_, rfl⟩)
  exact collectWithin_cons_eq_ok.mpr (.inl ⟨listItem_of_closing closes, rfl⟩)

theorem exists_arguments
    (first : (Grammar.within setting limit).operation false
      { state with scope := Scope.deeper.enter state.scope } = .ok left after)
    (behind : after.cursor.remaining = call.rest) :
    ∃ final, (Grammar.within setting (limit + 1)).arguments state =
        .ok [left, ⟨.string value, call.literal.span⟩, ⟨.name component, call.word.span⟩] final ∧
      final.cursor.remaining = [call.last] := by
  have ends : after.cursor.current.EndsExpression := by
    rw [Cursor.current_of_remaining behind]
    exact .of_mark call.comma_kind (by decide)
  have notClosing : state.cursor.current.isPunctuation ')' = false := by
    obtain ⟨operand, between, operandOk, -⟩ := bind_eq_ok.mp first
    exact (unary_firstToken operandOk).2.1 ')' (by simp)
  have firstOk := listedExpression_of_expression
    (expression_of_operation false first ends (absurd · Bool.false_ne_true))
  have there : (leave Scope.deeper state after).cursor.remaining = call.rest := behind
  obtain ⟨last, restOk, atClosing⟩ := call.exists_rest setting limit there
  refine ⟨last.advanced, ?_, Cursor.remaining_advance atClosing⟩
  have listOk : (Grammar.within setting (limit + 1)).expressionList ')' false false state =
      .ok [some left, some ⟨.string value, call.literal.span⟩,
        some ⟨.name component, call.word.span⟩] last.advanced := by
    simp only [expressionList, listUntil, run_atPunctuation, notClosing, Bool.false_eq_true,
      if_false]
    refine bind_eq_ok.mpr ⟨_, _, firstOk, ?_⟩
    exact bind_eq_ok.mpr ⟨_, _, restOk, rfl⟩
  exact bind_eq_ok.mpr ⟨_, _, listOk, rfl⟩

/-- The whole text is the call, if its first argument is read as `left`. -/
theorem exists_expression (here : state.cursor.remaining = call.all)
    (first : (Grammar.within setting limit).operation false
      { state with
        cursor := state.cursor.advance.advance
        scope := Scope.deeper.enter (Scope.deeper.enter state.scope) } = .ok left after)
    (behind : after.cursor.remaining = call.rest) :
    ∃ span final, (Grammar.within setting (limit + 2)).expression false false state =
        .ok ⟨.call ⟨.name helper, call.name.span⟩
          [left, ⟨.string value, call.literal.span⟩, ⟨.name component, call.word.span⟩], span⟩
          final ∧
      final.cursor.current = call.last := by
  let inner : State := { state with scope := Scope.deeper.enter state.scope }
  have atName : inner.cursor.current = call.name := Cursor.current_of_remaining here
  have atOpening : inner.advanced.cursor.remaining = _ := Cursor.remaining_advance here
  have isName : simpleAtom? inner.cursor.current.kind = some (.name helper) := by
    rw [atName, call.name_kind]
    rfl
  obtain ⟨final, argumentsOk, atLast⟩ : ∃ final,
      (Grammar.within setting (limit + 1)).arguments inner.advanced.advanced = .ok _ final ∧ _ :=
    call.exists_arguments first behind
  have ends : final.cursor.current.EndsExpression := by
    rw [Cursor.current_of_remaining atLast]
    exact .of_end call.last_kind
  have opens : inner.advanced.cursor.current.kind = .punctuation '(' := by
    rw [Cursor.current_of_remaining atOpening, call.opening_kind]
  have ahead : 0 < inner.advanced.ahead := by
    have upcoming : inner.advanced.cursor.upcoming = _ := (List.cons.inj atOpening).2
    unfold State.ahead
    rw [upcoming]
    simp [rest]
  have atomOk : (Grammar.within setting (limit + 1)).atom true inner = .ok _ final :=
    bind_eq_ok.mpr ⟨_, _, bareAtom_of_simpleAtom? isName,
      iterate_of_round (subscript_of_arguments opens argumentsOk)
        (subscript_of_ends ends true _) ahead⟩
  have whole := expression_of_operation false
    (operation_of_atom (kind_ne_operator_of_simpleAtom? isName) atomOk ends) ends
    (absurd · Bool.false_ne_true)
  rw [atName] at whole
  exact ⟨_, _, whole, Cursor.current_of_remaining atLast⟩

end CallTokens

end Qml
