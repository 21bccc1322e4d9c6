import Qml.Proofs.EarlierPatches
import Qml.Proofs.Termination

/-! # Precedence

Operands between binary operators are put together in the one tree in which every
operator binds tighter than those above it, or, on the left, as tight. -/

namespace Qml

open Qml.Parser

/-! ## Trees of operators -/

/-- Binary operators over operands, which may be operations themselves if they
stand in parentheses. -/
inductive OperatorTree where
  | operand (expr : Expr)
  | node (operator : Operator) (left right : OperatorTree)

namespace OperatorTree

def first : OperatorTree → Expr
  | operand expr => expr
  | node _ left _ => left.first

def last : OperatorTree → Expr
  | operand expr => expr
  | node _ _ right => right.last

def rest : OperatorTree → List (Operator × Expr)
  | operand _ => []
  | node operator left right => left.rest ++ (operator, right.first) :: right.rest

/-- The expression that a tree stands for. Each of its nodes lies from the start of
its leftmost operand to the end of its rightmost one. -/
def expr : OperatorTree → Expr
  | operand expr => expr
  | node operator left right =>
    ⟨.binary operator left.expr right.expr, ⟨left.first.span.origin, right.last.span.stop⟩⟩

def precedence? : OperatorTree → Option Nat
  | operand _ => none
  | node operator _ _ => operator.precedence?

/-- Operators below another one bind tighter, or as tight on its left. -/
inductive Ordered : OperatorTree → Prop
  | operand (expr : Expr) : Ordered (operand expr)
  | node {operator : Operator} {left right : OperatorTree} {precedence : Nat}
      (binary : operator.precedence? = some precedence) (left_ordered : left.Ordered)
      (right_ordered : right.Ordered)
      (left_le : ∀ below, left.precedence? = some below → precedence ≤ below)
      (right_lt : ∀ below, right.precedence? = some below → precedence < below) :
      Ordered (node operator left right)

theorem expr_span (tree : OperatorTree) :
    tree.expr.span = ⟨tree.first.span.origin, tree.last.span.stop⟩ := by
  cases tree <;> rfl

theorem Ordered.least {tree : OperatorTree} {bound : Nat} (ordered : tree.Ordered)
    (top : ∀ precedence, tree.precedence? = some precedence → bound ≤ precedence) :
    ∀ pair ∈ tree.rest,
      ∃ precedence, pair.1.precedence? = some precedence ∧ bound ≤ precedence := by
  induction ordered with
  | operand expr => exact fun _ absent => absurd absent List.not_mem_nil
  | @node operator left right precedence binary _ _ left_le right_lt leftLeast rightLeast =>
      have here : bound ≤ precedence := top precedence binary
      intro pair member
      rcases List.mem_append.mp member with inLeft | member
      · exact leftLeast (fun below found => Nat.le_trans here (left_le below found)) pair inLeft
      · rcases List.mem_cons.mp member with rfl | inRight
        · exact ⟨precedence, binary, here⟩
        · refine rightLeast (fun below found => ?_) pair inRight
          exact Nat.le_trans here (Nat.le_of_lt (right_lt below found))

section

variable {operator operator' : Operator} {left left' right right' : OperatorTree}
  (ordered : (OperatorTree.node operator left right).Ordered)
  (ordered' : (OperatorTree.node operator' left' right').Ordered)

include ordered ordered'

/-- Of two ordered trees with the same operators, the topmost operator of one does
not stand before that of the other. -/
theorem Ordered.not_before {between : List (Operator × Expr)} {operand operand' : Expr}
    (before : left'.rest = left.rest ++ (operator, operand) :: between)
    (behind : (operator', operand') ∈ right.rest) : False := by
  cases ordered with
  | node binary _ right_ordered _ right_lt =>
      cases ordered' with
      | node binary' left_ordered' _ left_le' _ =>
          obtain ⟨found, foundEq, tighter⟩ := right_ordered.least right_lt _ behind
          obtain ⟨found', foundEq', tight⟩ := left_ordered'.least left_le' (operator, operand)
            (by simp [before])
          cases binary'.symm.trans foundEq
          cases binary.symm.trans foundEq'
          omega

theorem Ordered.split_eq
    (rest : (OperatorTree.node operator left right).rest =
      (OperatorTree.node operator' left' right').rest) :
    left.rest = left'.rest ∧
      (operator, right.first) :: right.rest = (operator', right'.first) :: right'.rest := by
  rcases List.append_eq_append_iff.mp rest with
    ⟨between, before, behind⟩ | ⟨between, before, behind⟩
  · cases between with
    | nil => exact ⟨(before.trans (List.append_nil _)).symm, behind⟩
    | cons pair between =>
        obtain ⟨rfl, restEq⟩ := List.cons.inj behind
        have later : (operator', right'.first) ∈ right.rest := by simp [restEq]
        exact (ordered.not_before ordered' before later).elim
  · cases between with
    | nil => exact ⟨before.trans (List.append_nil _), behind.symm⟩
    | cons pair between =>
        obtain ⟨rfl, restEq⟩ := List.cons.inj behind
        have later : (operator, right.first) ∈ right'.rest := by simp [restEq]
        exact (ordered'.not_before ordered before later).elim

end

theorem Ordered.unique {tree other : OperatorTree} (ordered : tree.Ordered)
    (ordered' : other.Ordered) (first : tree.first = other.first) (rest : tree.rest = other.rest) :
    tree = other := by
  induction tree generalizing other with
  | operand expr =>
      cases other with
      | operand expr' => exact congrArg OperatorTree.operand first
      | node operator' left' right' => simp [OperatorTree.rest] at rest
  | node operator left right leftUnique rightUnique =>
      cases other with
      | operand expr' => simp [OperatorTree.rest] at rest
      | node operator' left' right' =>
          obtain ⟨leftRest, behind⟩ := ordered.split_eq ordered' rest
          simp only [List.cons.injEq, Prod.mk.injEq] at behind
          obtain ⟨⟨rfl, rightFirst⟩, rightRest⟩ := behind
          cases ordered with
          | node _ left_ordered right_ordered _ _ =>
              cases ordered' with
              | node _ left_ordered' right_ordered' _ _ =>
                  rw [leftUnique left_ordered left_ordered' first leftRest,
                    rightUnique right_ordered right_ordered' rightFirst rightRest]

end OperatorTree

/-! ## Operands one by one -/

namespace Grammar

/-- The operators behind an operand, each with the operand that is read behind it, up
to a token that is no binary operator. Where `in` is banned it is none. -/
inductive Operands (grammar : Grammar) (noIn : Bool) :
    State → List (Operator × Expr) → State → Prop
  | done {state : State} (ends : binaryOperator? noIn 0 state.cursor.current = none) :
      Operands grammar noIn state [] state
  | pair {state between after : State} {operator : Operator} {precedence : Nat} {operand : Expr}
      {rest : List (Operator × Expr)}
      (operator? : binaryOperator? noIn 0 state.cursor.current = some (operator, precedence))
      (read : grammar.unary true state.advanced = .ok operand between)
      (more : Operands grammar noIn between rest after) :
      Operands grammar noIn state ((operator, operand) :: rest) after

section

variable {noIn : Bool} {least precedence : Nat} {found : Token} {operator : Operator}

theorem binaryOperator?_of_lt (tight : least < precedence)
    (operator? : binaryOperator? noIn 0 found = some (operator, precedence)) :
    binaryOperator? noIn least found = some (operator, precedence) := by
  obtain ⟨isOperator, binary, -, allowed⟩ := binaryOperator?_eq_some.mp operator?
  exact binaryOperator?_eq_some.mpr ⟨isOperator, binary, tight, allowed⟩

theorem binaryOperator?_eq_none_of_forall
    (loose : ∀ {operator precedence}, binaryOperator? noIn 0 found = some (operator, precedence) →
      precedence ≤ least) : binaryOperator? noIn least found = none := by
  cases operator? : binaryOperator? noIn least found with
  | none => rfl
  | some pair =>
      obtain ⟨isOperator, binary, tight, allowed⟩ := binaryOperator?_eq_some.mp operator?
      have within := loose (binaryOperator?_eq_some.mpr ⟨isOperator, binary, by omega, allowed⟩)
      omega

/-- An operator at which a tighter one ends is at most as tight. -/
theorem le_of_binaryOperator?_eq_none (ends : binaryOperator? noIn least found = none)
    (operator? : binaryOperator? noIn 0 found = some (operator, precedence)) :
    precedence ≤ least := by
  by_contra tight
  rw [binaryOperator?_of_lt (by omega) operator?] at ends
  cases ends

end

variable {setting : Setting} {room : Nat} {noIn : Bool} {least : Nat}

theorem operators_of_round {left next : Expr} {state between : State}
    (inText : state.cursor.Over setting.source)
    (round : (Grammar.within setting room).operatorRound noIn least
      ((Grammar.within setting room).operators noIn) left state = .ok (some next) between) :
    (Grammar.within setting room).operators noIn least left state =
      (Grammar.within setting room).operators noIn least next between := by
  have turn : (Grammar.within setting room).Turn
      ((Grammar.within setting room).operatorRound noIn least
        ((Grammar.within setting room).operators noIn)) := .operators noIn least
  rw [operators_eq]
  exact iterate_eq_of_round (turn.shortens setting.source) inText round

theorem operators_of_none {left : Expr} {state : State} (grammar : Grammar)
    (ends : binaryOperator? noIn least state.cursor.current = none) :
    grammar.operators noIn least left state = .ok left state := by
  rw [operators_eq]
  exact iterate_of_none (operatorRound_eq_none.mpr ⟨ends, rfl⟩)

end Grammar

/-- A tree of operators that bind tighter than `least`, as it stands at a place
where no operator follows that would have to go below it. -/
structure OperatorTree.Stands (noIn : Bool) (least : Nat) (tree : OperatorTree) (state : State) :
    Prop where
  ordered : tree.Ordered
  tight : ∀ precedence, tree.precedence? = some precedence → least < precedence
  next : ∀ precedence, tree.precedence? = some precedence → ∀ {operator following},
    Grammar.binaryOperator? noIn 0 state.cursor.current = some (operator, following) →
      following ≤ precedence
  stop_le : tree.last.span.stop ≤ state.cursor.previousEnd

/-- Reading the operators that follow turns one tree into another, which takes in
some of the operands, up to an operator that does not bind tighter than `least`. -/
structure Grammar.Grows (grammar : Grammar) (noIn : Bool) (least : Nat) (tree : OperatorTree)
    (other : State) (result : OperatorTree) (used : List (Operator × Expr)) (between last : State) :
    Prop where
  ok : grammar.operators noIn least tree.expr other = .ok result.expr last
  meets : between.Meets grammar.source last
  stands : result.Stands noIn least between
  first_eq : result.first = tree.first
  rest_eq : result.rest = tree.rest ++ used
  ends : binaryOperator? noIn least between.cursor.current = none

namespace Grammar

theorem stop_of_mem_testPatches {setting : Setting} {left right : Span} {patch : Patch}
    (member : patch ∈ setting.testPatches left right) : patch.stop = right.stop := by
  unfold Setting.testPatches at member
  split at member
  · cases member
  · rw [List.mem_singleton.mp member]
    rfl

variable {setting : Setting} {room : Nat} {noIn : Bool} {least : Nat} {tree : OperatorTree}
  {state other after : State}

theorem grows_of_none (meets : state.Meets setting.source other)
    (stands : tree.Stands noIn least state)
    (ends : binaryOperator? noIn least state.cursor.current = none) :
    (Grammar.within setting room).Grows noIn least tree other tree [] state other where
  ok := operators_of_none _ (meets.cursor_eq ▸ ends)
  meets := meets
  stands := stands
  first_eq := rfl
  rest_eq := (List.append_nil _).symm
  ends := ends

/-- An operator that binds tighter than `least` goes above the tree so far and above
what its right operand becomes by tighter operators. -/
theorem exists_round {operator : Operator} {precedence : Nat} {operand : Expr}
    {right : OperatorTree} {used : List (Operator × Expr)} {read place last : State}
    (meets : state.Meets setting.source other) (stands : tree.Stands noIn least state)
    (operator? : binaryOperator? noIn 0 state.cursor.current = some (operator, precedence))
    (tight : least < precedence)
    (operandOk : (Grammar.within setting room).unary true other.advanced = .ok operand read)
    (growth : (Grammar.within setting room).Grows noIn precedence (.operand operand) read right
      used place last) :
    ∃ next, (Grammar.within setting room).operatorRound noIn least
        ((Grammar.within setting room).operators noIn) tree.expr other =
          .ok (some (OperatorTree.node operator tree right).expr) next ∧
      place.Meets setting.source next ∧
      (OperatorTree.node operator tree right).Stands noIn least place := by
  have here : binaryOperator? noIn least other.cursor.current = some (operator, precedence) := by
    rw [meets.cursor_eq]
    exact binaryOperator?_of_lt tight operator?
  have binary := (binaryOperator?_eq_some.mp here).2.1
  have applied : (Grammar.within setting room).applyBinary operator tree.expr right.expr last = _ :=
    run_applyBinary
  rw [tree.expr_span, right.expr_span] at applied
  refine ⟨_, operatorRound_eq_some.mpr ⟨operator, precedence, operand, read, right.expr, last, here,
    operandOk, growth.ok, applied⟩, growth.meets.patched ?_, ?_⟩
  · intro patch member
    split at member
    case isTrue =>
        rw [stop_of_mem_testPatches member]
        exact growth.stands.stop_le
    case isFalse => cases member
  · refine ⟨.node binary stands.ordered growth.stands.ordered ?_ growth.stands.tight, ?_, ?_,
      growth.stands.stop_le⟩
    · exact fun below found => stands.next below found operator?
    · intro top topEq
      cases binary.symm.trans topEq
      exact tight
    · intro top topEq operator' following found
      cases binary.symm.trans topEq
      exact le_of_binaryOperator?_eq_none growth.ends found

theorem operand_stands {expr : Expr} (stop : expr.span.stop = state.cursor.previousEnd) :
    (OperatorTree.operand expr).Stands noIn least state where
  ordered := .operand expr
  tight := nofun
  next := nofun
  stop_le := Nat.le_of_eq stop

theorem exists_grows {rest : List (Operator × Expr)}
    (operands : (Grammar.within setting room).Operands noIn state rest after)
    (meets : state.Meets setting.source other) (stands : tree.Stands noIn least state) :
    ∃ result used left between last,
      (Grammar.within setting room).Grows noIn least tree other result used between last ∧
        rest = used ++ left ∧ (Grammar.within setting room).Operands noIn between left after := by
  -- On the number of operands that are left: the right operand of the next operator
  -- takes in some of them, and the tree with this operator on top goes on behind these.
  induction length : rest.length using Nat.strongRecOn
    generalizing rest least tree state other with
  | ind length induction =>
      subst length
      cases operands with
      | done ends =>
          have none : binaryOperator? noIn least after.cursor.current = none := by
            refine binaryOperator?_eq_none_of_forall fun operator? => ?_
            rw [ends] at operator?
            cases operator?
          exact ⟨tree, [], [], after, other, grows_of_none meets stands none, rfl, .done ends⟩
      | @pair _ between _ operator precedence operand rest operator? read more =>
          by_cases tight : least < precedence
          case neg =>
              have none : binaryOperator? noIn least state.cursor.current = none := by
                refine binaryOperator?_eq_none_of_forall fun found => ?_
                rw [operator?] at found
                cases found
                omega
              exact ⟨tree, [], _, state, other, grows_of_none meets stands none, rfl,
                .pair operator? read more⟩
          case pos =>
              have solid := Token.isSolid_of_isOperator (binaryOperator?_eq_some.mp operator?).1
              obtain ⟨between', read', meets'⟩ := unary_of_meets meets solid read
              have stop := (reached_of_unary (meets.reached.advanced solid) read).2
              obtain ⟨right, inner, behind, place, last, growth, rfl, operands⟩ :=
                induction _ (Nat.lt_succ_self _) more meets' (operand_stands stop) rfl
              obtain ⟨next, round, meetsNext, standsNext⟩ :=
                exists_round meets stands operator? tight read' growth
              have fewer : behind.length < ((operator, operand) :: (inner ++ behind)).length := by
                rw [List.length_cons, List.length_append]
                omega
              obtain ⟨result, used, left, final, final', whole, rfl, remaining⟩ :=
                induction _ fewer operands meetsNext standsNext rfl
              have restEq : result.rest = tree.rest ++ (operator, operand) :: (inner ++ used) := by
                rw [whole.rest_eq, OperatorTree.rest, growth.first_eq, growth.rest_eq]
                simp [OperatorTree.first, OperatorTree.rest]
              refine ⟨result, (operator, operand) :: (inner ++ used), left, final, final', ?_,
                by simp, remaining⟩
              exact ⟨(operators_of_round meets.reached'.inText round).trans whole.ok, whole.meets,
                whole.stands, whole.first_eq, restEq, whole.ends⟩

end Grammar

/-- Operands with binary operators between them, which can be read one by one, are
read as the one ordered tree that has them in this order. -/
theorem operations_are_ordered_trees (setting : Setting) (room : Nat) {noIn : Bool}
    {state between after : State} {first : Expr} {rest : List (Operator × Expr)}
    (reached : state.Reached setting.source)
    (firstOk : (Grammar.within setting room).unary true state = .ok first between)
    (operands : (Grammar.within setting room).Operands noIn between rest after) :
    ∃ tree last, (Grammar.within setting room).operation noIn state = .ok tree.expr last ∧
      last.cursor = after.cursor ∧ tree.first = first ∧ tree.rest = rest ∧ tree.Ordered ∧
      ∀ other : OperatorTree, other.Ordered → other.first = first → other.rest = rest →
        other = tree := by
  obtain ⟨reachedBetween, stop⟩ := Grammar.reached_of_unary reached firstOk
  have stands : (OperatorTree.operand first).Stands noIn 0 between := Grammar.operand_stands stop
  obtain ⟨tree, used, left, place, last, growth, rfl, remaining⟩ :=
    Grammar.exists_grows operands (.refl reachedBetween) stands
  cases remaining with
  | pair operator? =>
      rw [growth.ends] at operator?
      cases operator?
  | done =>
      have restEq : tree.rest = used ++ [] := growth.rest_eq.trans (by simp [OperatorTree.rest])
      refine ⟨tree, last, bind_eq_ok.mpr ⟨first, between, firstOk, growth.ok⟩,
        growth.meets.cursor_eq, growth.first_eq, restEq, growth.stands.ordered, ?_⟩
      intro other ordered sameFirst sameRest
      exact ordered.unique growth.stands.ordered (sameFirst.trans growth.first_eq.symm)
        (sameRest.trans restEq.symm)

theorem operation_with_test_is_ordered_tree :
    let text := "a instanceof b == [c];".toList
    let grammar := Grammar.within ⟨text, false, .declarative "f" "g"⟩ 8
    (State.ofText text).Reached text ∧
      ∃ first second third between after last, ∃ tree : OperatorTree,
        grammar.unary true (.ofText text) = .ok first between ∧
        grammar.Operands false between [(.instanceOf, second), (.equal, third)] after ∧
        grammar.operation false (.ofText text) = .ok tree.expr last ∧ tree.first = first ∧
        tree.rest = [(.instanceOf, second), (.equal, third)] ∧ tree.Ordered := by
  intro text grammar
  have read : (match grammar.unary true (.ofText text) with
      | .ok _ one => (Grammar.binaryOperator? false 0 one.cursor.current,
        match grammar.unary true one.advanced with
        | .ok _ two => (Grammar.binaryOperator? false 0 two.cursor.current,
          match grammar.unary true two.advanced with
          | .ok _ three => some (Grammar.binaryOperator? false 0 three.cursor.current)
          | .error _ _ => none)
        | .error _ _ => (none, none))
      | .error _ _ => (none, none, none)) =
        (some (.instanceOf, 7), some (.equal, 6), some none) := by decide +kernel
  cases firstOk : grammar.unary true (.ofText text) with
  | error fault state => simp [firstOk] at read
  | ok first one =>
  cases secondOk : grammar.unary true one.advanced with
  | error fault state => simp [firstOk, secondOk] at read
  | ok second two =>
  cases thirdOk : grammar.unary true two.advanced with
  | error fault state => simp [firstOk, secondOk, thirdOk] at read
  | ok third three =>
      simp only [firstOk, secondOk, thirdOk, Prod.mk.injEq, Option.some.injEq] at read
      obtain ⟨test, equal, ends⟩ := read
      have reached := State.reached_ofText text
      have operands : grammar.Operands false one [(.instanceOf, second), (.equal, third)] three :=
        .pair test secondOk (.pair equal thirdOk (.done ends))
      obtain ⟨tree, last, ok, -, sameFirst, sameRest, ordered, -⟩ :=
        operations_are_ordered_trees _ 8 reached firstOk operands
      exact ⟨reached, first, second, third, one, three, last, tree, rfl, operands, ok, sameFirst,
        sameRest, ordered⟩

end Qml
