import Qml.Proofs.Scope

/-! # The context is restored

Six pieces of context guide a parse: the depth, the functions, loops and labels
around a statement, whether keys are strings, and whether a value is awaited.
Each production saves, raises or clears some of them and calls others that do the
same. Whether a production succeeds or fails, it leaves all six as it found them,
provided that no value is awaited when it begins. Only the members of a block may
turn keys into strings, and the block around them takes that back. -/

namespace Qml

open Qml.Parser

namespace Grammar

/-- The productions of a grammar, other than those for the members of a block. -/
inductive Production (grammar : Grammar) : {α : Type} → Parser α → Prop
  -- Contexts of other productions
  | nested {α : Type} {parser : Parser α} :
      Production grammar parser → Production grammar (inScope Scope.deeper parser)
  | capture {α : Type} {parser : Parser α} :
      Production grammar parser → Production grammar (grammar.capture parser)
  | captureBody {α : Type} {parser : Parser α} :
      Production grammar parser → Production grammar (grammar.captureBody parser)
  -- Tokens
  | expectPunctuation (mark : Char) : Production grammar (expectPunctuation mark)
  | expectNameOf (text : String) : Production grammar (expectNameOf text)
  | expectKeyword (keyword : Keyword) : Production grammar (expectKeyword keyword)
  | expectName : Production grammar expectName
  | expectWord : Production grammar expectWord
  | semicolon : Production grammar grammar.semicolon
  -- Statements
  | statement : Production grammar grammar.statement
  | scriptStatement : Production grammar grammar.deeper.statement
  | anyStatement : Production grammar grammar.anyStatement
  | keywordStatement (keyword : Keyword) (start : Span) :
      Production grammar (grammar.keywordStatement keyword start)
  | simpleStatement : Production grammar grammar.simpleStatement
  | labeledStatement (label : String) (start : Span) :
      Production grammar (grammar.labeledStatement label start)
  | jump (keyword : Keyword) : Production grammar (grammar.jump keyword)
  | loopBody : Production grammar grammar.loopBody
  | forTail : Production grammar grammar.forTail
  | block : Production grammar grammar.block
  | switchBlock : Production grammar grammar.switchBlock
  | switchCases : Production grammar (collect grammar.switchCase)
  | tryTail : Production grammar grammar.tryTail
  | declarators (noIn : Bool) : Production grammar (grammar.declarators noIn)
  | function (named : Bool) (start : Span) : Production grammar (grammar.function named start)
  -- Expressions
  | parenthesized : Production grammar grammar.parenthesized
  | expression (commas noIn : Bool) : Production grammar (grammar.expression commas noIn)
  | scriptExpression (commas noIn : Bool) :
      Production grammar (grammar.scriptExpression commas noIn)
  | sequenceTail (commas noIn : Bool) (first : Expr) :
      Production grammar (grammar.sequenceTail commas noIn first)
  | nestedAssignment (noIn : Bool) : Production grammar (grammar.deeper.assignment noIn)
  | assignment (noIn : Bool) : Production grammar (grammar.assignment noIn)
  | conditional (noIn : Bool) : Production grammar (grammar.conditional noIn)
  | operation (noIn : Bool) : Production grammar (grammar.operation noIn)
  | operators (noIn : Bool) (least : Nat) (left : Expr) :
      Production grammar (grammar.operators noIn least left)
  | applyBinary (operator : Operator) (left right : Expr) :
      Production grammar (grammar.applyBinary operator left right)
  | nestedUnary (calls : Bool) : Production grammar (grammar.deeper.unary calls)
  | unary (calls : Bool) : Production grammar (grammar.unary calls)
  | applyUnary (operator : Operator) (fixity : Fixity) (operand : Expr) (start : Span) :
      Production grammar (applyUnary operator fixity operand start)
  | nestedAtom (calls : Bool) : Production grammar (grammar.deeper.atom calls)
  | atom (calls : Bool) : Production grammar (grammar.atom calls)
  | construction (start : Span) : Production grammar (grammar.construction start)
  | expressionList (closing : Char) (trailing holes : Bool) :
      Production grammar (grammar.expressionList closing trailing holes)
  | scriptArray (opening : Span) : Production grammar (grammar.scriptArray opening)
  | array (opening : Span) : Production grammar (grammar.array opening)
  | object (opening : Span) : Production grammar (grammar.object opening)
  | propertyName : Production grammar propertyName
  | subscripts (calls : Bool) (expr : Expr) : Production grammar (grammar.subscripts calls expr)
  -- Declarative text
  | pragma : Production grammar pragma
  | slotStatement : Production grammar (grammar.slot grammar.deeper.statement)
  | slotExpression : Production grammar (grammar.slot grammar.bareExpression)
  | propertyValue : Production grammar grammar.propertyValue
  | keyedValue : Production grammar grammar.keyedValue
  | aliasPath : Production grammar aliasPath
  | declaration (readonly : Bool) (start : Span) :
      Production grammar (grammar.declaration readonly start)
  | signal (start : Span) : Production grammar (signal start)
  | method : Production grammar grammar.method
  | qualifiedName : Production grammar qualifiedName
  | namedMember (stringKeys : Bool) (name : String) (start : Span) :
      Production grammar (grammar.namedMember stringKeys name start)
  | memberBlock : Production grammar grammar.memberBlock
  -- Whole texts
  | importItem : Production grammar importItem
  | document : Production grammar grammar.document
  | script : Production grammar grammar.script

inductive MemberProduction (grammar : Grammar) : {α : Type} → Parser α → Prop
  | member (first : Bool) : MemberProduction grammar (grammar.member first)
  | members : MemberProduction grammar grammar.members

/-! ## Members that are not the first -/

variable (grammar : Grammar) [grammar.deeper.KeepsScope]

theorem memberByToken_keepsContext {stringKeys : Bool} {start : Span} {state : State}
    (keyed : stringKeys = true → state.scope.stringKeys = true) :
    ObeysAt (Steps State.SameContext) (grammar.memberByToken false stringKeys start) state := by
  have keysOn : stringKeys = true → enterStringKeys state = .ok () state := by
    intro isKeyed
    simp [enterStringKeys, Scope.withStringKeys, ← keyed isKeyed]
  refine Obeys.bindAt (Obeys.holds state) ?_
  rintro found _ ⟨⟩
  split
  case h_3 key _ =>
      split
      case isTrue isKeyed =>
          have entered := keysOn (by simpa using isKeyed)
          refine Obeys.bindAt ?_ fun _ => Obeys.holds _
          unfold ObeysAt
          rw [entered]
          exact ⟨rfl, id⟩
      case isFalse => exact Obeys.holds state
  all_goals exact Obeys.holds state

theorem member_keepsContext : Follows State.SameContext (grammar.member false) := by
  constructor
  intro state
  refine Obeys.bindAt (Obeys.holds state) ?_
  rintro start _ ⟨⟩
  refine Obeys.bindAt (Obeys.holds state) ?_
  rintro scope _ ⟨⟩
  split
  case isTrue keyed =>
      refine Obeys.bindAt (Obeys.holds state) fun {found between} ok => ?_
      have still : between.scope.stringKeys = true := by
        rw [scope_of_ok ok]
        exact keyed
      refine Obeys.bindAt (Obeys.holds between) ?_
      rintro closed _ ⟨⟩
      split
      · exact Obeys.holds between
      · exact grammar.memberByToken_keepsContext fun _ => still
  case isFalse =>
      split
      · exact Obeys.holds state
      · split
        · exact Obeys.holds state
        · exact grammar.memberByToken_keepsContext nofun

theorem rootElement_keepsContext : Follows State.SameContext grammar.rootElement := by
  refine Obeys.bind_token fun start _ => Obeys.bind grammar.member_keepsContext fun found => ?_
  split <;> infer_instance

theorem document_keepsContext : Follows State.SameContext grammar.document := by
  have root := grammar.rootElement_keepsContext
  unfold document
  infer_instance

end Grammar

/-- The context is as before, and no value is awaited. -/
structure State.Restored (before after : State) : Prop where
  scope_eq : after.scope = before.scope
  settled : after.awaitsValue = false

namespace Grammar

/-- Where no value is awaited, a statement of declarative text is what stands in
the slot that a value would take. -/
theorem statement_eq_slot (grammar : Grammar) (declarative : grammar.dialect ≠ .script)
    {state : State} (settled : state.awaitsValue = false) :
    grammar.statement state = grammar.slot grammar.deeper.statement state := by
  unfold statement slot
  cases dialectEq : grammar.dialect with
  | script => exact absurd dialectEq declarative
  | declarative helper component =>
      simp only [run_takeAwaited, settled, Bool.false_eq_true, if_false]

theorem Production.keepsContext {setting : Setting} {room : Nat} {α : Type}
    {parser : Parser α} (production : (Grammar.within setting room).Production parser) :
    Follows State.SameContext parser := by
  have levels : (Grammar.within setting room).deeper.KeepsScope :=
    Deeper.within_keepsScope setting room
  induction production
  case document => exact Grammar.document_keepsContext _
  all_goals infer_instance

theorem MemberProduction.keepsAllButKeys {setting : Setting} {room : Nat} {α : Type}
    {parser : Parser α} (production : (Grammar.within setting room).MemberProduction parser) :
    Follows State.SameButKeys parser := by
  have levels : (Grammar.within setting room).deeper.Follows State.SameButKeys :=
    Deeper.within_obeys setting room
  cases production <;> infer_instance

end Grammar

/-- Every production restores the context, whether it succeeds or fails. Members
of a block may only turn keys into strings. -/
theorem context_is_restored (setting : Setting) (room : Nat) :
    (∀ {α : Type} {parser : Parser α}, (Grammar.within setting room).Production parser →
      ∀ state : State, state.awaitsValue = false →
        state.Restored (finalState (parser state))) ∧
    (∀ {α : Type} {parser : Parser α}, (Grammar.within setting room).MemberProduction parser →
      ∀ state : State, state.awaitsValue = false →
        state.Restored (finalState (parser state)) ∨
          { state with scope := state.scope.withStringKeys }.Restored
            (finalState (parser state))) := by
  constructor
  · intro α parser production state settled
    have same : state.SameContext _ := production.keepsContext.holds state
    exact ⟨same.scope_eq, same.awaits settled⟩
  · intro α parser production state settled
    have same : state.SameButKeys _ := production.keepsAllButKeys.holds state
    rcases same.scope_eq with same_scope | keyed
    · exact .inl ⟨same_scope, same.awaits settled⟩
    · exact .inr ⟨keyed, same.awaits settled⟩

theorem context_is_restored_inside :
    let loop := "a: while (b) c: d(function () \x7b ) \x7d)".toList
    let keys := "'e': 1 \x7d".toList
    let inLoop := Grammar.within ⟨loop, false, .declarative "f" "g"⟩ 8
    let inKeys := Grammar.within ⟨keys, false, .declarative "f" "g"⟩ 8
    failure (inLoop.statement (.ofText loop)) = some ⟨1, 33, 32⟩ ∧
      (State.ofText loop).Restored (finalState (inLoop.statement (.ofText loop))) ∧
      (finalState (inKeys.members (.ofText keys))).scope.stringKeys = true ∧
      ((State.ofText keys).Restored (finalState (inKeys.members (.ofText keys))) ∨
        { State.ofText keys with scope := (State.ofText keys).scope.withStringKeys }.Restored
          (finalState (inKeys.members (.ofText keys)))) :=
  ⟨by decide +kernel, (context_is_restored _ _).1 .statement _ rfl, by decide +kernel,
    (context_is_restored _ _).2 .members _ rfl⟩

end Qml
