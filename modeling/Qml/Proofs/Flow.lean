import Qml.Parse
import Qml.Proofs.Origin

/-! # What every step respects

A law says which states a parser may lead to from a given one, and where it may
fail on the way. A law that the basic steps respect is respected by every
production: each is made of those steps. The property is a class, so that it is
found for a production from the productions in it. Laws that hold across the
first string key of a block are respected by the members of a block as well. -/

namespace Qml.Parser

variable {α β : Type}

def finalState : EStateM.Result Fault State α → State
  | .ok _ state => state
  | .error _ state => state

def failure : EStateM.Result Fault State α → Option Position
  | .ok _ _ => none
  | .error fault _ => some fault.position

/-- Which states a parser may lead to, and where it may fail on the way. -/
abbrev Law := (before : State) → (failed : Option Position) → (after : State) → Prop

class Admits (law : Law) (position : Position) : Prop where
  holds : ∀ state, law state (some position) state

/-- A law that the basic steps respect. What is parsed in a changed context counts
from the state before the change, and a parser may fail where the current token
begins. -/
class Flow (law : Law) : Prop where
  refl : ∀ state, law state none state
  trans : ∀ {first middle last failed}, law first none middle → law middle failed last →
    law first failed last
  advance : ∀ state : State, law state none state.advanced
  skipped : ∀ (state : State) tokens, law state none { state with skipped := tokens }
  settled : ∀ state : State, law state none state.settled
  visited : ∀ (visit : Visit) (state : State) {failed after},
    law { state with scope := visit.enter state.scope } failed after →
      law state failed (leave visit state after)
  current : ∀ (state : State) {failed after},
    (Admits law state.cursor.current.span.origin → law state failed after) →
      law state failed after

class Patched (law : Law) : Prop where
  patched : ∀ (state : State) patches, law state none { state with patches := patches }

/-- A law that the first string key of a block respects too. -/
class Keyed (law : Law) : Prop where
  keyed : ∀ state : State, law state none { state with scope := state.scope.withStringKeys }

def ObeysAt (law : Law) (parser : Parser α) (state : State) : Prop :=
  law state (failure (parser state)) (finalState (parser state))

/-- A parser that respects a law, whether it succeeds or fails. -/
class Obeys (law : Law) (parser : Parser α) : Prop where
  holds : ∀ state, ObeysAt law parser state

def Steps (relation : State → State → Prop) : Law := fun before _ after => relation before after

instance (relation : State → State → Prop) [flow : Flow (Steps relation)] (position : Position) :
    Admits (Steps relation) position :=
  ⟨flow.refl⟩

abbrev Follows (relation : State → State → Prop) (parser : Parser α) : Prop :=
  Obeys (Steps relation) parser

namespace Obeys

variable {law : Law}

theorem of_ok {parser : Parser α} (obeys : Obeys law parser) {state after : State} {value : α}
    (ok : parser state = .ok value after) : law state none after := by
  have held := obeys.holds state
  unfold ObeysAt at held
  rw [ok] at held
  exact held

theorem of_error {parser : Parser α} (obeys : Obeys law parser) {state after : State}
    {fault : Fault} (failed : parser state = .error fault after) :
    law state (some fault.position) after := by
  have held := obeys.holds state
  unfold ObeysAt at held
  rw [failed] at held
  exact held

variable [flow : Flow law]

/-- In a sequence, the second parser may rely on what the first one returned. -/
theorem bindAt {first : Parser α} {next : α → Parser β} {state : State}
    (one : ObeysAt law first state)
    (two : ∀ {value between}, first state = .ok value between → ObeysAt law (next value) between) :
    ObeysAt law (first >>= next) state := by
  unfold ObeysAt at one two ⊢
  change law state (failure (EStateM.bind first next state))
    (finalState (EStateM.bind first next state))
  unfold EStateM.bind
  cases outcome : first state with
  | ok value between =>
      rw [outcome] at one
      exact flow.trans one (two outcome)
  | error fault between =>
      rw [outcome] at one
      exact one

theorem bind {first : Parser α} {next : α → Parser β} (one : Obeys law first)
    (two : ∀ value, Obeys law (next value)) : Obeys law (first >>= next) :=
  ⟨fun state => bindAt (one.holds state) fun {value between} _ => (two value).holds between⟩

instance {first : Parser α} {next : α → Parser β} [one : Obeys law first]
    [two : ∀ value, Obeys law (next value)] : Obeys law (first >>= next) :=
  one.bind two

instance (value : α) : Obeys law (pure value : Parser α) := ⟨flow.refl⟩

instance {condition : Prop} [Decidable condition] {left right : Parser α} [Obeys law left]
    [Obeys law right] : Obeys law (if condition then left else right) := by
  split <;> infer_instance

/-! ## Steps -/

instance : Obeys law token := ⟨flow.refl⟩

instance : Obeys law peek := ⟨flow.refl⟩

instance : Obeys law advance := ⟨flow.advance⟩

instance : Obeys law offset := ⟨flow.refl⟩

instance : Obeys law scope := ⟨flow.refl⟩

instance : Obeys law remaining := ⟨flow.refl⟩

instance (start : Span) : Obeys law (spanFrom start) := ⟨flow.refl⟩

instance (cause : Cause) (position : Position) [admits : Admits law position] :
    Obeys law (fail cause position : Parser α) := ⟨admits.holds⟩

theorem bind_token {next : Token → Parser α}
    (two : ∀ found, Admits law found.span.origin → Obeys law (next found)) :
    Obeys law (token >>= next) :=
  ⟨fun state => flow.current state fun admits => (two _ admits).holds state⟩

instance : Obeys law takeAwaited := ⟨flow.settled⟩

omit flow in
instance [patched : Patched law] (patch : Patch) : Obeys law (recordPatch patch) :=
  ⟨fun state => patched.patched state _⟩

instance (place : Span) : Obeys law (skipToken place) :=
  ⟨fun state => flow.trans (flow.advance state) (flow.skipped state.advanced _)⟩

instance (source : List Char) (start stop : Nat) :
    Obeys law (effectiveText source start stop) := ⟨flow.refl⟩

omit flow in
instance [keyed : Keyed law] : Obeys law enterStringKeys := ⟨keyed.keyed⟩

instance (visit : Visit) (parser : Parser α) [obeys : Obeys law parser] :
    Obeys law (inScope visit parser) := by
  constructor
  intro state
  have held := obeys.holds { state with scope := visit.enter state.scope }
  unfold ObeysAt at held ⊢
  unfold inScope
  cases outcome : parser { state with scope := visit.enter state.scope } with
  | ok value after =>
      rw [outcome] at held
      exact flow.visited visit state held
  | error fault after =>
      rw [outcome] at held
      exact flow.visited visit state held

instance : Obeys law (unexpected : Parser α) := bind_token fun _ _ => inferInstance

instance (what : String) : Obeys law (expected what : Parser α) :=
  bind_token fun _ _ => inferInstance

instance (place : Span) (rule : BrokenRule) [Admits law place.origin] :
    Obeys law (refuseAt place rule : Parser α) := by
  unfold refuseAt; infer_instance

instance (rule : BrokenRule) : Obeys law (refuse rule : Parser α) :=
  bind_token fun _ _ => inferInstance

instance (mark : Char) : Obeys law (atPunctuation mark) := by
  unfold atPunctuation; infer_instance

instance (operator : Operator) : Obeys law (atOperator operator) := by
  unfold atOperator; infer_instance

instance (keyword : Keyword) : Obeys law (atKeyword keyword) := by
  unfold atKeyword; infer_instance

instance (text : String) : Obeys law (atName text) := by unfold atName; infer_instance

instance : Obeys law atEnd := by unfold atEnd; infer_instance

instance (mark : Char) : Obeys law (expectPunctuation mark) := by
  unfold expectPunctuation; infer_instance

instance (text : String) : Obeys law (expectNameOf text) := by
  unfold expectNameOf; infer_instance

instance (keyword : Keyword) : Obeys law (expectKeyword keyword) := by
  unfold expectKeyword; infer_instance

instance : Obeys law expectName := by
  refine bind inferInstance fun found => ?_
  split <;> infer_instance

instance : Obeys law expectWord := by
  refine bind inferInstance fun found => ?_
  split <;> infer_instance

instance (mark : Char) : Obeys law (skipPunctuation mark) := by
  unfold skipPunctuation; infer_instance

/-! ## Repetition -/

theorem collectWithin {step : Parser (Option α)} (kept : Obeys law step) (clock : List Token) :
    Obeys law (collectWithin step clock) := by
  induction clock with
  | nil => exact inferInstanceAs (Obeys law unexpected)
  | cons tick clock induction =>
      refine bind kept fun result => ?_
      split <;> infer_instance

/-- Each round of an iteration may rely on what the rounds before it keep. -/
theorem iterateWithin_of_kept {step : α → Parser (Option α)} (good : α → State → Prop)
    (steps : ∀ {value state}, good value state → ObeysAt law (step value) state)
    (kept : ∀ {value state next after}, good value state →
      step value state = .ok (some next) after → good next after)
    (clock : List Token) {start : α} {state : State} (initially : good start state) :
    ObeysAt law (Parser.iterateWithin step clock start) state := by
  induction clock generalizing start state with
  | nil =>
      have refused : Obeys law (unexpected : Parser α) := inferInstance
      exact refused.holds state
  | cons tick clock induction =>
      refine bindAt (steps initially) ?_
      intro found between stepped
      cases found with
      | none => exact flow.refl between
      | some next => exact induction (kept initially stepped)

theorem iterateWithin {step : α → Parser (Option α)} (kept : ∀ value, Obeys law (step value))
    (clock : List Token) (start : α) : Obeys law (Parser.iterateWithin step clock start) :=
  ⟨fun _ => iterateWithin_of_kept (fun _ _ => True)
    (fun {value} _ _ => (kept value).holds _) (fun _ _ => trivial) clock trivial⟩

instance {step : Parser (Option α)} [kept : Obeys law step] :
    Obeys law (collect step) :=
  bind inferInstance fun clock => collectWithin kept clock

theorem iterate_of_kept {step : α → Parser (Option α)} (good : α → State → Prop)
    (steps : ∀ {value state}, good value state → ObeysAt law (step value) state)
    (kept : ∀ {value state next after}, good value state →
      step value state = .ok (some next) after → good next after)
    {start : α} {state : State} (initially : good start state) :
    ObeysAt law (iterate step start) state :=
  iterateWithin_of_kept good steps kept state.cursor.remaining initially

instance {step : α → Parser (Option α)} [kept : ∀ value, Obeys law (step value)]
    (start : α) : Obeys law (iterate step start) :=
  bind inferInstance fun clock => iterateWithin kept clock start

instance (closing : Char) (trailing : Bool) (item : Parser α) [Obeys law item] :
    Obeys law (listItem closing trailing item) := by
  unfold listItem; infer_instance

instance (closing : Char) (trailing : Bool) (item : Parser α) [Obeys law item] :
    Obeys law (listUntil closing trailing item) := by
  unfold listUntil; infer_instance

end Obeys

theorem Follows.of_ok {relation : State → State → Prop} {parser : Parser α}
    (follows : Follows relation parser) {state after : State} {value : α}
    (ok : parser state = .ok value after) : relation state after :=
  Obeys.of_ok follows ok

end Qml.Parser

namespace Qml

open Qml.Parser

/-! ## Productions -/

class Deeper.Obeys (law : Law) (deeper : Deeper) : Prop where
  statement : Parser.Obeys law deeper.statement
  assignment : ∀ noIn, Parser.Obeys law (deeper.assignment noIn)
  unary : ∀ calls, Parser.Obeys law (deeper.unary calls)
  atom : ∀ calls, Parser.Obeys law (deeper.atom calls)
  members : Parser.Obeys law deeper.members

attribute [instance] Deeper.Obeys.statement Deeper.Obeys.assignment Deeper.Obeys.unary
  Deeper.Obeys.atom Deeper.Obeys.members

abbrev Deeper.Follows (relation : State → State → Prop) (deeper : Deeper) : Prop :=
  deeper.Obeys (Steps relation)

namespace Grammar

-- One search goes through a whole production, so the longest ones need room.
set_option synthInstance.maxSize 512

variable {law : Law} [flow : Flow law] (grammar : Grammar) [grammar.deeper.Obeys law]

instance : Obeys law grammar.canOmitSemicolon := by unfold canOmitSemicolon; infer_instance

instance : Obeys law grammar.semicolon := by unfold semicolon; infer_instance

instance {α : Type} (parser : Parser α) [Obeys law parser] :
    Obeys law (grammar.capture parser) := by
  unfold capture; infer_instance

instance {α : Type} (parser : Parser α) [Obeys law parser] :
    Obeys law (grammar.captureBody parser) := by
  unfold captureBody; infer_instance

instance : Obeys law pragma := by unfold pragma; infer_instance

instance (otherwise : Parser Statement) [Obeys law otherwise] :
    Obeys law (pragmaOr otherwise) := by
  unfold pragmaOr; infer_instance

instance : Obeys law grammar.statement := by
  unfold statement
  split <;> infer_instance

instance : Obeys law grammar.blockItem := by unfold blockItem; infer_instance

instance : Obeys law grammar.block := by unfold block; infer_instance

instance (required : Bool) : Obeys law (functionName required) := by
  refine Obeys.bind inferInstance fun found => ?_
  split <;> infer_instance

instance (named : Bool) (start : Span) : Obeys law (grammar.function named start) := by
  unfold function; infer_instance

instance : Obeys law grammar.memberBlock := by unfold memberBlock; infer_instance

instance (start : Span) (expr : Expr) : Obeys law (grammar.elementOr start expr) := by
  refine Obeys.bind inferInstance fun atBrace => ?_
  split <;> infer_instance

instance (noIn : Bool) : Obeys law (grammar.sequenceItem noIn) := by
  refine Obeys.bind inferInstance fun start => Obeys.bind inferInstance fun expr => ?_
  split <;> infer_instance

instance (noIn : Bool) : Obeys law (grammar.sequenceStep noIn) := by
  unfold sequenceStep; infer_instance

instance (commas noIn : Bool) (first : Expr) :
    Obeys law (grammar.sequenceTail commas noIn first) := by
  unfold sequenceTail; infer_instance

instance (commas noIn : Bool) : Obeys law (grammar.expression commas noIn) := by
  unfold expression; infer_instance

instance (commas noIn : Bool) : Obeys law (grammar.scriptExpression commas noIn) := by
  unfold scriptExpression; infer_instance

instance : Obeys law grammar.parenthesized := by unfold parenthesized; infer_instance

instance (holes : Bool) : Obeys law (grammar.listedExpression holes) := by
  unfold listedExpression; infer_instance

instance (closing : Char) (trailing holes : Bool) :
    Obeys law (grammar.expressionList closing trailing holes) := by
  unfold expressionList; infer_instance

instance : Obeys law grammar.arguments := by unfold arguments; infer_instance

instance (opening : Span) : Obeys law (grammar.scriptArray opening) := by
  unfold scriptArray; infer_instance

instance (opening : Span) : Obeys law (grammar.array opening) := by
  refine Obeys.bind inferInstance fun expr => ?_
  split <;> infer_instance

instance : Obeys law propertyName := by
  refine Obeys.bind inferInstance fun found => ?_
  split <;> infer_instance

instance : Obeys law grammar.objectEntry := by
  refine Obeys.bind inferInstance fun keyToken => Obeys.bind inferInstance fun key =>
    Obeys.bind inferInstance fun atColon => ?_
  split <;> infer_instance

instance (opening : Span) : Obeys law (grammar.object opening) := by
  unfold object; infer_instance

instance (calls : Bool) (expr : Expr) : Obeys law (grammar.subscript calls expr) := by
  refine Obeys.bind inferInstance fun atDot => ?_
  split
  · infer_instance
  · refine Obeys.bind inferInstance fun atBracket => ?_
    split
    · infer_instance
    · refine Obeys.bind inferInstance fun atParenthesis => ?_
      split
      · infer_instance
      · infer_instance

instance (calls : Bool) (expr : Expr) : Obeys law (grammar.subscripts calls expr) := by
  unfold subscripts; infer_instance

instance (start : Span) : Obeys law (grammar.construction start) := by
  unfold construction; infer_instance

instance (start : Span) : Obeys law (grammar.parenthesizedAtom start) := by
  unfold parenthesizedAtom; infer_instance

instance (start : Span) : Obeys law (grammar.functionAtom start) := by
  unfold functionAtom; infer_instance

instance : Obeys law grammar.bareAtom := by
  refine Obeys.bind inferInstance fun current => ?_
  split
  · infer_instance
  · infer_instance
  · infer_instance
  · infer_instance
  · infer_instance
  · split <;> infer_instance

instance (calls : Bool) : Obeys law (grammar.atom calls) := by unfold atom; infer_instance

instance (operator : Operator) (fixity : Fixity) (operand : Expr) (start : Span)
    [Admits law start.origin] : Obeys law (applyUnary operator fixity operand start) := by
  unfold applyUnary; infer_instance

instance (expr : Expr) [admits : Admits law expr.span.origin] : Obeys law (stepAfter expr) := by
  refine Obeys.bind inferInstance fun current => ?_
  split
  · rename_i operator _
    have applied : Obeys law (do
        return some (← applyUnary operator .after expr (← spanFrom expr.span))) := by
      constructor
      intro state
      have here : Admits law (expr.span.endingAt state.cursor.previousEnd).origin := admits
      refine Obeys.bindAt (flow.refl state) ?_
      rintro span between ⟨⟩
      exact Obeys.holds state
    infer_instance
  · infer_instance

instance (calls : Bool) : Obeys law (grammar.stepped calls) := by
  constructor
  intro state
  refine flow.current state fun admits => ?_
  refine Obeys.bindAt (Obeys.holds state) fun {expr between} ok => ?_
  refine Obeys.iterate_of_kept
    (fun value _ => value.BeginsAt state.cursor.current.span.origin) ?_ ?_ (grammar.atom_begins ok)
  · intro value state begins
    have here : Admits law value.span.origin := begins ▸ admits
    exact Obeys.holds state
  · intro value before next after begins stepped
    exact ((stepAfter_begins value).of_ok stepped next rfl).trans begins

instance (calls : Bool) : Obeys law (grammar.unary calls) := by
  refine Obeys.bind_token fun current admits => ?_
  split
  · split <;> infer_instance
  · infer_instance

section

variable [Patched law]

instance (operator : Operator) (left right : Expr) :
    Obeys law (grammar.applyBinary operator left right) := by
  unfold applyBinary
  split <;> infer_instance

instance (noIn : Bool) (least : Nat) (tighter : Nat → Expr → Parser Expr) (left : Expr)
    [∀ precedence operand, Obeys law (tighter precedence operand)] :
    Obeys law (grammar.operatorRound noIn least tighter left) := by
  unfold operatorRound
  have kept : ∀ found : Token, Obeys law (match binaryOperator? noIn least found with
      | none => pure none
      | some (operator, precedence) => do
        let _ ← advance
        let operand ← grammar.unary true
        let right ← tighter precedence operand
        return some (← grammar.applyBinary operator left right)) := by
    intro found
    split <;> infer_instance
  infer_instance

theorem climb_obeys (noIn : Bool) (room least : Nat) (left : Expr) :
    Obeys law (grammar.climb noIn room least left) := by
  induction room generalizing least left with
  | zero => exact inferInstanceAs (Obeys law (pure left))
  | succ room induction =>
      unfold climb
      infer_instance

instance (noIn : Bool) (least : Nat) (left : Expr) :
    Obeys law (grammar.operators noIn least left) :=
  grammar.climb_obeys noIn _ least left

instance (noIn : Bool) : Obeys law (grammar.operation noIn) := by
  unfold operation; infer_instance

end

section

variable [∀ noIn, Obeys law (grammar.operation noIn)]

instance (noIn : Bool) : Obeys law (grammar.conditional noIn) := by
  unfold conditional; infer_instance

instance (noIn : Bool) : Obeys law (grammar.assignment noIn) := by
  refine Obeys.bind_token fun start admits => Obeys.bind inferInstance fun left =>
    Obeys.bind inferInstance fun found => ?_
  split <;> infer_instance

end

/-! ## Statements -/

instance (noIn : Bool) : Obeys law (grammar.declarator noIn) := by
  unfold declarator; infer_instance

instance (noIn : Bool) : Obeys law (grammar.declaratorStep noIn) := by
  unfold declaratorStep; infer_instance

instance (noIn : Bool) : Obeys law (grammar.declarators noIn) := by
  unfold declarators; infer_instance

instance (kind : VariableKind) : Obeys law (grammar.declareTail kind) := by
  unfold declareTail; infer_instance

instance (keyword : Keyword) (label : Option String) :
    Obeys law (checkJump keyword label) := by
  refine Obeys.bind inferInstance fun scope => ?_
  split <;> infer_instance

instance : Obeys law grammar.jumpLabel := by
  refine Obeys.bind inferInstance fun omitted => ?_
  split
  · infer_instance
  · refine Obeys.bind inferInstance fun found => ?_
    split <;> infer_instance

instance (keyword : Keyword) : Obeys law (grammar.jump keyword) := by
  unfold jump; infer_instance

instance (start : Span) [Admits law start.origin] : Obeys law (grammar.returnTail start) := by
  unfold returnTail; infer_instance

instance : Obeys law grammar.throwTail := by unfold throwTail; infer_instance

instance : Obeys law grammar.loopBody := by unfold loopBody; infer_instance

instance : Obeys law grammar.doTail := by unfold doTail; infer_instance

instance : Obeys law grammar.whileTail := by unfold whileTail; infer_instance

instance : Obeys law grammar.forInit := by unfold forInit; infer_instance

instance (start : Span) (left : Statement) [Admits law start.origin] :
    Obeys law (grammar.forInTail start left) := by
  unfold forInTail; infer_instance

instance (mark : Char) : Obeys law (grammar.optionalExpression mark) := by
  unfold optionalExpression; infer_instance

instance (init : Option Statement) : Obeys law (grammar.forClauses init) := by
  unfold forClauses; infer_instance

instance : Obeys law grammar.forTail :=
  Obeys.bind inferInstance fun _ => Obeys.bind_token fun _ _ => inferInstance

instance : Obeys law grammar.ifTail := by unfold ifTail; infer_instance

instance : Obeys law grammar.caseLabel := by unfold caseLabel; infer_instance

instance : Obeys law grammar.caseItem := by unfold caseItem; infer_instance

instance : Obeys law grammar.switchCase := by
  refine Obeys.bind inferInstance fun label => ?_
  split <;> infer_instance

instance : Obeys law grammar.switchBlock := by unfold switchBlock; infer_instance

instance : Obeys law grammar.switchTail := by unfold switchTail; infer_instance

instance : Obeys law grammar.catchClause := by unfold catchClause; infer_instance

instance : Obeys law grammar.finallyClause := by unfold finallyClause; infer_instance

instance : Obeys law grammar.tryTail := by unfold tryTail; infer_instance

instance : Obeys law grammar.withTail := by unfold withTail; infer_instance

instance (keyword : Keyword) (start : Span) [Admits law start.origin] :
    Obeys law (grammar.keywordStatement keyword start) := by
  unfold keywordStatement
  split <;> infer_instance

instance : Obeys law grammar.simpleStatement := by unfold simpleStatement; infer_instance

instance (label : String) (start : Span) :
    Obeys law (grammar.labeledStatement label start) := by
  unfold labeledStatement; infer_instance

instance : Obeys law grammar.anyStatement := by
  refine Obeys.bind_token fun start admits => ?_
  split <;> infer_instance

instance : Obeys law grammar.scriptItem := by unfold scriptItem; infer_instance

instance : Obeys law grammar.script := by unfold script; infer_instance

/-! ## Declarations -/

instance (start : Span) : Obeys law (grammar.functionValue start) := by
  unfold functionValue; infer_instance

instance (otherwise : Parser Statement) [Obeys law otherwise] :
    Obeys law (grammar.valueOr otherwise) := by
  unfold valueOr; infer_instance

instance : Obeys law grammar.bareExpression := by unfold bareExpression; infer_instance

instance (parser : Parser Statement) [Obeys law parser] :
    Obeys law (grammar.capturedValue parser) := by
  unfold capturedValue; infer_instance

instance (otherwise : Parser Statement) [Obeys law otherwise] :
    Obeys law (grammar.slot otherwise) := by
  unfold slot; infer_instance

theorem propertyValue_run (state : State) :
    grammar.propertyValue state =
      grammar.capturedValue (pragmaOr (grammar.valueOr grammar.deeper.statement)) state.settled :=
  rfl

theorem keyedValue_run (state : State) :
    grammar.keyedValue state =
      grammar.capturedValue (pragmaOr (grammar.valueOr grammar.bareExpression)) state.settled :=
  rfl

instance : Obeys law grammar.propertyValue := by
  constructor
  intro state
  unfold ObeysAt
  rw [grammar.propertyValue_run]
  exact flow.trans (flow.settled state) (Obeys.holds state.settled)

instance : Obeys law grammar.keyedValue := by
  constructor
  intro state
  unfold ObeysAt
  rw [grammar.keyedValue_run]
  exact flow.trans (flow.settled state) (Obeys.holds state.settled)

instance : Obeys law grammar.handlerValue := by unfold handlerValue; infer_instance

instance {α : Type} : Obeys law (unbalancedPath : Parser α) :=
  Obeys.bind_token fun _ _ => inferInstance

instance (progress : AliasProgress) : Obeys law (aliasStep progress) := by
  refine Obeys.bind inferInstance fun current => ?_
  split
  · split <;> infer_instance
  · split
    · infer_instance
    · split
      · infer_instance
      · split
        · split <;> infer_instance
        · infer_instance

instance : Obeys law aliasPath := by unfold aliasPath; infer_instance

instance (readonly : Bool) (start : Span) (name : String) :
    Obeys law (aliasTail readonly start name) := by
  unfold aliasTail; infer_instance

instance : Obeys law typeName := by
  refine Obeys.bind inferInstance fun found => ?_
  split <;> infer_instance

instance : Obeys law typeArgument := by unfold typeArgument; infer_instance

instance (readonly : Bool) : Obeys law (grammar.initialValue readonly) := by
  unfold initialValue; infer_instance

instance (readonly : Bool) (start : Span) : Obeys law (grammar.declaration readonly start) := by
  unfold declaration; infer_instance

instance : Obeys law signalParameter := by
  refine Obeys.bind inferInstance fun found => ?_
  split <;> infer_instance

instance : Obeys law signalParameters := by unfold signalParameters; infer_instance

instance (start : Span) : Obeys law (signal start) := by unfold signal; infer_instance

/-! ## Members -/

instance : Obeys law dottedWord := by unfold dottedWord; infer_instance

instance : Obeys law qualifiedName := by unfold qualifiedName; infer_instance

instance : Obeys law grammar.method := by unfold method; infer_instance

instance (start : Span) : Obeys law (grammar.signalMember start) := by
  unfold signalMember; infer_instance

instance : Obeys law elementTarget := by unfold elementTarget; infer_instance

instance (typeName : QualifiedName) (start : Span) :
    Obeys law (grammar.elementTail typeName start) := by
  unfold elementTail; infer_instance

instance (stringKeys : Bool) (path : QualifiedName) :
    Obeys law (grammar.bindingValue stringKeys path) := by
  unfold bindingValue; infer_instance

instance (stringKeys : Bool) (start : Span) :
    Obeys law (grammar.pathMember stringKeys start) := by
  unfold pathMember; infer_instance

instance (stringKeys : Bool) (name : String) (start : Span) :
    Obeys law (grammar.namedMember stringKeys name start) := by
  unfold namedMember; infer_instance

instance (key : String) (start : Span) : Obeys law (grammar.keyedMember key start) := by
  unfold keyedMember; infer_instance

instance (start : Span) : Obeys law (grammar.defaultMember start) := by
  unfold defaultMember; infer_instance

/-! ## Imports -/

instance : Obeys law importHead := by
  refine Obeys.bind inferInstance fun found => ?_
  split <;> infer_instance

instance : Obeys law importVersion := by unfold importVersion; infer_instance

instance : Obeys law importQualifier := by unfold importQualifier; infer_instance

instance : Obeys law importItem := by unfold importItem; infer_instance

end Grammar

/-! The members of a block may change the context. -/

namespace Grammar

set_option synthInstance.maxSize 512

variable {law : Law} [Flow law] [Keyed law] (grammar : Grammar) [grammar.deeper.Obeys law]

instance (first stringKeys : Bool) (start : Span) :
    Obeys law (grammar.memberByToken first stringKeys start) := by
  refine Obeys.bind inferInstance fun current => ?_
  split <;> infer_instance

instance (first : Bool) (start : Span) :
    Obeys law (grammar.memberAfterComma first start) := by
  unfold memberAfterComma; infer_instance

instance (first : Bool) : Obeys law (grammar.member first) := by
  unfold member; infer_instance

instance (first : Bool) : Obeys law (grammar.memberRound first) := by
  unfold memberRound; infer_instance

instance : Obeys law grammar.members := by
  refine Obeys.bind inferInstance fun first => ?_
  split <;> infer_instance

instance : Obeys law grammar.rootElement := by
  refine Obeys.bind_token fun start admits => Obeys.bind inferInstance fun found => ?_
  split <;> infer_instance

instance : Obeys law grammar.document := by unfold document; infer_instance

end Grammar

/-- A law is respected at every level of nesting, if the operators and the members
of a block respect it where the levels below do. -/
theorem Deeper.within_obeys_of {law : Law} [Flow law] (setting : Setting) (limit : Nat)
    (operation : ∀ room < limit, (within setting room).Obeys law →
      ∀ noIn, Parser.Obeys law (Grammar.operation ⟨setting, within setting room⟩ noIn))
    (members : ∀ room < limit, (within setting room).Obeys law →
      Parser.Obeys law (inScope Scope.inBlock (Grammar.members ⟨setting, within setting room⟩))) :
    (within setting limit).Obeys law := by
  induction limit with
  | zero =>
      exact ⟨inferInstanceAs (Parser.Obeys law (refuse _)),
        fun _ => inferInstanceAs (Parser.Obeys law (refuse _)),
        fun _ => inferInstanceAs (Parser.Obeys law (refuse _)),
        fun _ => inferInstanceAs (Parser.Obeys law (refuse _)),
        inferInstanceAs (Parser.Obeys law (refuse _))⟩
  | succ room induction =>
      have below : (within setting room).Obeys law :=
        induction (fun room fewer => operation room (Nat.lt_succ_of_lt fewer))
          (fun room fewer => members room (Nat.lt_succ_of_lt fewer))
      have level : (Grammar.deeper ⟨setting, within setting room⟩).Obeys law := below
      have operates := operation room (Nat.lt_succ_self room) below
      exact ⟨inferInstanceAs (Parser.Obeys law (inScope _ (Grammar.anyStatement _))),
        fun _ => inferInstanceAs (Parser.Obeys law (inScope _ (Grammar.assignment _ _))),
        fun _ => inferInstanceAs (Parser.Obeys law (inScope _ (Grammar.unary _ _))),
        fun _ => inferInstanceAs (Parser.Obeys law (inScope _ (Grammar.atom _ _))),
        members room (Nat.lt_succ_self room) below⟩

theorem Grammar.operation_obeys {law : Law} [Flow law] [Patched law] (setting : Setting)
    {deeper : Deeper} (below : deeper.Obeys law) (noIn : Bool) :
    Parser.Obeys law (Grammar.operation ⟨setting, deeper⟩ noIn) := by
  have level : (Grammar.deeper ⟨setting, deeper⟩).Obeys law := below
  infer_instance

theorem Grammar.members_obeys {law : Law} [Flow law] [Keyed law] (setting : Setting)
    {deeper : Deeper} (below : deeper.Obeys law) :
    Parser.Obeys law (inScope Scope.inBlock (Grammar.members ⟨setting, deeper⟩)) := by
  have level : (Grammar.deeper ⟨setting, deeper⟩).Obeys law := below
  infer_instance

instance Deeper.within_obeys {law : Law} [Flow law] [Patched law] [Keyed law] (setting : Setting)
    (room : Nat) : (Deeper.within setting room).Obeys law :=
  Deeper.within_obeys_of setting room (fun _ _ below => Grammar.operation_obeys setting below)
    (fun _ _ below => Grammar.members_obeys setting below)

theorem Options.tree_obeys {law : Law} [Flow law] [Keyed law] {options : Options}
    {text : List Char} (levels : (options.grammar text).deeper.Obeys law) :
    Parser.Obeys law (options.tree text) := by
  unfold tree
  split <;> infer_instance

end Qml
