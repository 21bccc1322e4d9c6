import Qml.Proofs.AliasPaths
import Qml.Proofs.Context
import Qml.Proofs.Operators
import Qml.Proofs.Outline.Parsed
import Qml.Proofs.Walks

/-! # Parsing ends

No construct begins with a malformed token or, apart from what a block passes over,
at the end of the text. What a production that succeeds stands for is therefore
some text, and so is each round of a repetition that yields something. Repetitions
end by themselves, nesting is bounded, and so parsing ends. -/

namespace Qml

open Qml.Parser

namespace Parser

variable {α β : Type} {counts : α → Prop}

/-- A parser whose results, as far as they count, begin with a token that is neither
malformed nor the end. -/
structure BeginsSolid (counts : α → Prop) (parser : Parser α) : Prop where
  isSolid : ∀ {state value after}, parser state = .ok value after → counts value →
    state.cursor.current.isSolid = true

namespace BeginsSolid

theorem of_ne_ok {parser : Parser α}
    (fails : ∀ {state value after}, parser state ≠ .ok value after) : BeginsSolid counts parser :=
  ⟨fun ok => absurd ok fails⟩

theorem inScope {visit : Visit} {parser : Parser α} (begins : BeginsSolid counts parser) :
    BeginsSolid counts (inScope visit parser) := by
  constructor
  intro state value after ok counted
  obtain ⟨inner, innerOk, rfl⟩ := inScope_eq_ok.mp ok
  have solid := begins.isSolid innerOk counted
  exact solid

theorem bind {first : Parser β} {next : β → Parser α} (begins : BeginsSolid Always first) :
    BeginsSolid counts (first >>= next) := by
  constructor
  intro state value after ok _
  obtain ⟨middle, between, firstOk, -⟩ := bind_eq_ok.mp ok
  exact begins.isSolid firstOk trivial

theorem ite {condition : Prop} [Decidable condition] {left right : Parser α}
    (one : BeginsSolid counts left) (two : BeginsSolid counts right) :
    BeginsSolid counts (if condition then left else right) := by
  split
  case isTrue => exact one
  case isFalse => exact two

theorem expectPunctuation (mark : Char) : BeginsSolid Always (expectPunctuation mark) :=
  ⟨fun ok _ => Token.isSolid_of_isPunctuation (expectPunctuation_eq_ok.mp ok).1⟩

theorem of_mark (mark : Char) {round : Parser (Option α)} :
    BeginsSolid Continues
      (atPunctuation mark >>= fun found => if found then round else pure none) := by
  constructor
  intro state value after ok counted
  simp only [run_atPunctuation, run_ite] at ok
  split at ok
  case isTrue isMark => exact Token.isSolid_of_isPunctuation isMark
  case isFalse =>
      cases ok
      exact absurd rfl counted

theorem listItem (closing : Char) (trailing : Bool) (item : Parser α) :
    BeginsSolid Continues (listItem closing trailing item) := by
  constructor
  intro state value after ok counted
  simp only [Parser.listItem, run_atPunctuation, run_ite] at ok
  split at ok
  case isTrue =>
      cases ok
      exact absurd rfl counted
  case isFalse => exact (expectPunctuation ',').bind.isSolid ok counted

end BeginsSolid

end Parser

/-! ## Productions -/

structure Deeper.BeginsSolid (deeper : Deeper) : Prop where
  statement : Parser.BeginsSolid Always deeper.statement
  assignment : ∀ noIn, Parser.BeginsSolid Always (deeper.assignment noIn)
  unary : ∀ calls, Parser.BeginsSolid Always (deeper.unary calls)
  atom : ∀ calls, Parser.BeginsSolid Always (deeper.atom calls)

namespace Grammar

variable {grammar : Grammar}

/-! ### Expressions -/

theorem bareAtom_beginsSolid : BeginsSolid Always grammar.bareAtom := by
  constructor
  intro state expr after ok _
  simp only [bareAtom, run_token] at ok
  unfold Token.isSolid Token.isEnd Token.isMalformed
  generalize state.cursor.current.kind = kind at ok ⊢
  split at ok
  case h_6 =>
      cases kind with
      | endOfInput => exact absurd ok unexpected_ne_ok
      | malformed => exact absurd ok unexpected_ne_ok
      | _ => rfl
  all_goals rfl

theorem atom_beginsSolid (calls : Bool) : BeginsSolid Always (grammar.atom calls) :=
  bareAtom_beginsSolid.bind

theorem unary_beginsSolid (calls : Bool) : BeginsSolid Always (grammar.unary calls) := by
  constructor
  intro state expr after ok counted
  simp only [Grammar.unary, run_token] at ok
  cases kind : state.cursor.current.kind with
  | operator operator => exact Token.isSolid_of_kind kind (by simp) (by simp)
  | _ =>
      simp only [kind] at ok
      exact (atom_beginsSolid calls).bind.isSolid ok counted

theorem assignment_beginsSolid (noIn : Bool) : BeginsSolid Always (grammar.assignment noIn) := by
  constructor
  intro state expr after ok counted
  simp only [Grammar.assignment, run_token] at ok
  have conditional : BeginsSolid Always (grammar.conditional noIn) :=
    (unary_beginsSolid true).bind.bind
  exact conditional.bind.isSolid ok counted

/-! ### Statements -/

theorem anyStatement_beginsSolid : BeginsSolid Always grammar.anyStatement := by
  constructor
  intro state statement after ok _
  simp only [anyStatement, run_token] at ok
  unfold Token.isSolid Token.isEnd Token.isMalformed
  cases kind : state.cursor.current.kind with
  | endOfInput =>
      simp only [kind] at ok
      exact absurd ok unexpected_ne_ok
  | malformed =>
      simp only [kind] at ok
      exact absurd ok unexpected_ne_ok
  | _ => rfl

theorem pragmaOr_beginsSolid {otherwise : Parser Statement}
    (begins : BeginsSolid Always otherwise) : BeginsSolid Always (pragmaOr otherwise) := by
  constructor
  intro state statement after ok counted
  simp only [pragmaOr, run_atPunctuation, run_ite] at ok
  split at ok
  case isTrue dot => exact Token.isSolid_of_isPunctuation dot
  case isFalse => exact begins.isSolid ok counted

theorem valueOr_beginsSolid {otherwise : Parser Statement} (begins : BeginsSolid Always otherwise) :
    BeginsSolid Always (grammar.valueOr otherwise) := by
  constructor
  intro state statement after ok counted
  simp only [Grammar.valueOr, run_token, run_peek, run_ite] at ok
  split at ok
  case isTrue block =>
      rw [Bool.and_eq_true] at block
      exact Token.isSolid_of_isPunctuation block.1
  case isFalse =>
      split at ok
      case isTrue function => exact Token.isSolid_of_isKeyword function
      case isFalse => exact begins.isSolid ok counted

theorem slot_beginsSolid {otherwise : Parser Statement} (begins : BeginsSolid Always otherwise) :
    BeginsSolid Always (grammar.slot otherwise) := by
  constructor
  intro state statement after ok counted
  simp only [slot, run_takeAwaited] at ok
  have either : BeginsSolid Always
      (if state.awaitsValue then grammar.valueOr otherwise else otherwise) :=
    .ite (valueOr_beginsSolid begins) begins
  have solid := (pragmaOr_beginsSolid either).isSolid ok counted
  exact solid

section

variable (begins : grammar.deeper.BeginsSolid)

include begins

theorem expression_beginsSolid (commas noIn : Bool) :
    BeginsSolid Always (grammar.expression commas noIn) := by
  have item : BeginsSolid Always (grammar.sequenceItem noIn) := by
    constructor
    intro state expr after ok counted
    simp only [sequenceItem, run_token] at ok
    exact (begins.assignment noIn).bind.isSolid ok counted
  exact item.bind

theorem statement_beginsSolid : BeginsSolid Always grammar.statement := by
  unfold Grammar.statement
  split
  case h_1 => exact begins.statement
  case h_2 =>
      constructor
      intro state statement after ok counted
      rw [run_takeAwaited] at ok
      have solid := (pragmaOr_beginsSolid begins.statement).isSolid ok counted
      exact solid

theorem bareExpression_beginsSolid : BeginsSolid Always grammar.bareExpression := by
  constructor
  intro state statement after ok counted
  simp only [bareExpression, run_token] at ok
  exact (expression_beginsSolid begins false false).bind.isSolid ok counted

end

/-! ### Members and imports -/

theorem importItem_beginsSolid : BeginsSolid Continues importItem := by
  constructor
  intro state item after ok counted
  simp only [importItem, run_token, run_ite] at ok
  split at ok
  case isTrue isImport => exact Token.isSolid_of_isName isImport
  case isFalse =>
      cases ok
      exact absurd rfl counted

/-- A block passes over tokens that begin no member, but over none that is
malformed. -/
theorem memberByToken_isMalformed {first stringKeys : Bool} {start : Span} {state after : State}
    {found : Option Member}
    (ok : grammar.memberByToken first stringKeys start state = .ok found after) :
    state.cursor.current.isMalformed = false := by
  simp only [memberByToken, run_token] at ok
  unfold Token.isMalformed
  cases kind : state.cursor.current.kind with
  | malformed =>
      simp only [kind] at ok
      exact absurd ok unexpected_ne_ok
  | _ => rfl

theorem member_isMalformed {first : Bool} {state after : State} {found : Option Member}
    (ok : grammar.member first state = .ok found after) :
    state.cursor.current.isMalformed = false := by
  simp only [member, run_token, run_scope, run_ite] at ok
  split at ok
  case isTrue =>
      simp only [memberAfterComma, run_ite] at ok
      split at ok
      case isTrue => exact memberByToken_isMalformed ok
      case isFalse =>
          obtain ⟨comma, between, commaOk, -⟩ := bind_eq_ok.mp ok
          have solid := (BeginsSolid.expectPunctuation ',').isSolid commaOk trivial
          exact Token.isMalformed_of_isSolid solid
  case isFalse =>
      split at ok
      case isTrue function =>
          exact Token.isMalformed_of_isSolid (Token.isSolid_of_isKeyword function)
      case isFalse =>
          split at ok
          case isTrue signal => exact Token.isMalformed_of_isSolid (Token.isSolid_of_isName signal)
          case isFalse => exact memberByToken_isMalformed ok

/-! ### Rounds -/

section

variable (begins : grammar.deeper.BeginsSolid)

include begins

theorem blockItem_beginsSolid : BeginsSolid Continues grammar.blockItem := by
  constructor
  intro state value after ok counted
  simp only [blockItem, run_atPunctuation, run_atEnd, run_ite] at ok
  split at ok
  case isTrue =>
      cases ok
      exact absurd rfl counted
  case isFalse =>
      split at ok
      case isTrue => exact absurd ok unexpected_ne_ok
      case isFalse => exact (statement_beginsSolid begins).bind.isSolid ok counted

theorem caseItem_beginsSolid : BeginsSolid Continues grammar.caseItem := by
  constructor
  intro state value after ok counted
  simp only [caseItem, run_token, run_ite] at ok
  split at ok
  case isTrue =>
      cases ok
      exact absurd rfl counted
  case isFalse => exact (statement_beginsSolid begins).bind.isSolid ok counted

theorem scriptItem_beginsSolid : BeginsSolid Continues grammar.scriptItem := by
  constructor
  intro state value after ok counted
  simp only [scriptItem, run_atEnd, run_ite] at ok
  split at ok
  case isTrue =>
      cases ok
      exact absurd rfl counted
  case isFalse => exact (statement_beginsSolid begins).bind.isSolid ok counted

end

theorem caseLabel_beginsSolid : BeginsSolid Continues grammar.caseLabel := by
  constructor
  intro state value after ok counted
  simp only [caseLabel, run_token, run_ite] at ok
  split at ok
  case isTrue isMark => exact Token.isSolid_of_isPunctuation isMark
  case isFalse =>
      split at ok
      case isTrue isCase => exact Token.isSolid_of_isKeyword isCase
      case isFalse =>
          split at ok
          case isTrue isDefault => exact Token.isSolid_of_isKeyword isDefault
          case isFalse => exact absurd ok unexpected_ne_ok

theorem switchCase_beginsSolid : BeginsSolid Continues grammar.switchCase := by
  constructor
  intro state value after ok counted
  obtain ⟨label, between, labelOk, ok⟩ := bind_eq_ok.mp ok
  cases label with
  | none =>
      cases ok
      exact absurd rfl counted
  | some test => exact caseLabel_beginsSolid.isSolid labelOk (Option.some_ne_none test)

theorem memberRound_beginsSolid (first : Bool) :
    BeginsSolid Continues (grammar.memberRound first) := by
  constructor
  intro state value after ok counted
  simp only [memberRound, run_atPunctuation, run_atEnd, run_ite] at ok
  split at ok
  case isTrue =>
      cases ok
      exact absurd rfl counted
  case isFalse =>
      split at ok
      case isTrue => exact absurd ok unexpected_ne_ok
      case isFalse inside =>
          obtain ⟨member, between, memberOk, -⟩ := bind_eq_ok.mp ok
          have whole := member_isMalformed memberOk
          simp [Token.isSolid, whole, inside]

theorem subscript_beginsSolid (calls : Bool) (expr : Expr) :
    BeginsSolid Continues (grammar.subscript calls expr) := by
  constructor
  intro state value after ok counted
  simp only [subscript, run_atPunctuation, run_ite] at ok
  split at ok
  case isTrue isDot => exact Token.isSolid_of_isPunctuation isDot
  case isFalse =>
      split at ok
      case isTrue isBracket => exact Token.isSolid_of_isPunctuation isBracket
      case isFalse =>
          split at ok
          case isTrue isCall =>
              rw [Bool.and_eq_true] at isCall
              exact Token.isSolid_of_isPunctuation isCall.2
          case isFalse =>
              cases ok
              exact absurd rfl counted

theorem stepAfter_beginsSolid (expr : Expr) : BeginsSolid Continues (stepAfter expr) := by
  constructor
  intro state value after ok counted
  simp only [stepAfter, run_token] at ok
  cases kind : state.cursor.current.kind with
  | operator operator => exact Token.isSolid_of_kind kind (by simp) (by simp)
  | _ =>
      simp only [kind] at ok
      cases ok
      exact absurd rfl counted

theorem operatorRound_beginsSolid (noIn : Bool) (least : Nat)
    (tighter : Nat → Expr → Parser Expr) (left : Expr) :
    BeginsSolid Continues (grammar.operatorRound noIn least tighter left) := by
  constructor
  intro state value after ok counted
  obtain ⟨next, rfl⟩ := Option.ne_none_iff_exists'.mp counted
  obtain ⟨operator, precedence, _, _, _, _, operator?, -⟩ := operatorRound_eq_some.mp ok
  exact Token.isSolid_of_isOperator (binaryOperator?_eq_some.mp operator?).1

theorem aliasStep_beginsSolid (progress : AliasProgress) :
    BeginsSolid Continues (aliasStep progress) := by
  constructor
  intro state value after ok counted
  rcases move_or_stop state.cursor.current progress with ⟨next, move⟩ | ⟨fault, stop⟩
  · exact move.isSolid
  · rw [aliasStep_of_stop stop] at ok
    cases fault <;> cases ok
    exact absurd rfl counted

end Grammar

/-! ## Nesting -/

theorem Deeper.within_beginsSolid (setting : Setting) (room : Nat) :
    (Deeper.within setting room).BeginsSolid := by
  cases room with
  | zero =>
      exact ⟨.of_ne_ok refuse_ne_ok, fun _ => .of_ne_ok refuse_ne_ok,
        fun _ => .of_ne_ok refuse_ne_ok, fun _ => .of_ne_ok refuse_ne_ok⟩
  | succ room =>
      exact ⟨Grammar.anyStatement_beginsSolid.inScope,
        fun noIn => (Grammar.assignment_beginsSolid noIn).inScope,
        fun calls => (Grammar.unary_beginsSolid calls).inScope,
        fun calls => (Grammar.atom_beginsSolid calls).inScope⟩

namespace Parser

variable {α : Type} {counts : α → Prop}

theorem offset_lt_of_consumes {parser : Parser α} (consumes : Consumes counts parser)
    (walks : Follows State.Walks parser) {text : List Char} {state after : State} {value : α}
    (inText : state.cursor.Over text) (solid : state.cursor.current.isSolid = true)
    (ok : parser state = .ok value after) (counted : counts value) :
    state.cursor.offset < after.cursor.offset ∧ after.ahead < state.ahead := by
  have ahead := State.ahead_pos inText (Token.isEnd_of_isSolid solid)
  have consumed := consumes.ahead_le ok counted
  have fewer : after.ahead < state.ahead := by omega
  exact ⟨(walks.of_ok ok).offset_lt inText solid fewer, fewer⟩

theorem shortens_of_consumes {step : Parser (Option α)} (consumes : Consumes Continues step)
    (walks : Follows State.Walks step) (begins : BeginsSolid Continues step) (text : List Char) :
    Shortens text step := by
  intro state value after inText ok
  have solid := begins.isSolid ok nofun
  exact ⟨(walks.of_ok ok).stays_over inText,
    (offset_lt_of_consumes consumes walks inText solid ok nofun).2⟩

end Parser

/-! ## All constructs and repetitions -/

namespace Grammar

-- As for what every step respects, one search goes through a whole production.
set_option synthInstance.maxSize 512

section

variable (grammar : Grammar) [grammar.deeper.Follows State.Onward] [grammar.deeper.Consumes]

instance : Consumes Always grammar.memberBlock := by unfold memberBlock; infer_instance

instance (otherwise : Parser Statement) [Consumes Always otherwise] :
    Consumes Always (grammar.valueOr otherwise) := by
  unfold valueOr; infer_instance

instance (otherwise : Parser Statement) [Consumes Always otherwise] :
    Consumes Always (grammar.slot otherwise) := by
  unfold slot; infer_instance

instance : Consumes Always grammar.bareExpression := by unfold bareExpression; infer_instance

instance (commas noIn : Bool) : Consumes Always (grammar.scriptExpression commas noIn) := by
  unfold scriptExpression; infer_instance

end

/-- The productions that stand for some text, each with the results that do. -/
inductive Construct (grammar : Grammar) : {α : Type} → (counts : α → Prop) → Parser α → Prop
  | statement : Construct grammar Always grammar.statement
  | slotStatement : Construct grammar Always (grammar.slot grammar.deeper.statement)
  | slotExpression : Construct grammar Always (grammar.slot grammar.bareExpression)
  | nestedStatement : Construct grammar Always grammar.deeper.statement
  | anyStatement : Construct grammar Always grammar.anyStatement
  | expression (commas noIn : Bool) : Construct grammar Always (grammar.expression commas noIn)
  | scriptExpression (commas noIn : Bool) :
      Construct grammar Always (grammar.scriptExpression commas noIn)
  | nestedAssignment (noIn : Bool) : Construct grammar Always (grammar.deeper.assignment noIn)
  | assignment (noIn : Bool) : Construct grammar Always (grammar.assignment noIn)
  | nestedUnary (calls : Bool) : Construct grammar Always (grammar.deeper.unary calls)
  | unary (calls : Bool) : Construct grammar Always (grammar.unary calls)
  | nestedAtom (calls : Bool) : Construct grammar Always (grammar.deeper.atom calls)
  | atom (calls : Bool) : Construct grammar Always (grammar.atom calls)
  | importItem : Construct grammar Continues importItem
  | member (first : Bool) : Construct grammar Always (grammar.member first)

/-- The rounds of the repetitions that collect what they yield. -/
inductive Round (grammar : Grammar) : {α : Type} → Parser (Option α) → Prop
  | expressions (closing : Char) (trailing holes : Bool) :
      Round grammar (listItem closing trailing (grammar.listedExpression holes))
  | entries (trailing : Bool) : Round grammar (listItem '}' trailing grammar.objectEntry)
  | parameters : Round grammar (listItem ')' false expectName)
  | signalParameters : Round grammar (listItem ')' false signalParameter)
  | sequence (noIn : Bool) : Round grammar (grammar.sequenceStep noIn)
  | declarators (noIn : Bool) : Round grammar (grammar.declaratorStep noIn)
  | cases : Round grammar grammar.switchCase
  | caseStatements : Round grammar grammar.caseItem
  | blockStatements : Round grammar grammar.blockItem
  | members (first : Bool) : Round grammar (grammar.memberRound first)
  | dottedWords : Round grammar dottedWord
  | imports : Round grammar importItem
  | statements : Round grammar grammar.scriptItem

/-- The rounds of the repetitions that turn one value into the next. -/
inductive Turn (grammar : Grammar) : {α : Type} → (α → Parser (Option α)) → Prop
  | subscripts (calls : Bool) : Turn grammar (grammar.subscript calls)
  | steps : Turn grammar stepAfter
  | operators (noIn : Bool) (least : Nat) :
      Turn grammar (grammar.operatorRound noIn least (grammar.operators noIn))
  | aliasPath : Turn grammar aliasStep

variable {setting : Setting} {room : Nat} {α : Type}

section

variable {counts : α → Prop} {parser : Parser α}

theorem Construct.consumes (construct : (Grammar.within setting room).Construct counts parser) :
    Consumes counts parser := by
  have levels : (Grammar.within setting room).deeper.Consumes :=
    Deeper.within_consumes setting room
  have onward : (Grammar.within setting room).deeper.Follows State.Onward :=
    Deeper.within_obeys setting room
  cases construct <;> infer_instance

theorem Construct.walks (construct : (Grammar.within setting room).Construct counts parser) :
    Follows State.Walks parser := by
  have levels : (Grammar.within setting room).deeper.Follows State.Walks :=
    Deeper.within_obeys setting room
  cases construct <;> infer_instance

theorem Construct.isSolid (construct : (Grammar.within setting room).Construct counts parser)
    {state after : State} {value : α} (ok : parser state = .ok value after) (counted : counts value)
    (inside : state.cursor.current.isEnd = false) : state.cursor.current.isSolid = true := by
  have levels : (Grammar.within setting room).deeper.BeginsSolid :=
    Deeper.within_beginsSolid setting room
  cases construct with
  | statement => exact (statement_beginsSolid levels).isSolid ok counted
  | slotStatement => exact (slot_beginsSolid levels.statement).isSolid ok counted
  | slotExpression =>
      exact (slot_beginsSolid (bareExpression_beginsSolid levels)).isSolid ok counted
  | nestedStatement => exact levels.statement.isSolid ok counted
  | anyStatement => exact anyStatement_beginsSolid.isSolid ok counted
  | expression commas noIn => exact (expression_beginsSolid levels commas noIn).isSolid ok counted
  | scriptExpression commas noIn => exact (levels.assignment noIn).bind.isSolid ok counted
  | nestedAssignment noIn => exact (levels.assignment noIn).isSolid ok counted
  | assignment noIn => exact (assignment_beginsSolid noIn).isSolid ok counted
  | nestedUnary calls => exact (levels.unary calls).isSolid ok counted
  | unary calls => exact (unary_beginsSolid calls).isSolid ok counted
  | nestedAtom calls => exact (levels.atom calls).isSolid ok counted
  | atom calls => exact (atom_beginsSolid calls).isSolid ok counted
  | importItem => exact importItem_beginsSolid.isSolid ok counted
  | member first => simp [Token.isSolid, inside, member_isMalformed ok]

end

theorem Round.consumes {step : Parser (Option α)}
    (round : (Grammar.within setting room).Round step) : Consumes Continues step := by
  have levels : (Grammar.within setting room).deeper.Consumes :=
    Deeper.within_consumes setting room
  have onward : (Grammar.within setting room).deeper.Follows State.Onward :=
    Deeper.within_obeys setting room
  cases round <;> infer_instance

theorem Round.walks {step : Parser (Option α)} (round : (Grammar.within setting room).Round step) :
    Follows State.Walks step := by
  have levels : (Grammar.within setting room).deeper.Follows State.Walks :=
    Deeper.within_obeys setting room
  cases round <;> infer_instance

theorem Round.begins {step : Parser (Option α)} (round : (Grammar.within setting room).Round step) :
    BeginsSolid Continues step := by
  have levels : (Grammar.within setting room).deeper.BeginsSolid :=
    Deeper.within_beginsSolid setting room
  cases round with
  | expressions | entries | parameters | signalParameters => exact .listItem _ _ _
  | sequence | declarators => exact .of_mark ','
  | cases => exact switchCase_beginsSolid
  | caseStatements => exact caseItem_beginsSolid levels
  | blockStatements => exact blockItem_beginsSolid levels
  | members first => exact memberRound_beginsSolid first
  | dottedWords => exact .of_mark '.'
  | imports => exact importItem_beginsSolid
  | statements => exact scriptItem_beginsSolid levels

theorem Round.shortens {step : Parser (Option α)}
    (round : (Grammar.within setting room).Round step) (text : List Char) : Shortens text step :=
  shortens_of_consumes round.consumes round.walks round.begins text

theorem Turn.consumes {step : α → Parser (Option α)}
    (turn : (Grammar.within setting room).Turn step) (value : α) :
    Consumes Continues (step value) := by
  have levels : (Grammar.within setting room).deeper.Consumes :=
    Deeper.within_consumes setting room
  have onward : (Grammar.within setting room).deeper.Follows State.Onward :=
    Deeper.within_obeys setting room
  cases turn <;> infer_instance

theorem Turn.walks {step : α → Parser (Option α)} (turn : (Grammar.within setting room).Turn step)
    (value : α) : Follows State.Walks (step value) := by
  have levels : (Grammar.within setting room).deeper.Follows State.Walks :=
    Deeper.within_obeys setting room
  cases turn <;> infer_instance

theorem Turn.begins {step : α → Parser (Option α)} (turn : (Grammar.within setting room).Turn step)
    (value : α) : BeginsSolid Continues (step value) := by
  cases turn with
  | subscripts calls => exact subscript_beginsSolid calls value
  | steps => exact stepAfter_beginsSolid value
  | operators noIn least => exact operatorRound_beginsSolid noIn least _ value
  | aliasPath => exact aliasStep_beginsSolid value

theorem Turn.shortens {step : α → Parser (Option α)}
    (turn : (Grammar.within setting room).Turn step) (text : List Char) (value : α) :
    Shortens text (step value) :=
  shortens_of_consumes (turn.consumes value) (turn.walks value) (turn.begins value) text

theorem Production.walks {parser : Parser α}
    (production : (Grammar.within setting room).Production parser) :
    Follows State.Walks parser := by
  have levels : (Grammar.within setting room).deeper.Follows State.Walks :=
    Deeper.within_obeys setting room
  induction production <;> infer_instance

/-! ## Whole texts -/

variable {text : List Char} {state : State}

theorem Construct.offset_lt {counts : α → Prop} {parser : Parser α}
    (construct : (Grammar.within setting room).Construct counts parser)
    (inText : state.cursor.Over text) (inside : state.cursor.current.isEnd = false) {value : α}
    {after : State} (ok : parser state = .ok value after) (counted : counts value) :
    state.cursor.offset < after.cursor.offset :=
  (offset_lt_of_consumes construct.consumes construct.walks inText
    (construct.isSolid ok counted inside) ok counted).1

/-- The rounds of a repetition yield as long as they go forward, and the repetition
ends with the first that does not. -/
theorem Round.ends {step : Parser (Option α)} (round : (Grammar.within setting room).Round step)
    (inText : state.cursor.Over text) :
    (∀ {value after}, step state = .ok (some value) after →
      state.cursor.offset < after.cursor.offset) ∧ Repeats step state (collect step state) :=
  ⟨fun ok => (offset_lt_of_consumes round.consumes round.walks inText
      (round.begins.isSolid ok nofun) ok nofun).1,
    collect_repeats (round.shortens text) inText⟩

theorem Turn.ends {step : α → Parser (Option α)}
    (turn : (Grammar.within setting room).Turn step) (inText : state.cursor.Over text) (value : α) :
    (∀ {next after}, step value state = .ok (some next) after →
      state.cursor.offset < after.cursor.offset) ∧
        Iterates step value state (iterate step value state) :=
  ⟨fun ok => (offset_lt_of_consumes (turn.consumes value) (turn.walks value) inText
      ((turn.begins value).isSolid ok nofun) ok nofun).1,
    iterate_iterates (turn.shortens text) inText⟩

end Grammar

/-- From any place in a text, and however deep constructs may nest, every construct
that is read leads forward, every repetition goes forward with each of its rounds
until it ends by itself, and every production ends at a place in the text. A text
has tokens up to its end, and the repetitions that read whole texts end. -/
theorem parsing_goes_forward_and_ends (setting : Setting) (room : Nat) {text : List Char}
    {state : State} (inText : state.cursor.Over text) :
    (∀ {α : Type} {counts : α → Prop} {parser : Parser α},
      (Grammar.within setting room).Construct counts parser →
        state.cursor.current.isEnd = false → ∀ {value after}, parser state = .ok value after →
          counts value → state.cursor.offset < after.cursor.offset) ∧
    (∀ {α : Type} {step : Parser (Option α)}, (Grammar.within setting room).Round step →
      (∀ {value after}, step state = .ok (some value) after →
        state.cursor.offset < after.cursor.offset) ∧ Repeats step state (collect step state)) ∧
    (∀ {α : Type} {step : α → Parser (Option α)}, (Grammar.within setting room).Turn step →
      ∀ value, (∀ {next after}, step value state = .ok (some next) after →
        state.cursor.offset < after.cursor.offset) ∧
          Iterates step value state (iterate step value state)) ∧
    (∀ {α : Type} {parser : Parser α}, (Grammar.within setting room).Production parser →
      (finalState (parser state)).cursor.Over text) ∧
    (∃ before last, tokens text = before ++ [last] ∧ last.isEnd = true) ∧
    Repeats Grammar.importItem (.ofText text) (collect Grammar.importItem (.ofText text)) ∧
    Repeats (Grammar.within setting room).scriptItem (.ofText text)
      ((Grammar.within setting room).script (.ofText text)) := by
  have first : (State.ofText text).cursor.Over text := Cursor.over_ofText text
  have importRound : (Grammar.within setting room).Round Grammar.importItem := .imports
  have statementRound : (Grammar.within setting room).Round _ := .statements
  refine ⟨fun construct inside _ _ ok counted => construct.offset_lt inText inside ok counted,
    fun round => round.ends inText, fun turn value => turn.ends inText value,
    fun production => ?_, ?_,
    (importRound.ends first).2, (statementRound.ends first).2⟩
  · have walks : state.Walks (finalState _) := production.walks.holds state
    exact walks.stays_over inText
  · obtain ⟨before, last, tokensEq, isEnd, -⟩ := tokens_end text
    exact ⟨before, last, tokensEq, isEnd⟩

theorem statement_with_array_holes_goes_forward :
    let text := "a[b] = [, 1, , c++];".toList
    let grammar := Grammar.within ⟨text, false, .script⟩ 8
    (State.ofText text).cursor.Over text ∧
      (State.ofText text).cursor.current.isEnd = false ∧
      ∃ statement after, grammar.anyStatement (.ofText text) = .ok statement after ∧
        (State.ofText text).cursor.offset < after.cursor.offset := by
  intro text grammar
  have inText : (State.ofText text).cursor.Over text := Cursor.over_ofText text
  have inside : (State.ofText text).cursor.current.isEnd = false := by decide +kernel
  have accepted : failure (grammar.anyStatement (.ofText text)) = none := by decide +kernel
  refine ⟨inText, inside, ?_⟩
  cases outcome : grammar.anyStatement (.ofText text) with
  | error fault after =>
      rw [outcome] at accepted
      cases accepted
  | ok statement after =>
      exact ⟨statement, after, rfl,
        (parsing_goes_forward_and_ends _ _ inText).1 .anyStatement inside outcome trivial⟩

end Qml
