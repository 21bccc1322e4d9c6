import Qml.Proofs.CommonEnd.Twins
import Qml.Proofs.Reading

/-! # A binding in either text

The beginnings of two texts differ in one name: the first member of an element is
bound to `signal` in the one and to another name in the other. The grammar has a
production of its own for bindings to `signal`. Both make the same of the value, unless
it begins with a word or a block that counts for values only. -/

namespace Qml

open Qml.Parser

/-! ## The path of the first binding -/

def Member.rebind (path : QualifiedName) : Member → Member
  | .binding _ value span => .binding path value span
  | member => member

def Element.rebind (path : QualifiedName) (element : Element) : Element :=
  { element with members := element.members.modifyHead (Member.rebind path) }

/-- Of an element, or of the element that a sequence begins with. -/
def Expr.rebind (path : QualifiedName) : Expr → Expr
  | ⟨.element element, span⟩ => ⟨.element (element.rebind path), span⟩
  | ⟨.sequence (⟨.element element, place⟩ :: more), span⟩ =>
    ⟨.sequence (⟨.element (element.rebind path), place⟩ :: more), span⟩
  | expr => expr

def Statement.rebind (path : QualifiedName) : Statement → Statement
  | ⟨.expression expr, span⟩ => ⟨.expression (expr.rebind path), span⟩
  | statement => statement

def Document.rebind (path : QualifiedName) (document : Document) : Document :=
  { document with root := document.root.rebind path }

/-- The tree with another path in the first member of the element that it begins with,
if that member is a binding. -/
def Tree.rebind (path : QualifiedName) : Tree → Tree
  | .document found => .document (found.rebind path)
  | .script statements => .script (statements.modifyHead (Statement.rebind path))

/-! ## Values -/

theorem Parser.bind_congr_at {α β : Type} {first first' : Parser α} {next : α → Parser β}
    {state state' : State} (same : first state = first' state') :
    (first >>= next) state = (first' >>= next) state' := by
  change EStateM.bind first next state = EStateM.bind first' next state'
  unfold EStateM.bind
  rw [same]

/-- The tokens begin with `function`, or with a block of which the first key is a string.
Only where a value is awaited are these read in their own way. -/
def opensValueForm : List Token → Bool
  | [] => false
  | token :: rest =>
    token.isKeyword .function || (token.isPunctuation '{' && rest.head?.any Token.isString)

namespace Grammar

variable {grammar : Grammar} {state : State}

theorem valueOr_of_plain (plain : opensValueForm state.cursor.remaining = false)
    (otherwise : Parser Statement) : grammar.valueOr otherwise state = otherwise state := by
  simp only [opensValueForm, Cursor.remaining, Bool.or_eq_false_iff] at plain
  obtain ⟨notFunction, notKeyed⟩ := plain
  have unkeyed :
      (state.cursor.current.isPunctuation '{' && state.cursor.peek.isString) = false := by
    unfold Cursor.peek
    cases upcoming : state.cursor.upcoming with
    | nil =>
        cases kind : state.cursor.current.kind <;>
          simp [Token.isPunctuation, Token.isString, kind]
    | cons next rest => simpa [upcoming] using notKeyed
  simp only [valueOr, run_token, run_peek, unkeyed, notFunction, Bool.false_eq_true, if_false]

/-- What is captured only depends on what the parser does in the context of a value. -/
theorem capturedValue_congr {parser parser' : Parser Statement}
    (same : parser { state with scope := Scope.inValue.enter state.scope } =
      parser' { state with scope := Scope.inValue.enter state.scope }) :
    grammar.capturedValue parser state = grammar.capturedValue parser' state := by
  have captured : grammar.capture parser { state with scope := Scope.inValue.enter state.scope } =
      grammar.capture parser' { state with scope := Scope.inValue.enter state.scope } := by
    simp only [capture, run_offset]
    exact bind_congr_at same
  apply bind_congr_at
  simp only [captureBody, inScope, captured]

theorem propertyValue_of_plain {helper component : String}
    (declarative : grammar.dialect = .declarative helper component)
    (plain : opensValueForm state.cursor.remaining = false) :
    grammar.propertyValue state = grammar.capturedValue grammar.statement state := by
  have unawaited : grammar.capturedValue grammar.statement state =
      grammar.capturedValue (pragmaOr grammar.deeper.statement) state.settled := by
    unfold statement
    rw [declarative]
    rfl
  rw [propertyValue_run, unawaited]
  apply capturedValue_congr
  have otherwise {inside : State} (here : inside.cursor = state.cursor) :
      grammar.valueOr grammar.deeper.statement inside = grammar.deeper.statement inside :=
    valueOr_of_plain (here ▸ plain) _
  simp only [pragmaOr, run_atPunctuation, run_ite]
  split
  · rfl
  · exact otherwise rfl

/-! ## Members that bind -/

def bindingTo (path : QualifiedName) (start : Span) (value : Parser Captured) :
    Parser (Option Member) := do
  let value ← value
  return some (.binding path (.expression value) (← spanFrom start))

theorem dottedWord_of_kind {mark : Char} (kind : state.cursor.current.kind = .punctuation mark)
    (other : mark ≠ '.') : dottedWord state = .ok none state := by
  have notDot : state.cursor.current.isPunctuation '.' = false := by
    simp [Token.isPunctuation, kind, other]
  simp only [dottedWord, run_atPunctuation, notDot, Bool.false_eq_true, if_false]
  rfl

theorem qualifiedName_of_name {name : String} {mark : Char}
    (named : state.cursor.current.kind = .name name)
    (ends : state.advanced.cursor.current.kind = .punctuation mark) (other : mark ≠ '.') :
    qualifiedName state = .ok ⟨[name]⟩ state.advanced := by
  have word : expectWord state = .ok name state.advanced :=
    expectWord_eq_ok.mpr ⟨by rw [named]; rfl, rfl⟩
  exact bind_eq_ok.mpr ⟨_, _, word,
    bind_eq_ok.mpr ⟨_, _, collect_of_none (dottedWord_of_kind ends other), rfl⟩⟩

theorem run_of_ok {α β : Type} {first : Parser α} {next : α → Parser β} {between : State}
    {value : α} (ok : first state = .ok value between) :
    (first >>= next) state = next value between := by
  change EStateM.bind first next state = _
  unfold EStateM.bind
  rw [ok]

theorem member_of_signal {first : Bool} (spelled : state.cursor.current.kind = .name "signal")
    (colon : state.advanced.cursor.current.isPunctuation ':' = true)
    (plainKeys : state.scope.stringKeys = false) :
    grammar.member first state =
      bindingTo ⟨["signal"]⟩ state.cursor.current.span (grammar.capturedValue grammar.statement)
        state.advanced.advanced := by
  have notFunction : state.cursor.current.isKeyword .function = false := by
    simp [Token.isKeyword, spelled]
  have isSignal : state.cursor.current.isName "signal" = true := by
    simp [Token.isName, spelled]
  simp only [member, run_token, run_scope, plainKeys, notFunction, isSignal, Bool.false_eq_true,
    if_false, if_true, run_advance, signalMember, bindingTo, bind_assoc, run_atPunctuation, colon,
    run_ite, pure_bind]

theorem member_of_name {first : Bool} {name : String} {mark : Char}
    (named : state.cursor.current.kind = .name name) (notSignal : name ≠ "signal")
    (next : state.advanced.cursor.current.kind = .punctuation mark)
    (undeclared : name = "property" → mark = ':') (plainKeys : state.scope.stringKeys = false) :
    grammar.member first state =
      (grammar.pathMember false state.cursor.current.span >>= fun found => pure (some found))
        state := by
  have notFunction : state.cursor.current.isKeyword .function = false := by
    simp [Token.isKeyword, named]
  have isOther : state.cursor.current.isName "signal" = false := by
    simp [Token.isName, named, notSignal]
  have peeked : state.cursor.peek.kind = .punctuation mark := next
  have notProperty : state.cursor.peek.isName "property" = false := by
    simp [Token.isName, peeked]
  have undeclared : ¬ (name = "property" ∧ state.cursor.peek.isPunctuation ':' = false) := by
    rintro ⟨isProperty, notColon⟩
    simp [Token.isPunctuation, peeked, undeclared isProperty] at notColon
  simp only [member, run_token, run_scope, plainKeys, notFunction, isOther, Bool.false_eq_true,
    if_false, memberByToken, named]
  apply bind_congr_at
  simp only [namedMember, run_peek, notProperty, Bool.and_false, Bool.false_eq_true, if_false]
  rw [if_neg (by simpa using undeclared)]

theorem pathMember_of_colon {name : String} {start : Span}
    (named : state.cursor.current.kind = .name name)
    (colon : state.advanced.cursor.current.kind = .punctuation ':')
    (notElement : isElementWord name = false) (notHandler : isHandlerWord name = false) :
    (grammar.pathMember false start >>= fun found => pure (some found)) state =
      bindingTo ⟨[name]⟩ start grammar.propertyValue state.advanced.advanced := by
  have path := qualifiedName_of_name named colon (by decide)
  have notType : QualifiedName.isElementType ⟨[name]⟩ = false := notElement
  have noHandler : QualifiedName.isHandler ⟨[name]⟩ = false := notHandler
  have isColon : state.advanced.cursor.current.isPunctuation ':' = true := decide_eq_true colon
  have notBrace : state.advanced.cursor.current.isPunctuation '{' = false := by
    rw [Token.isPunctuation, colon]
    rfl
  simp only [pathMember, bind_assoc]
  rw [run_of_ok path]
  simp only [Bool.not_false, Bool.true_and, notType, Bool.false_eq_true, if_false, bind_assoc,
    run_atPunctuation, notBrace, expectPunctuation, isColon, if_true, run_advance, bindingValue,
    noHandler, pure_bind, bindingTo]

theorem member_of_type {first : Bool} {name : String}
    (named : state.cursor.current.kind = .name name)
    (brace : state.advanced.cursor.current.kind = .punctuation '{')
    (isElement : isElementWord name = true) (plainKeys : state.scope.stringKeys = false) :
    grammar.member first state =
      (grammar.elementTail ⟨[name]⟩ state.cursor.current.span >>= fun element =>
        pure (some (.element element))) state.advanced := by
  have notSignal : name ≠ "signal" := by
    rintro rfl
    exact absurd isElement (by decide)
  have undeclared : name = "property" → '{' = ':' := by
    rintro rfl
    exact absurd isElement (by decide)
  have path := qualifiedName_of_name named brace (by decide)
  have isType : QualifiedName.isElementType ⟨[name]⟩ = true := isElement
  rw [member_of_name named notSignal brace undeclared plainKeys]
  simp only [pathMember, bind_assoc]
  rw [run_of_ok path]
  simp only [Bool.not_false, Bool.true_and, isType, if_true, bind_assoc, pure_bind]

/-! ## An element as an expression -/

section

variable {name : String} (named : state.cursor.current.kind = .name name)
  (brace : state.advanced.cursor.current.kind = .punctuation '{')

include named brace

theorem unary_before_brace : grammar.unary true state =
    .ok ⟨.name name, state.cursor.current.span⟩ state.advanced := by
  have isAtom : simpleAtom? state.cursor.current.kind = some (.name name) := by
    rw [named]
    rfl
  have noSubscript (expr : Expr) :
      grammar.subscript true expr state.advanced = .ok none state.advanced := by
    apply subscript_of_other
    intro mark among
    rw [Token.isPunctuation, brace]
    simp only [List.mem_cons, List.not_mem_nil, or_false] at among
    rcases among with rfl | rfl | rfl <;> rfl
  have noStep (expr : Expr) : stepAfter expr state.advanced = .ok none state.advanced := by
    simp only [stepAfter, run_token, brace]
    rfl
  have atomOk : grammar.atom true state =
      .ok ⟨.name name, state.cursor.current.span⟩ state.advanced :=
    bind_eq_ok.mpr ⟨_, _, bareAtom_of_simpleAtom? isAtom, iterate_of_none (noSubscript _)⟩
  simp only [Grammar.unary, run_token, named]
  exact bind_eq_ok.mpr ⟨_, _, atomOk, iterate_of_none (noStep _)⟩

/-- Before a brace a name is a whole assignment. -/
theorem assignment_before_brace : grammar.assignment false state =
    .ok ⟨.name name, state.cursor.current.span⟩ state.advanced := by
  have noOperator : binaryOperator? false 0 state.advanced.cursor.current = none := by
    simp only [binaryOperator?, brace]
  have notQuestion : state.advanced.cursor.current.isOperator .question = false := by
    rw [Token.isOperator, brace]
    rfl
  have noAssignment : assignmentOperator? state.advanced.cursor.current = none := by
    simp only [assignmentOperator?, brace]
  have operationOk : grammar.operation false state =
      .ok ⟨.name name, state.cursor.current.span⟩ state.advanced := by
    refine bind_eq_ok.mpr ⟨_, _, unary_before_brace named brace, ?_⟩
    rw [operators_eq]
    exact iterate_of_none (operatorRound_eq_none.mpr ⟨noOperator, rfl⟩)
  have conditionalOk : grammar.conditional false state =
      .ok ⟨.name name, state.cursor.current.span⟩ state.advanced := by
    refine bind_eq_ok.mpr ⟨_, _, operationOk, ?_⟩
    simp only [run_atOperator, notQuestion, Bool.false_eq_true, if_false]
    rfl
  simp only [Grammar.assignment, run_token]
  refine bind_eq_ok.mpr ⟨_, _, conditionalOk, ?_⟩
  simp only [run_token, noAssignment]
  rfl

end

end Grammar

/-! ## Both texts -/

namespace CommonEnd

open Qml.Grammar

variable {ends : CommonEnd} {name : String} {state other : State}

/-- Both parses stand before a name and a colon, `signal` in the first text. What comes
behind is the same. -/
structure AtName (ends : CommonEnd) (name : String) (state other : State) : Prop where
  spelled : state.cursor.current.kind = .name "signal"
  named : other.cursor.current.kind = .name name
  span_eq : state.cursor.current.span = other.cursor.current.span
  colon : state.advanced.cursor.current.kind = .punctuation ':'
  colon' : other.advanced.cursor.current.kind = .punctuation ':'
  plain : opensValueForm other.advanced.advanced.cursor.remaining = false
  plainKeys : state.scope.stringKeys = false
  twins : ends.Twins state.advanced.advanced other.advanced.advanced

/-- A name to which the grammar binds any statement. -/
structure Plain (name : String) : Prop where
  notSignal : name ≠ "signal"
  notElement : isElementWord name = false
  notHandler : isHandlerWord name = false

theorem AtName.scope (stands : ends.AtName name state other) :
    state.scope.Agrees other.scope :=
  stands.twins.scope

theorem AtName.rescoped (stands : ends.AtName name state other) {scope scope' : Scope}
    (agrees : scope.Agrees scope') (plainKeys : scope.stringKeys = false) :
    ends.AtName name { state with scope } { other with scope := scope' } :=
  { stands with plainKeys, twins := stands.twins.rescoped agrees }

theorem captured_eq {value value' : Captured} (same : (Labels.both .identity).Same value value') :
    value = value' := by
  have kept : value.relabel .identity = value'.relabel .identity := same
  rwa [Captured.relabel_identity, Captured.relabel_identity] at kept

theorem match_bindingTo (room : Nat) (path path' : QualifiedName) (start : Span)
    (twins : ends.Twins state other) :
    ends.Match (fun found found' => ∃ value span, found = some (.binding path value span) ∧
        found' = some (.binding path' value span))
      (bindingTo path start ((ends.grammarOf ends.first room).capturedValue
        (ends.grammarOf ends.first room).statement) state)
      (bindingTo path' start ((ends.grammarOf ends.second room).capturedValue
        (ends.grammarOf ends.second room).statement) other) := by
  have values := match_of_production (fun grammar => grammar.capturedValue grammar.statement)
    (fun levels declarative => Comparison.capturedValue_related declarative
      (Comparison.statement_related levels)) room twins
  apply values.bind
  intro value value' after after' same twins
  cases captured_eq same
  apply (match_spanFrom start twins).bind
  rintro span _ last last' rfl twins
  exact .ok ⟨.expression value, span, rfl, rfl⟩ twins

theorem member_match (room : Nat) (plain : Plain name) (first : Bool)
    (stands : ends.AtName name state other) :
    ends.Match (fun found found' => ∃ value span,
        found = some (.binding ⟨["signal"]⟩ value span) ∧
          found' = some (.binding ⟨[name]⟩ value span))
      ((ends.grammarOf ends.first room).member first state)
      ((ends.grammarOf ends.second room).member first other) := by
  have plainKeys : other.scope.stringKeys = false :=
    stands.scope.stringKeys_eq.symm.trans stands.plainKeys
  rw [member_of_signal stands.spelled (decide_eq_true stands.colon) stands.plainKeys,
    member_of_name stands.named plain.notSignal stands.colon' (fun _ => rfl) plainKeys,
    pathMember_of_colon stands.named stands.colon' plain.notElement plain.notHandler,
    ← stands.span_eq]
  have value : (ends.grammarOf ends.second room).propertyValue other.advanced.advanced =
      (ends.grammarOf ends.second room).capturedValue
        (ends.grammarOf ends.second room).statement other.advanced.advanced :=
    propertyValue_of_plain rfl stands.plain
  have there := match_bindingTo room ⟨["signal"]⟩ ⟨[name]⟩ state.cursor.current.span stands.twins
  have same : bindingTo ⟨[name]⟩ state.cursor.current.span
      (ends.grammarOf ends.second room).propertyValue other.advanced.advanced =
    bindingTo ⟨[name]⟩ state.cursor.current.span ((ends.grammarOf ends.second room).capturedValue
      (ends.grammarOf ends.second room).statement) other.advanced.advanced := bind_congr_at value
  rw [same]
  exact there

theorem AtName.notClosing (stands : ends.AtName name state other) :
    state.cursor.current.isPunctuation '}' = false ∧
      other.cursor.current.isPunctuation '}' = false ∧
      state.cursor.current.isEnd = false ∧ other.cursor.current.isEnd = false := by
  simp [Token.isPunctuation, Token.isEnd, stands.spelled, stands.named]

theorem list_eq_of_kept {α : Type} [Labeled α]
    (kept : ∀ value : α, Labeled.relabel .identity value = value) {values others : List α}
    (same : (Labels.both .identity).Same values others) : values = others := by
  have maps : values.map (Labeled.relabel .identity) = others.map (Labeled.relabel .identity) :=
    same
  rwa [List.map_congr_left fun value _ => kept value, List.map_id',
    List.map_congr_left fun value _ => kept value, List.map_id'] at maps

theorem members_eq {members members' : List (Option Member)}
    (same : (Labels.both .identity).Same members members') : members = members' := by
  refine list_eq_of_kept (fun found => ?_) same
  cases found with
  | none => rfl
  | some member => exact congrArg some member.relabel_identity

theorem members_match (room : Nat) (plain : Plain name) (stands : ends.AtName name state other) :
    ends.Match (fun found found' => found' = found.modifyHead (Member.rebind ⟨[name]⟩))
      ((ends.grammarOf ends.first room).members state)
      ((ends.grammarOf ends.second room).members other) := by
  obtain ⟨open', open'', inside, inside'⟩ := stands.notClosing
  have first : ends.Match (fun found found' => ∃ value span,
        found = some (some (.binding ⟨["signal"]⟩ value span)) ∧
          found' = some (some (.binding ⟨[name]⟩ value span)))
      ((ends.grammarOf ends.first room).memberRound true state)
      ((ends.grammarOf ends.second room).memberRound true other) := by
    simp only [memberRound, run_atPunctuation, open', open'', run_atEnd, inside, inside',
      Bool.false_eq_true, if_false]
    apply (member_match room plain true stands).bind
    rintro _ _ after after' ⟨value, span, rfl, rfl⟩ twins
    exact .ok ⟨value, span, rfl, rfl⟩ twins
  apply first.bind
  rintro _ _ after after' ⟨value, span, rfl, rfl⟩ twins
  have more := match_of_production (fun grammar => collect (grammar.memberRound false))
    (fun levels declarative => by
      have onward := levels.onward
      have consumes := levels.consumes
      exact (Comparison.memberRound_related levels declarative false).collect) room twins
  apply more.bind
  intro found found' last last' same twins
  cases members_eq same
  exact .ok rfl twins

structure AtBlock (ends : CommonEnd) (name : String) (state other : State) : Prop where
  brace : state.cursor.current.kind = .punctuation '{'
  brace' : other.cursor.current.kind = .punctuation '{'
  inside : ends.AtName name state.advanced other.advanced

theorem AtBlock.rescoped (stands : ends.AtBlock name state other) {scope scope' : Scope}
    (agrees : scope.Agrees scope') (plainKeys : scope.stringKeys = false) :
    ends.AtBlock name { state with scope } { other with scope := scope' } :=
  { stands with inside := stands.inside.rescoped agrees plainKeys }

theorem deeper_members_match (room : Nat) (plain : Plain name)
    (stands : ends.AtName name state other) :
    ends.Match (fun found found' => found' = found.modifyHead (Member.rebind ⟨[name]⟩))
      ((ends.grammarOf ends.first room).deeper.members state)
      ((ends.grammarOf ends.second room).deeper.members other) := by
  cases room with
  | zero => exact match_refuse _ stands.span_eq
  | succ room =>
      apply Match.inScope Scope.uniform_inBlock stands.scope
      apply members_match room plain
      exact stands.rescoped (Scope.uniform_inBlock.enter stands.scope) stands.plainKeys

theorem memberBlock_match (room : Nat) (plain : Plain name)
    (stands : ends.AtBlock name state other) :
    ends.Match (fun found found' => found' = found.modifyHead (Member.rebind ⟨[name]⟩))
      ((ends.grammarOf ends.first room).memberBlock state)
      ((ends.grammarOf ends.second room).memberBlock other) := by
  have brace : state.cursor.current.isPunctuation '{' = true := decide_eq_true stands.brace
  have brace' : other.cursor.current.isPunctuation '{' = true := decide_eq_true stands.brace'
  simp only [memberBlock, expectPunctuation, bind_assoc, run_atPunctuation, brace, brace', if_true,
    run_advance]
  apply (deeper_members_match room plain stands.inside).bind
  intro members members' after after' same twins
  apply (match_of_related (Comparison.expectPunctuation_related '}')
    (Comparison.expectPunctuation_related '}') twins).bind
  intro _ _ last last' _ twins
  exact .ok same twins

/-! ## Documents -/

structure AtElement (ends : CommonEnd) (name : String) (state other : State) : Prop where
  typed : state.cursor.current.kind = .name "Item"
  typed' : other.cursor.current.kind = .name "Item"
  span_eq : state.cursor.current.span = other.cursor.current.span
  ahead_eq : state.ahead = other.ahead
  block : ends.AtBlock name state.advanced other.advanced

theorem elementTail_match (room : Nat) (plain : Plain name) (typeName : QualifiedName)
    (start : Span) (stands : ends.AtBlock name state other) :
    ends.Match (fun found found' => found' = found.rebind ⟨[name]⟩)
      ((ends.grammarOf ends.first room).elementTail typeName start state)
      ((ends.grammarOf ends.second room).elementTail typeName start other) := by
  have notTarget : state.cursor.current.isName "on" = false := by
    simp [Token.isName, stands.brace]
  have notTarget' : other.cursor.current.isName "on" = false := by
    simp [Token.isName, stands.brace']
  simp only [elementTail, elementTarget, bind_assoc, run_atName, notTarget, notTarget',
    Bool.false_eq_true, if_false, pure_bind]
  apply (memberBlock_match room plain stands).bind
  rintro members _ after after' rfl twins
  apply (match_spanFrom start twins).bind
  rintro span _ last last' rfl twins
  exact .ok rfl twins

theorem rootElement_match (room : Nat) (plain : Plain name)
    (stands : ends.AtElement name state other) :
    ends.Match (fun found found' => found' = found.rebind ⟨[name]⟩)
      ((ends.grammarOf ends.first room).rootElement state)
      ((ends.grammarOf ends.second room).rootElement other) := by
  have plainKeys : state.scope.stringKeys = false := stands.block.inside.plainKeys
  have plainKeys' : other.scope.stringKeys = false :=
    stands.block.inside.scope.stringKeys_eq.symm.trans plainKeys
  have root := elementTail_match room plain ⟨["Item"]⟩ state.cursor.current.span stands.block
  have members : ends.Match (fun found found' => ∃ element : Element,
        found = some (.element element) ∧ found' = some (.element (element.rebind ⟨[name]⟩)))
      ((ends.grammarOf ends.first room).member false state)
      ((ends.grammarOf ends.second room).member false other) := by
    rw [member_of_type stands.typed stands.block.brace (by decide) plainKeys,
      member_of_type stands.typed' stands.block.brace' (by decide) plainKeys', ← stands.span_eq]
    apply root.bind
    rintro element _ after after' rfl twins
    exact .ok ⟨element, rfl, rfl⟩ twins
  simp only [rootElement, run_token]
  apply members.bind
  rintro _ _ after after' ⟨element, rfl, rfl⟩ twins
  exact .ok rfl twins

theorem document_match (room : Nat) (plain : Plain name)
    (stands : ends.AtElement name state other) :
    ends.Match (fun found found' => found' = found.rebind ⟨[name]⟩)
      ((ends.grammarOf ends.first room).document state)
      ((ends.grammarOf ends.second room).document other) := by
  have noImport {state : State} (typed : state.cursor.current.kind = .name "Item") :
      collect importItem state = .ok [] state := by
    have notImport : state.cursor.current.isName "import" = false := by
      simp [Token.isName, typed]
    apply collect_of_none
    simp only [importItem, run_token, notImport, Bool.false_eq_true, if_false]
    rfl
  have inside : state.cursor.current.isEnd = false := by simp [Token.isEnd, stands.typed]
  have inside' : other.cursor.current.isEnd = false := by simp [Token.isEnd, stands.typed']
  simp only [document]
  rw [run_of_ok (noImport stands.typed), run_of_ok (noImport stands.typed')]
  simp only [run_atEnd, inside, inside', Bool.false_eq_true, if_false]
  apply (rootElement_match room plain stands).bind
  rintro root _ after after' rfl twins
  have atEnd : after.cursor.current.isEnd = after'.cursor.current.isEnd := by
    simp [Token.isEnd, twins.kind_eq]
  simp only [run_atEnd, atEnd]
  cases after'.cursor.current.isEnd with
  | true => exact .ok rfl twins
  | false => exact match_unexpected twins

/-! ## Scripts -/

theorem AtElement.scope (stands : ends.AtElement name state other) :
    state.scope.Agrees other.scope :=
  stands.block.inside.scope

theorem AtElement.plainKeys (stands : ends.AtElement name state other) :
    state.scope.stringKeys = false :=
  stands.block.inside.plainKeys

theorem AtElement.settled (stands : ends.AtElement name state other) :
    ends.AtElement name state.settled other.settled := by
  have value := stands.block.inside.twins.settled
  exact { stands with block := { stands.block with inside :=
    { stands.block.inside with twins := value } } }

theorem AtElement.rescoped (stands : ends.AtElement name state other) {scope scope' : Scope}
    (agrees : scope.Agrees scope') (plainKeys : scope.stringKeys = false) :
    ends.AtElement name { state with scope } { other with scope := scope' } :=
  { stands with block := stands.block.rescoped agrees plainKeys }

theorem expr_rebind_sequenceOf (path : QualifiedName) (element : Element) (span : Span)
    (more : List Expr) :
    (sequenceOf ⟨.element element, span⟩ more).rebind path =
      sequenceOf ⟨.element (element.rebind path), span⟩ more := by
  cases more with
  | nil => rfl
  | cons second more => rfl

theorem element_match (room : Nat) (plain : Plain name) (start : Span)
    (stands : ends.AtBlock name state other) :
    ends.Match (fun found found' => ∃ element span, found = ⟨.element element, span⟩ ∧
        found' = ⟨.element (element.rebind ⟨[name]⟩), span⟩)
      ((ends.grammarOf ends.first room).elementOr start ⟨.name "Item", start⟩ state)
      ((ends.grammarOf ends.second room).elementOr start ⟨.name "Item", start⟩ other) := by
  have brace : state.cursor.current.isPunctuation '{' = true := decide_eq_true stands.brace
  have brace' : other.cursor.current.isPunctuation '{' = true := decide_eq_true stands.brace'
  simp only [elementOr, run_atPunctuation, brace, brace', Expr.qualifiedName?, Expr.segments?,
    Option.map_some]
  apply (memberBlock_match room plain stands).bind
  rintro members _ after after' rfl twins
  apply (match_spanFrom start twins).bind
  rintro span _ last last' rfl twins
  exact .ok ⟨⟨⟨["Item"]⟩, none, members, span⟩, span, rfl, rfl⟩ twins

theorem sequenceItem_match (room : Nat) (plain : Plain name)
    (stands : ends.AtElement name state other) :
    ends.Match (fun found found' => ∃ element span, found = ⟨.element element, span⟩ ∧
        found' = ⟨.element (element.rebind ⟨[name]⟩), span⟩)
      ((ends.grammarOf ends.first room).sequenceItem false state)
      ((ends.grammarOf ends.second room).sequenceItem false other) := by
  cases room with
  | zero =>
      have refused : ends.Match (fun _ _ : Expr => False)
          ((ends.grammarOf ends.first 0).deeper.assignment false state)
          ((ends.grammarOf ends.second 0).deeper.assignment false other) :=
        match_refuse _ stands.span_eq
      simp only [sequenceItem, run_token]
      exact refused.bind False.elim
  | succ room =>
      have nameOk {before : List Char} {state : State}
          (typed : state.cursor.current.kind = .name "Item")
          (brace : state.advanced.cursor.current.kind = .punctuation '{') :
          (ends.grammarOf before (room + 1)).deeper.assignment false state =
            .ok ⟨.name "Item", state.cursor.current.span⟩ state.advanced := by
        have entered : (ends.grammarOf before room).assignment false
              { state with scope := Scope.deeper.enter state.scope } =
            .ok ⟨.name "Item", state.cursor.current.span⟩
              { state.advanced with scope := Scope.deeper.enter state.scope } :=
          assignment_before_brace typed brace
        exact inScope_eq_ok.mpr ⟨_, entered, rfl⟩
      simp only [sequenceItem, run_token]
      rw [run_of_ok (nameOk stands.typed stands.block.brace),
        run_of_ok (nameOk stands.typed' stands.block.brace'), ← stands.span_eq]
      exact element_match (room + 1) plain state.cursor.current.span stands.block

theorem expression_match (room : Nat) (plain : Plain name)
    (stands : ends.AtElement name state other) :
    ends.Match (fun found found' => found' = found.rebind ⟨[name]⟩)
      ((ends.grammarOf ends.first room).expression true false state)
      ((ends.grammarOf ends.second room).expression true false other) := by
  apply (sequenceItem_match room plain stands).bind
  rintro _ _ after after' ⟨element, span, rfl, rfl⟩ twins
  have more := match_of_production (fun grammar => collect (grammar.sequenceStep false))
    (fun levels declarative => by
      have onward := levels.onward
      have consumes := levels.consumes
      exact ((Comparison.sequenceStep_related levels false).tighten
        (Comparison.not_crossing declarative)).collect) room twins
  simp only [sequenceTail, if_true]
  apply more.bind
  intro found found' last last' same twins
  cases list_eq_of_kept Expr.relabel_identity same
  exact .ok (expr_rebind_sequenceOf _ element span found).symm twins

theorem simpleStatement_match (room : Nat) (plain : Plain name)
    (stands : ends.AtElement name state other) :
    ends.Match (fun found found' => found' = found.rebind ⟨[name]⟩)
      ((ends.grammarOf ends.first room).simpleStatement state)
      ((ends.grammarOf ends.second room).simpleStatement other) := by
  simp only [simpleStatement, run_token]
  rw [← stands.span_eq]
  apply (expression_match room plain stands).bind
  rintro expr _ after after' rfl twins
  apply (match_of_production (fun grammar => grammar.semicolon)
    (fun _ _ => Comparison.semicolon_related) room twins).bind
  intro _ _ between between' _ twins
  apply (match_spanFrom state.cursor.current.span twins).bind
  rintro span _ last last' rfl twins
  exact .ok rfl twins

theorem anyStatement_of_type {grammar : Grammar} {state : State} {name : String}
    (named : state.cursor.current.kind = .name name)
    (brace : state.advanced.cursor.current.kind = .punctuation '{') :
    grammar.anyStatement state = grammar.simpleStatement state := by
  have peeked : state.cursor.peek.kind = .punctuation '{' := brace
  have notLabel : state.cursor.peek.isPunctuation ':' = false := by
    rw [Token.isPunctuation, peeked]
    rfl
  simp only [anyStatement, run_token, named, run_peek, notLabel, Bool.false_eq_true, if_false]

theorem statement_match (room : Nat) (plain : Plain name)
    (stands : ends.AtElement name state other) :
    ends.Match (fun found found' => found' = found.rebind ⟨[name]⟩)
      ((ends.grammarOf ends.first room).statement state)
      ((ends.grammarOf ends.second room).statement other) := by
  have slot {before : List Char} {state : State}
      (typed : state.cursor.current.kind = .name "Item") :
      (ends.grammarOf before room).statement state =
        (ends.grammarOf before room).deeper.statement state.settled := by
    have notDot : state.settled.cursor.current.isPunctuation '.' = false := by
      change state.cursor.current.isPunctuation '.' = false
      rw [Token.isPunctuation, typed]
      rfl
    change pragmaOr (ends.grammarOf before room).deeper.statement state.settled = _
    simp only [pragmaOr, run_atPunctuation, notDot, Bool.false_eq_true, if_false]
  rw [slot stands.typed, slot stands.typed']
  cases room with
  | zero => exact match_refuse _ stands.span_eq
  | succ room =>
      have settled : ends.AtElement name state.settled other.settled := stands.settled
      apply Match.inScope Scope.uniform_deeper settled.scope
      have inside := settled.rescoped (Scope.uniform_deeper.enter settled.scope) settled.plainKeys
      rw [anyStatement_of_type inside.typed inside.block.brace,
        anyStatement_of_type inside.typed' inside.block.brace']
      exact simpleStatement_match room plain inside

theorem script_match (room : Nat) (plain : Plain name)
    (stands : ends.AtElement name state other) :
    ends.Match (fun found found' => found' = found.modifyHead (Statement.rebind ⟨[name]⟩))
      ((ends.grammarOf ends.first room).script state)
      ((ends.grammarOf ends.second room).script other) := by
  have inside : state.cursor.current.isEnd = false := by simp [Token.isEnd, stands.typed]
  have inside' : other.cursor.current.isEnd = false := by simp [Token.isEnd, stands.typed']
  have first : ends.Match (fun found found' => ∃ statement, found = some statement ∧
        found' = some (statement.rebind ⟨[name]⟩))
      ((ends.grammarOf ends.first room).scriptItem state)
      ((ends.grammarOf ends.second room).scriptItem other) := by
    simp only [scriptItem, run_atEnd, inside, inside', Bool.false_eq_true, if_false]
    apply (statement_match room plain stands).bind
    rintro statement _ after after' rfl twins
    exact .ok ⟨statement, rfl, rfl⟩ twins
  simp only [script, collect, run_remaining, Cursor.remaining, collectWithin]
  apply first.bind
  rintro _ _ after after' ⟨statement, rfl, rfl⟩ twins
  apply (match_scriptItems room stands.ahead_eq twins).bind
  intro more more' last last' same twins
  cases list_eq_of_kept Statement.relabel_identity same
  exact .ok rfl twins

/-! ## Trees -/

theorem tree_match (plain : Plain name) (stands : ends.AtElement name state other) :
    ends.Match (fun found found' => found' = found.rebind ⟨[name]⟩)
      (ends.options.tree (ends.first ++ ends.rest) state)
      (ends.options.tree (ends.second ++ ends.rest) other) := by
  unfold Options.tree
  cases ends.options.kind with
  | document =>
      apply (document_match ends.options.limit plain stands).bind
      rintro found _ after after' rfl twins
      exact .ok rfl twins
  | script =>
      apply (script_match ends.options.limit plain stands).bind
      rintro found _ after after' rfl twins
      exact .ok rfl twins

end CommonEnd

end Qml
