import Qml.Proofs.Beginnings.Statement
import Qml.Proofs.Context

/-! # Where parsed members begin

The span of a member is taken before the comma that separates it from the one before
it, and its first token is told behind that comma. Where keys are no strings there is
no comma, and the two are the same. -/

namespace Qml

open Qml.Parser

/-! ## First tokens -/

def Member.Starts (origin : Position) (kind : TokenKind) (member : Member) : Prop :=
  member.span.origin = origin ∧ member.BeginsWith kind

namespace Member.Starts

variable {text : List Char} {cursor : Cursor} {member : Member}

theorem current_mem {origin : Position} (within : cursor.Over text)
    (starts : member.Starts origin cursor.current.kind) : cursor.current ∈ tokens text := by
  have inside : cursor.current.isEnd = false := by
    refine Bool.eq_false_iff.mpr fun atEnd => member.not_beginsWith_end ?_
    rw [← (of_decide_eq_true atEnd : cursor.current.kind = .endOfInput)]
    exact starts.2
  exact (within.on inside).current_mem

theorem beginsInPlace (within : cursor.Over text)
    (starts : member.Starts cursor.current.span.origin cursor.current.kind) :
    member.BeginsInPlace text :=
  ⟨_, starts.current_mem within, starts.1.symm, starts.2⟩

theorem beginsAtComma (within : cursor.Over text)
    (isComma : cursor.current.isPunctuation ',' = true)
    (starts : member.Starts cursor.current.span.origin cursor.advance.current.kind) :
    member.BeginsAtComma text := by
  have inside : cursor.current.isEnd = false := by
    have kind : cursor.current.kind = .punctuation ',' := of_decide_eq_true isComma
    simp [Token.isEnd, kind]
  obtain ⟨before, tokensEq⟩ := (within.on inside).split
  rw [within.remaining_eq inside] at tokensEq
  exact ⟨before, _, _, _, tokensEq, isComma, starts.1.symm, starts.2⟩

end Member.Starts

namespace Grammar

variable {grammar : Grammar} {text : List Char} {keyed : Bool} {state after : State}

theorem declaration_starts (readonly : Bool) (start : Span) :
    Yields (fun declaration => declaration.isReadonly = readonly ∧
      declaration.span.origin = start.origin) (grammar.declaration readonly start) := by
  refine .bind_any fun type => .bind_any fun argument => .bind_any fun name => .ite ?_ ?_
  · have aliased : Yields (fun inner : Alias => inner.readonly = readonly ∧
        inner.span.origin = start.origin) (aliasTail readonly start name) :=
      .bind_any fun _ => .bind_any fun target => .bind_any fun _ => .spanned fun _ => ⟨rfl, rfl⟩
    exact aliased.bind fun inner starts => .pure starts
  · exact .bind_any fun value => .spanned fun _ => ⟨rfl, rfl⟩

theorem qualifiedName_begins {name : String} {path : QualifiedName}
    (isName : state.cursor.current.kind = .name name)
    (ok : qualifiedName state = .ok path after) : path.BeginsWith (.name name) := by
  simp only [qualifiedName, bind_eq_ok, expectWord_eq_ok, isName] at ok
  obtain ⟨word, _, ⟨isWord, rfl⟩, more, _, _, ok⟩ := ok
  cases isWord
  cases ok
  exact ⟨_, more, rfl, rfl⟩

theorem pathMember_starts {stringKeys : Bool} {name : String} {start : Span} {member : Member}
    (isName : state.cursor.current.kind = .name name)
    (ok : grammar.pathMember stringKeys start state = .ok member after) :
    member.Starts start.origin (.name name) := by
  obtain ⟨path, between, pathOk, ok⟩ := bind_eq_ok.mp ok
  have begins := qualifiedName_begins isName pathOk
  revert ok
  refine (Yields.ite ?_ (.bind_any fun _ => .ite ?_ ?_)).of_ok
  · have tail : Yields (fun element => (Member.element element).Starts start.origin (.name name))
        (grammar.elementTail path start) :=
      .bind_any fun target => .bind_any fun members => .spanned fun _ => ⟨rfl, begins⟩
    exact tail.bind fun element starts => .pure starts
  · exact .bind_any fun members => .spanned fun _ => ⟨rfl, begins⟩
  · exact .bind_any fun _ => .bind_any fun value => .spanned fun _ => ⟨rfl, .inl begins⟩

theorem namedMember_starts {stringKeys : Bool} {name : String} {start : Span} {member : Member}
    (isName : state.cursor.current.kind = .name name)
    (ok : grammar.namedMember stringKeys name start state = .ok member after) :
    member.Starts start.origin (.name name) := by
  have declared : ∀ readonly, name = (if readonly then "readonly" else "property") →
      Yields (Member.Starts start.origin (.name name))
        (grammar.declaration readonly start >>= fun declaration =>
          pure (Member.declaration declaration)) := by
    rintro readonly rfl
    refine (declaration_starts readonly start).bind fun declaration starts => .pure ⟨starts.2, ?_⟩
    simp [Member.BeginsWith, starts.1]
  simp only [namedMember, run_peek, run_ite, run_advance] at ok
  split at ok
  case isTrue isReadonly =>
      exact (declared true (by simp_all)).of_ok ok
  case isFalse =>
      split at ok
      case isTrue isProperty => exact (declared false (by simp_all)).of_ok ok
      case isFalse => exact pathMember_starts isName ok

theorem memberByToken_starts {first stringKeys : Bool} {start : Span} {member : Member}
    (ok : grammar.memberByToken first stringKeys start state = .ok (some member) after) :
    member.Starts start.origin state.cursor.current.kind := by
  simp only [memberByToken, run_token] at ok
  generalize kindEq : state.cursor.current.kind = kind at ok ⊢
  split at ok
  case h_1 name =>
      obtain ⟨found, between, foundOk, ok⟩ := bind_eq_ok.mp ok
      cases ok
      exact namedMember_starts kindEq foundOk
  case h_2 =>
      obtain ⟨found, between, foundOk, ok⟩ := bind_eq_ok.mp ok
      cases ok
      have declared : Yields (Member.Starts start.origin (.keyword .default))
          (grammar.defaultMember start) :=
        .bind_any fun _ => .bind_any fun _ =>
          (declaration_starts false start).bind fun declaration starts => .pure ⟨starts.2, rfl⟩
      exact declared.of_ok foundOk
  case h_3 key =>
      have keyed : Yields (Member.Starts start.origin (.string key))
          (grammar.keyedMember key start) :=
        .bind_any fun _ => .bind_any fun _ => .bind_any fun value =>
          .spanned fun _ => ⟨rfl, .inr ⟨key, rfl, rfl⟩⟩
      rw [run_ite] at ok
      split at ok
      case isTrue =>
          obtain ⟨_, _, _, ok⟩ := bind_eq_ok.mp ok
          obtain ⟨found, between, foundOk, ok⟩ := bind_eq_ok.mp ok
          cases ok
          exact keyed.of_ok foundOk
      case isFalse => exact absurd ok unexpected_ne_ok
  case h_8 =>
      rw [run_ite] at ok
      split at ok
      case isTrue => exact absurd ok unexpected_ne_ok
      case isFalse => cases ok
  all_goals first
    | exact absurd ok unexpected_ne_ok
    | cases ok

theorem method_starts {member : Member} (ok : grammar.method state = .ok member after) :
    member.Starts state.cursor.current.span.origin (.keyword .function) := by
  simp only [method, run_token] at ok
  have function : Yields
      (fun function : Function => function.span.origin = state.cursor.current.span.origin)
      (advance >>= fun _ => grammar.function true state.cursor.current.span) :=
    .bind_any fun _ => .bind_any fun name => .bind_any fun _ => .bind_any fun parameters =>
      .bind_any fun body => .spanned fun _ => rfl
  have captured : Yields
      (fun pair : Function × String => pair.1.span.origin = state.cursor.current.span.origin)
      (grammar.capture (advance >>= fun _ => grammar.function true state.cursor.current.span)) :=
    .bind_any fun begin => function.bind fun function starts => .bind_any fun stop =>
      .bind_any fun source => .pure starts
  obtain ⟨pair, between, pairOk, ok⟩ := bind_eq_ok.mp ok
  cases ok
  exact ⟨captured.of_ok pairOk, rfl⟩

theorem signalMember_starts (start : Span) :
    Yields (Member.Starts start.origin (.name "signal")) (grammar.signalMember start) := by
  refine .bind_any fun _ => .ite (.bind_any fun _ => .bind_any fun value => ?_) ?_
  · exact .spanned fun _ => ⟨rfl, .inl ⟨_, [], rfl, rfl⟩⟩
  · have declared : Yields (fun inner : Signal => inner.span.origin = start.origin)
        (signal start) :=
      .bind_any fun name => .bind_any fun parameters => .bind_any fun _ => .spanned fun _ => rfl
    exact declared.bind fun inner starts => .pure ⟨starts, rfl⟩

end Grammar

/-! ## Values -/

namespace Grammar

variable {grammar : Grammar} {text : List Char} {keyed : Bool}

theorem capturedValue_begun {parser : Parser Statement} [Follows State.SameContext parser]
    [Follows State.Walks parser]
    (yields : YieldsOn text keyed (Statement.Begun text keyed) parser) :
    YieldsOn text keyed (fun value => value.node.Begun text keyed)
      (grammar.capturedValue parser) := by
  have pair : YieldsOn text keyed (fun pair : Statement × String => pair.1.Begun text keyed)
      (grammar.captureBody parser) := by
    refine .inScope ?_ fun _ => rfl
    refine .bind_any fun start => yields.bind fun node begun => ?_
    exact .bind_any fun stop => .bind_any fun source => .pure begun
  exact pair.bind fun pair begun => .pure begun

variable [grammar.deeper.KeepsScope] [grammar.deeper.Follows State.Walks]
  (begins : grammar.deeper.Begins text)

include begins

theorem valueOr_begun {otherwise : Parser Statement}
    (yields : YieldsOn text keyed (Statement.Begun text keyed) otherwise) :
    YieldsOn text keyed (Statement.Begun text keyed) (grammar.valueOr otherwise) := by
  refine .bind_any fun start => .bind_any fun next => .ite ?_ (.ite ?_ yields)
  · refine (memberBlock_begun begins).bind fun members begun => .bind_any fun span => .pure ?_
    exact .of_members begun rfl
  · refine .bind_any fun _ => (functionAtom_begun begins _).bind fun function begun => ?_
    exact .pure (.of_parts (by simpa using begun) rfl)

theorem propertyValue_begun :
    YieldsOn text keyed (fun value => value.node.Begun text keyed) grammar.propertyValue := by
  have captured : YieldsOn text keyed (fun value => value.node.Begun text keyed)
      (grammar.capturedValue (pragmaOr (grammar.valueOr grammar.deeper.statement))) :=
    capturedValue_begun (pragmaOr_begun (valueOr_begun begins (begins.statement keyed)))
  exact captured.settled grammar.propertyValue_run

theorem keyedValue_begun :
    YieldsOn text keyed (fun value => value.node.Begun text keyed) grammar.keyedValue := by
  have bare : YieldsOn text keyed (Statement.Begun text keyed) grammar.bareExpression := by
    refine .bind_any fun start => ?_
    refine (expression_begun begins false false).bind fun value begun => ?_
    exact .bind_any fun span => .pure (.of_parts (by simpa using begun) rfl)
  have captured : YieldsOn text keyed (fun value => value.node.Begun text keyed)
      (grammar.capturedValue (pragmaOr (grammar.valueOr grammar.bareExpression))) :=
    capturedValue_begun (pragmaOr_begun (valueOr_begun begins bare))
  exact captured.settled grammar.keyedValue_run

/-! ## What stands in members -/

theorem declaration_begun (readonly : Bool) (start : Span) :
    YieldsOn text keyed
      (fun declaration => ∀ part ∈ declaration.parts, part.node.Begun text keyed)
      (grammar.declaration readonly start) := by
  refine .bind_any fun type => .bind_any fun argument => .bind_any fun name => .ite ?_ ?_
  · exact .bind_any fun inner => .pure (List.forall_mem_nil _)
  · have value : YieldsOn text keyed
        (∀ captured ∈ ·, Statement.Begun text keyed (Captured.node captured))
        (grammar.initialValue readonly) := by
      refine .bind_any fun _ => .ite (.bind_any fun _ => ?_) (.ite (.of_ne_ok refuse_ne_ok) ?_)
      · exact (propertyValue_begun begins).bind fun value begun => .pure_some begun
      · exact .bind_any fun _ => .pure_none
    exact value.bind fun value begun => .bind_any fun span => .pure (by simpa using begun)

theorem pathMember_begun (stringKeys : Bool) (start : Span) :
    YieldsOn text keyed (fun member => (Node.member member).Begun text keyed)
      (grammar.pathMember stringKeys start) := by
  refine .bind_any fun path => .ite ?_ (.bind_any fun _ => .ite ?_ ?_)
  · have tail : YieldsOn text keyed (fun element => (Node.element element).Begun text keyed)
        (grammar.elementTail path start) := by
      refine .bind_any fun target => (memberBlock_begun begins).bind fun members begun => ?_
      exact .bind_any fun span => .pure (.of_members begun rfl)
    exact tail.bind fun element begun => .pure (.of_parts (by simpa using begun) rfl)
  · refine (memberBlock_begun begins).bind fun members begun => ?_
    exact .bind_any fun span => .pure (.of_members begun rfl)
  · have value : YieldsOn text keyed (fun value => ∀ span,
        (Node.member (.binding path value span)).Begun text keyed)
        (grammar.bindingValue stringKeys path) := by
      refine .ite ?_ (.ite ?_ ?_)
      · refine (keyedValue_begun begins).bind fun value begun => .pure fun span => ?_
        exact .of_parts (by simpa using begun) rfl
      · refine (capturedValue_begun (begins.statement keyed)).bind fun value begun => ?_
        exact .pure fun span => .of_parts (by simpa using begun) rfl
      · refine (propertyValue_begun begins).bind fun value begun => .pure fun span => ?_
        exact .of_parts (by simpa using begun) rfl
    exact .bind_any fun _ => value.bind fun value begun => .bind_any fun span => .pure (begun span)

theorem namedMember_begun (stringKeys : Bool) (name : String) (start : Span) :
    YieldsOn text keyed (fun member => (Node.member member).Begun text keyed)
      (grammar.namedMember stringKeys name start) := by
  have declared : ∀ readonly, YieldsOn text keyed
      (fun member => (Node.member member).Begun text keyed)
      (grammar.declaration readonly start >>= fun declaration =>
        pure (Member.declaration declaration)) := fun readonly =>
    (declaration_begun begins readonly start).bind fun declaration begun =>
      .pure (.of_parts begun rfl)
  refine .bind_any fun next => .ite ?_ (.ite ?_ (pathMember_begun begins stringKeys start))
  · exact .bind_any fun _ => .bind_any fun _ => declared true
  · exact .bind_any fun _ => declared false

theorem keyedMember_begun (key : String) (start : Span) :
    YieldsOn text keyed (fun member => (Node.member member).Begun text keyed)
      (grammar.keyedMember key start) := by
  refine .bind_any fun _ => .bind_any fun _ => (keyedValue_begun begins).bind fun value begun => ?_
  exact .bind_any fun span => .pure (.of_parts (by simpa using begun) rfl)

theorem method_begun :
    YieldsOn text keyed (fun member => (Node.member member).Begun text keyed) grammar.method := by
  refine .bind_any fun start => ?_
  have function : YieldsOn text keyed
      (fun function => (Node.function function).Begun text keyed)
      (advance >>= fun _ => grammar.function true start.span) :=
    .bind_any fun _ => function_begun begins true start.span
  have captured : YieldsOn text keyed
      (fun pair : Function × String => (Node.function pair.1).Begun text keyed)
      (grammar.capture (advance >>= fun _ => grammar.function true start.span)) :=
    .bind_any fun begin => function.bind fun function begun => .bind_any fun stop =>
      .bind_any fun source => .pure begun
  exact captured.bind fun pair begun => .pure (.of_parts (by simpa using begun) rfl)

theorem signalMember_begun (start : Span) :
    YieldsOn text keyed (fun member => (Node.member member).Begun text keyed)
      (grammar.signalMember start) := by
  refine .bind_any fun _ => .ite (.bind_any fun _ => ?_) (.bind_any fun signal => .pure ?_)
  · refine (capturedValue_begun (statement_begun begins)).bind fun value begun => ?_
    exact .bind_any fun span => .pure (.of_parts (by simpa using begun) rfl)
  · exact .of_parts (List.forall_mem_nil _) rfl

/-! ## Members of a block -/

variable {state after : State}

/-- A string that is the first key of a block brings string keys into force. -/
theorem memberByToken_begun {first : Bool} {start : Span} {found : Option Member}
    (stands : state.Stands text keyed)
    (ok : grammar.memberByToken first keyed start state = .ok found after) :
    ∃ inner, after.Stands text inner ∧
      (inner = keyed ∨ inner = true ∧ found.isSome = true ∧
        state.cursor.current.isString = true) ∧
      ∀ member ∈ found, (Node.member member).Begun text inner := by
  have moves : Follows State.Walks (grammar.memberByToken first keyed start) := inferInstance
  have within : after.cursor.Over text := (moves.of_ok ok).stays_over stands.within
  have plain : after.scope = state.scope → after.Stands text keyed := fun same =>
    ⟨within, by rw [same, stands.keys]⟩
  simp only [memberByToken, run_token] at ok
  generalize kindEq : state.cursor.current.kind = kind at ok
  split at ok
  case h_1 name =>
      obtain ⟨member, between, memberOk, ok⟩ := bind_eq_ok.mp ok
      cases ok
      have begun := (namedMember_begun begins keyed name start).of_ok stands memberOk
      exact ⟨keyed, plain (scope_of_ok memberOk), .inl rfl, by simpa using begun⟩
  case h_2 =>
      obtain ⟨member, between, memberOk, ok⟩ := bind_eq_ok.mp ok
      cases ok
      have declared : YieldsOn text keyed (fun member => (Node.member member).Begun text keyed)
          (grammar.defaultMember start) :=
        .bind_any fun _ => .bind_any fun _ =>
          (declaration_begun begins false start).bind fun declaration begun =>
            .pure (.of_parts begun rfl)
      have begun := declared.of_ok stands memberOk
      exact ⟨keyed, plain (scope_of_ok memberOk), .inl rfl, by simpa using begun⟩
  case h_3 key =>
      rw [run_ite] at ok
      split at ok
      case isTrue =>
          simp only [enterStringKeys, bind_eq_ok] at ok
          obtain ⟨_, entered, isEntered, member, between, memberOk, ok⟩ := ok
          cases isEntered
          cases ok
          have inForce : State.Stands text true
              { state with scope := state.scope.withStringKeys } := ⟨stands.within, rfl⟩
          have begun := (keyedMember_begun begins key start).of_ok inForce memberOk
          have isKey : state.cursor.current.isString = true := by simp [Token.isString, kindEq]
          refine ⟨true, ⟨within, ?_⟩, .inr ⟨rfl, rfl, isKey⟩, by simpa using begun⟩
          rw [scope_of_ok memberOk]
          rfl
      case isFalse => exact absurd ok unexpected_ne_ok
  case h_8 =>
      rw [run_ite] at ok
      split at ok
      case isTrue => exact absurd ok unexpected_ne_ok
      case isFalse =>
          cases ok
          exact ⟨keyed, plain rfl, .inl rfl, by simp⟩
  all_goals first
    | exact absurd ok unexpected_ne_ok
    | cases ok
      exact ⟨keyed, plain rfl, .inl rfl, by simp⟩

theorem memberByToken_fits {first : Bool} {start : Span} {found : Option Member}
    (stands : state.Stands text keyed)
    (ok : grammar.memberByToken first keyed start state = .ok found after)
    (place : start = state.cursor.current.span ∨ keyed = true ∧ ∀ member : Member,
      member.Starts start.origin state.cursor.current.kind → member.BeginsAtComma text) :
    ∃ inner, after.Stands text inner ∧
      (inner = true → keyed = true ∨ ∃ member ∈ found, member.HasStringKey text) ∧
      ∀ member ∈ found, member.Begun text inner := by
  obtain ⟨inner, still, keys, begun⟩ := memberByToken_begun begins stands ok
  have kept : keyed = true → inner = true := by
    rintro rfl
    rcases keys with same | ⟨inForce, -⟩
    · exact same
    · exact inForce
  cases found with
  | none => exact ⟨inner, still, fun inForce => by simp_all, by simp⟩
  | some member =>
      have starts := memberByToken_starts ok
      refine ⟨inner, still, fun inForce => ?_, ?_⟩
      · rcases keys, place with ⟨rfl | ⟨-, -, isString⟩, rfl | ⟨around, -⟩⟩
        · exact .inl inForce
        · exact .inl inForce
        · exact .inr ⟨member, rfl, _, starts.current_mem stands.within, starts.1.symm, isString⟩
        · exact .inl around
      · rintro _ ⟨⟩
        refine ⟨begun member rfl, ?_⟩
        rcases place with rfl | ⟨around, atComma⟩
        · exact .inl (starts.beginsInPlace stands.within)
        · exact .inr ⟨kept around, atComma member starts⟩

omit [grammar.deeper.KeepsScope] [grammar.deeper.Follows State.Walks] begins in
/-- A member that is told by a word of its own brings no string keys into force. -/
theorem introduced_fits {parser : Parser Member} [context : Follows State.SameContext parser]
    [walks : Follows State.Walks parser] {found : Option Member}
    (yields : YieldsOn text keyed (fun member => (Node.member member).Begun text keyed) parser)
    (stands : state.Stands text keyed)
    (ok : (parser >>= fun member => pure (some member)) state = .ok found after)
    (place : ∀ member, parser state = .ok member after → member.BeginsInPlace text) :
    ∃ inner, after.Stands text inner ∧
      (inner = true → keyed = true ∨ ∃ member ∈ found, member.HasStringKey text) ∧
      ∀ member ∈ found, member.Begun text inner := by
  obtain ⟨member, _, memberOk, ok⟩ := bind_eq_ok.mp ok
  cases ok
  have still := stands.stays (context.of_ok memberOk) (walks.of_ok memberOk)
  refine ⟨keyed, still, .inl, ?_⟩
  rintro _ ⟨⟩
  exact ⟨yields.of_ok stands memberOk, .inl (place member memberOk)⟩

/-- One member of a block. Only a string as the first of them brings string keys into
force. -/
theorem member_begun {first : Bool} {found : Option Member} (stands : state.Stands text keyed)
    (ok : grammar.member first state = .ok found after) :
    ∃ inner, after.Stands text inner ∧
      (inner = true → keyed = true ∨ ∃ member ∈ found, member.HasStringKey text) ∧
      ∀ member ∈ found, member.Begun text inner := by
  simp only [Grammar.member, run_token, run_scope, run_ite, stands.keys] at ok
  split at ok
  case isTrue inForce =>
      subst inForce
      simp only [memberAfterComma, run_ite] at ok
      split at ok
      case isTrue => exact memberByToken_fits begins stands ok (.inl rfl)
      case isFalse =>
          simp only [bind_eq_ok, expectPunctuation_eq_ok, run_atPunctuation, run_ite] at ok
          obtain ⟨_, _, ⟨isComma, rfl, rfl⟩, ok⟩ := ok
          split at ok
          case isTrue =>
              cases ok
              exact ⟨true, stands.advanced, fun _ => .inl rfl, by simp⟩
          case isFalse =>
              exact memberByToken_fits begins stands.advanced ok
                (.inr ⟨rfl, fun member starts => starts.beginsAtComma stands.within isComma⟩)
  case isFalse inForce =>
      obtain rfl : keyed = false := Bool.eq_false_iff.mpr inForce
      split at ok
      case isTrue isFunction =>
          have kind : state.cursor.current.kind = .keyword .function := of_decide_eq_true isFunction
          refine introduced_fits (method_begun begins) stands ok fun member memberOk => ?_
          have starts := method_starts memberOk
          rw [← kind] at starts
          exact starts.beginsInPlace stands.within
      case isFalse =>
          split at ok
          case isTrue isSignal =>
              have kind : state.cursor.current.kind = .name "signal" := of_decide_eq_true isSignal
              rw [run_advance] at ok
              refine introduced_fits (signalMember_begun begins _) stands.advanced ok
                fun member memberOk => ?_
              have starts := (signalMember_starts _).of_ok memberOk
              rw [← kind] at starts
              exact starts.beginsInPlace stands.within
          case isFalse => exact memberByToken_fits begins stands ok (.inl rfl)

omit [grammar.deeper.KeepsScope] [grammar.deeper.Follows State.Walks] begins in
theorem member_of_memberRound {first : Bool} {found : Option Member}
    (ok : grammar.memberRound first state = .ok (some found) after) :
    grammar.member first state = .ok found after := by
  simp only [memberRound, run_atPunctuation, run_atEnd, run_ite] at ok
  split at ok
  case isTrue => cases ok
  case isFalse =>
      split at ok
      case isTrue => exact absurd ok unexpected_ne_ok
      case isFalse =>
          obtain ⟨_, _, memberOk, ok⟩ := bind_eq_ok.mp ok
          cases ok
          exact memberOk

theorem memberRounds_begun :
    YieldsOn text keyed (∀ found ∈ ·, ∀ member ∈ found, Member.Begun text keyed member)
      (collect (grammar.memberRound false)) := by
  have round : YieldsOn text keyed (∀ found ∈ ·, ∀ member ∈ found, Member.Begun text keyed member)
      (grammar.memberRound false) := by
    constructor
    rintro state found after stands ok inside rfl
    have memberOk := member_of_memberRound ok
    have same : after.scope = state.scope := (grammar.member_keepsContext.of_ok memberOk).scope_eq
    obtain ⟨inner, still, -, begun⟩ := member_begun begins stands memberOk
    have sameKeys : inner = keyed := by rw [← still.keys, same, stands.keys]
    exact sameKeys ▸ begun
  have context : Follows State.SameContext (grammar.memberRound false) := by
    have keeps := grammar.member_keepsContext
    unfold memberRound
    infer_instance
  exact round.collect

theorem members_begun : YieldsOn text keyed (Member.AllBegun text keyed) grammar.members := by
  constructor
  intro state members after stands ok
  obtain ⟨found, between, foundOk, ok⟩ := bind_eq_ok.mp ok
  cases found with
  | none =>
      cases ok
      exact ⟨keyed, .inl, by simp⟩
  | some first =>
      obtain ⟨more, last, moreOk, ok⟩ := bind_eq_ok.mp ok
      cases ok
      obtain ⟨inner, still, keys, begun⟩ :=
        member_begun begins stands (member_of_memberRound foundOk)
      have rest := (memberRounds_begun begins).of_ok still moreOk
      refine ⟨inner, fun inForce => (keys inForce).imp_right ?_, fun member among => ?_⟩
      · rintro ⟨member, rfl, isKeyed⟩
        exact ⟨member, by simp, isKeyed⟩
      · obtain ⟨found, isFound, rfl⟩ := List.mem_filterMap.mp among
        rcases List.mem_cons.mp isFound with rfl | isLater
        · exact begun member rfl
        · exact rest _ isLater member rfl

/-! ## Documents -/

theorem document_begun :
    YieldsOn text false (fun document => Member.Begun text false (.element document.root))
      grammar.document := by
  have context := grammar.rootElement_keepsContext
  have root : YieldsOn text false (fun element => Member.Begun text false (.element element))
      grammar.rootElement := by
    constructor
    intro state element after stands ok
    simp only [rootElement, run_token] at ok
    obtain ⟨found, between, foundOk, ok⟩ := bind_eq_ok.mp ok
    obtain ⟨inner, still, -, begun⟩ := member_begun begins stands foundOk
    have plain : inner = false := by
      rw [← still.keys, (grammar.member_keepsContext.of_ok foundOk).scope_eq, stands.keys]
    split at ok
    case h_1 found =>
        cases ok
        exact plain ▸ begun _ rfl
    case h_2 => exact absurd ok fail_ne_ok
  refine .bind_any fun imports => .bind_any fun _ => .ite (.of_ne_ok unexpected_ne_ok) ?_
  refine root.bind fun element begun => .bind_any fun _ => ?_
  exact .ite (.pure begun) (.of_ne_ok unexpected_ne_ok)

end Grammar

/-! ## Levels of nesting -/

theorem Grammar.begins_deeper (grammar : Grammar) [grammar.deeper.KeepsScope]
    [grammar.deeper.Follows State.Walks] {text : List Char} (begins : grammar.deeper.Begins text) :
    Deeper.Begins text
      { statement := inScope Scope.deeper grammar.anyStatement
        assignment := fun noIn => inScope Scope.deeper (grammar.assignment noIn)
        unary := fun calls => inScope Scope.deeper (grammar.unary calls)
        atom := fun calls => inScope Scope.deeper (grammar.atom calls)
        members := inScope Scope.inBlock grammar.members } where
  statement _ := (anyStatement_begun begins).inScope fun _ => rfl
  assignment _ noIn := (assignment_begun begins noIn).inScope fun _ => rfl
  unary _ calls := (unary_begun begins calls).inScope fun _ => rfl
  atom _ calls := (atom_begun begins calls).inScope fun _ => rfl
  members _ := (members_begun begins).inScope fun _ => rfl

theorem Deeper.within_begins (text : List Char) (setting : Setting) (room : Nat) :
    (Deeper.within setting room).Begins text := by
  induction room with
  | zero =>
      refine ⟨fun _ => ?_, fun _ _ => ?_, fun _ _ => ?_, fun _ _ => ?_, fun _ => ?_⟩
      all_goals exact .of_ne_ok refuse_ne_ok
  | succ room induction =>
      have context : (Grammar.deeper ⟨setting, within setting room⟩).KeepsScope :=
        Deeper.within_keepsScope setting room
      have walks : (Grammar.deeper ⟨setting, within setting room⟩).Follows State.Walks :=
        Deeper.within_obeys setting room
      exact Grammar.begins_deeper ⟨setting, within setting room⟩ induction

end Qml
