import Qml.Proofs.AliasPaths
import Qml.Proofs.Nodes.Statement
import Qml.Proofs.Outline.Document

/-! # Well formed trees

The values of members are captured in a scope that allows `return` and otherwise
is the scope around them. Members and documents are well formed if what they nest
is, and so are the trees of whole texts, level by level. -/

namespace Qml

open Qml.Parser

namespace Grammar

variable {grammar : Grammar} {places : List Place} (declarative : grammar.dialect ≠ .script)
  [grammar.deeper.Follows State.SameButKeys]

include declarative

/-! ## Values -/

omit [grammar.deeper.Follows State.SameButKeys] in
theorem capturedValue_wellFormed {place : Place} (captured : place.isCaptured = true)
    {holds : Statement → Prop} {parser : Parser Statement} [Follows State.SameButKeys parser]
    (yields : YieldsAt grammar.dialect (place :: places) holds parser) :
    YieldsAt grammar.dialect places (fun value => holds value.node)
      (grammar.capturedValue parser) := by
  have pair : YieldsAt grammar.dialect places (fun pair : Statement × String => holds pair.1)
      (grammar.captureBody parser) := by
    refine .inScope ?_ fun _ fits => fits.inValue declarative captured
    refine .bind_any fun start => yields.bind fun node held => ?_
    exact .bind_any fun stop => .bind_any fun source => .pure held
  exact pair.bind fun pair held => .pure held

variable (builds : grammar.deeper.Builds grammar.dialect)

include builds

/-- A block with string keys is read only as a whole value. -/
theorem valueOr_wellFormed {otherwise : Parser Statement}
    (yields : YieldsAt grammar.dialect (.value :: places)
      (Statement.WellFormed grammar.dialect (.value :: places)) otherwise) :
    YieldsAt grammar.dialect (.value :: places)
      (Statement.WellFormed grammar.dialect (.value :: places)) (grammar.valueOr otherwise) := by
  refine .bind_any fun start => .bind_any fun next => .ite ?_ (.ite ?_ yields)
  · refine (memberBlock_wellFormed builds declarative).bind fun members inside => ?_
    exact .bind_any fun span => .pure (.intro ⟨declarative, rfl⟩ (by simpa using inside))
  · refine .bind_any fun _ => (functionAtom_wellFormed builds _).bind fun function whole => ?_
    exact .pure (.intro trivial (by simpa using whole))

theorem propertyValue_wellFormed :
    YieldsAt grammar.dialect places
      (fun value => value.node.WellFormed grammar.dialect (.value :: places))
      grammar.propertyValue := by
  have statement := (builds.statement (.value :: places)).mono fun _ built => built.2
  have captured := capturedValue_wellFormed declarative rfl
    (pragmaOr_wellFormed declarative (valueOr_wellFormed declarative builds statement))
  exact captured.settled grammar.propertyValue_run

theorem keyedValue_wellFormed :
    YieldsAt grammar.dialect places
      (fun value => value.node.WellFormed grammar.dialect (.value :: places))
      grammar.keyedValue := by
  have bare : YieldsAt grammar.dialect (.value :: places)
      (Statement.WellFormed grammar.dialect (.value :: places)) grammar.bareExpression := by
    refine .bind_any fun start => ?_
    refine (expression_wellFormed builds false false).bind fun value whole => ?_
    exact .bind_any fun span => .pure (.intro trivial (by simpa using whole))
  have captured := capturedValue_wellFormed declarative rfl
    (pragmaOr_wellFormed declarative (valueOr_wellFormed declarative builds bare))
  exact captured.settled grammar.keyedValue_run

/-! ## Declarations -/

theorem declaration_wellFormed (readonly : Bool) (start : Span) :
    YieldsAt grammar.dialect places
      (fun declaration => declaration.Formed ∧ declaration.isReadonly = readonly ∧
        ∀ part ∈ declaration.parts,
          part.node.WellFormed grammar.dialect (part.place.toList ++ places))
      (grammar.declaration readonly start) := by
  refine .bind_any fun type => .bind_any fun argument => .bind_any fun name => .ite ?_ ?_
  · have aliased : YieldsAt grammar.dialect places
        (fun inner => (Declaration.aliased inner).Formed ∧ inner.readonly = readonly)
        (aliasTail readonly start name) := by
      refine .bind_any fun _ => aliasPath_written.at.bind fun target written => ?_
      obtain ⟨used, written⟩ := written
      refine .bind_any fun _ => .bind_any fun span => .pure ⟨fun path inside => ?_, rfl⟩
      obtain ⟨inner, written⟩ := written.of_contains inside
      exact written.segments_ne_nil
    exact aliased.bind fun inner whole => .pure ⟨whole.1, whole.2, List.forall_mem_nil _⟩
  · have value : YieldsAt grammar.dialect places
        (fun value => (readonly = true → value.isSome = true) ∧
          ∀ captured ∈ value, captured.node.WellFormed grammar.dialect (.value :: places))
        (grammar.initialValue readonly) := by
      refine .bind_any fun _ => .ite (.bind_any fun _ => ?_) ?_
      · refine (propertyValue_wellFormed declarative builds).bind fun value whole => ?_
        exact .pure ⟨fun _ => rfl, by simpa using whole⟩
      · refine .ite_of (fun _ => .of_ne_ok refuse_ne_ok) fun writable => ?_
        exact .bind_any fun _ => .pure ⟨fun isReadonly => absurd isReadonly writable, by simp⟩
    refine value.bind fun value whole => .bind_any fun span => .pure ⟨whole.1, rfl, ?_⟩
    simpa using whole.2

/-! ## Members -/

theorem pathMember_wellFormed (stringKeys : Bool) (start : Span) :
    YieldsAt grammar.dialect places (Member.WellFormed grammar.dialect places)
      (grammar.pathMember stringKeys start) := by
  have name : YieldsAt grammar.dialect places (fun path => path.segments ≠ []) qualifiedName :=
    .bind_any fun first => .bind_any fun more => .pure (List.cons_ne_nil first more)
  refine name.bind fun path named => .ite_of (fun isElement => ?_) fun _ =>
    .bind_any fun _ => .ite ?_ ?_
  · have typed : path.isElementType = true := by simp_all
    have tail : YieldsAt grammar.dialect places
        (fun element => element.typeName.isElementType = true ∧
          (Node.element element).WellFormed grammar.dialect places)
        (grammar.elementTail path start) := by
      refine .bind_any fun target => (memberBlock_wellFormed builds declarative).bind
        fun members inside => .bind_any fun span => .pure ⟨typed, .intro named ?_⟩
      simpa using inside
    exact tail.bind fun element whole => .pure (.intro whole.1 (by simpa using whole.2))
  · refine (memberBlock_wellFormed builds declarative).bind fun members inside => ?_
    exact .bind_any fun span => .pure (.intro named (by simpa using inside))
  · refine .bind_any fun _ => ?_
    have value : YieldsAt grammar.dialect places
        (fun value => ∀ span, Member.WellFormed grammar.dialect places (.binding path value span))
        (grammar.bindingValue stringKeys path) := by
      refine .ite ?_ (.ite_of (fun isHandler => ?_) fun _ => ?_)
      · refine (keyedValue_wellFormed declarative builds).bind fun value whole => .pure ?_
        exact fun span => .intro named (by simpa using whole)
      · refine (capturedValue_wellFormed declarative rfl
          (builds.statement (.handler :: places))).bind fun value built => .pure ?_
        exact fun span => .intro ⟨isHandler, built.1⟩ (by simpa using built.2)
      · refine (propertyValue_wellFormed declarative builds).bind fun value whole => .pure ?_
        exact fun span => .intro named (by simpa using whole)
    exact value.bind fun value whole => .bind_any fun span => .pure (whole span)

theorem namedMember_wellFormed (stringKeys : Bool) (name : String) (start : Span) :
    YieldsAt grammar.dialect places (Member.WellFormed grammar.dialect places)
      (grammar.namedMember stringKeys name start) := by
  have declared : ∀ readonly, YieldsAt grammar.dialect places
      (Member.WellFormed grammar.dialect places)
      (grammar.declaration readonly start >>= fun declaration =>
        pure (Member.declaration declaration)) := by
    intro readonly
    refine (declaration_wellFormed declarative builds readonly start).bind
      fun declaration whole => .pure ?_
    exact .intro whole.1 whole.2.2
  refine .bind_any fun next => .ite ?_ (.ite ?_ ?_)
  · exact .bind_any fun _ => .bind_any fun _ => declared true
  · exact .bind_any fun _ => declared false
  · exact pathMember_wellFormed declarative builds stringKeys start

theorem memberByToken_wellFormed (first stringKeys : Bool) (start : Span) :
    YieldsAt grammar.dialect places (∀ member ∈ ·, Member.WellFormed grammar.dialect places member)
      (grammar.memberByToken first stringKeys start) := by
  refine .bind_any fun found => ?_
  split
  case h_1 name _ =>
      exact (namedMember_wellFormed declarative builds stringKeys name start).bind
        fun member whole => .pure_some whole
  case h_2 =>
      have declared : YieldsAt grammar.dialect places (Member.WellFormed grammar.dialect places)
          (grammar.defaultMember start) := by
        refine .bind_any fun _ => .bind_any fun _ => ?_
        refine (declaration_wellFormed declarative builds false start).bind
          fun declaration whole => .pure ?_
        exact .intro ⟨whole.1, whole.2.1⟩ whole.2.2
      exact declared.bind fun member whole => .pure_some whole
  case h_3 key _ =>
      have keyed : YieldsAt grammar.dialect places (Member.WellFormed grammar.dialect places)
          (grammar.keyedMember key start) := by
        refine .bind_any fun _ => .bind_any fun _ => ?_
        refine (keyedValue_wellFormed declarative builds).bind fun value whole => ?_
        exact .bind_any fun span => .pure (.intro (List.cons_ne_nil _ _) (by simpa using whole))
      refine .ite (.bind_any fun _ => ?_) (.of_ne_ok unexpected_ne_ok)
      exact keyed.bind fun member whole => .pure_some whole
  case h_8 => exact .ite (.of_ne_ok unexpected_ne_ok) (.bind_any fun _ => .pure_none)
  all_goals first
    | exact .of_ne_ok unexpected_ne_ok
    | exact .bind_any fun _ => .pure_none

omit declarative in
theorem method_wellFormed :
    YieldsAt grammar.dialect places (Member.WellFormed grammar.dialect places)
      grammar.method := by
  refine .bind_any fun start => ?_
  have captured : YieldsAt grammar.dialect places
      (fun pair : Function × String => (Node.function pair.1).WellFormed grammar.dialect places ∧
        pair.1.name.isSome = true)
      (grammar.capture (advance >>= fun _ => grammar.function true start.span)) := by
    have function : YieldsAt grammar.dialect places _
        (advance >>= fun _ => grammar.function true start.span) :=
      .bind_any fun _ => function_wellFormed builds true start.span
    refine .bind_any fun begin => function.bind fun function whole => ?_
    exact .bind_any fun stop => .bind_any fun source => .pure ⟨whole.1, whole.2 rfl⟩
  refine captured.bind fun pair whole => .pure (.intro ?_ (by simpa using whole.1))
  obtain ⟨name, named⟩ := Option.isSome_iff_exists.mp whole.2
  simp [Node.Formed, Member.Formed, named]

theorem signalMember_wellFormed (start : Span) :
    YieldsAt grammar.dialect places (Member.WellFormed grammar.dialect places)
      (grammar.signalMember start) := by
  refine .bind_any fun _ => .ite (.bind_any fun _ => ?_) (.bind_any fun signal => .pure ?_)
  · refine (capturedValue_wellFormed declarative rfl
      (statement_wellFormed builds (.value :: places))).bind fun value whole => ?_
    exact .bind_any fun span => .pure (.intro (List.cons_ne_nil _ _) (by simpa using whole))
  · exact .intro trivial (List.forall_mem_nil _)

theorem member_wellFormed (first : Bool) :
    YieldsAt grammar.dialect places (∀ member ∈ ·, Member.WellFormed grammar.dialect places member)
      (grammar.member first) := by
  refine .bind_any fun start => .bind_any fun scope => .ite ?_ (.ite ?_ (.ite ?_ ?_))
  · have keyed : YieldsAt grammar.dialect places
        (∀ member ∈ ·, Member.WellFormed grammar.dialect places member)
        (grammar.memberByToken first true start.span) :=
      memberByToken_wellFormed declarative builds first true start.span
    exact .ite keyed (.bind_any fun _ => .bind_any fun _ => .ite .pure_none keyed)
  · exact (method_wellFormed builds).bind fun member whole => .pure_some whole
  · exact .bind_any fun _ => (signalMember_wellFormed declarative builds _).bind
      fun member whole => .pure_some whole
  · exact memberByToken_wellFormed declarative builds first false _

theorem members_wellFormed (places : List Place) :
    YieldsAt grammar.dialect places (∀ member ∈ ·, Member.WellFormed grammar.dialect places member)
      grammar.members := by
  have round : ∀ first, YieldsAt grammar.dialect places
      (∀ found ∈ ·, ∀ member ∈ found, Member.WellFormed grammar.dialect places member)
      (grammar.memberRound first) := by
    intro first
    refine .bind_any fun _ => .ite .pure_none ?_
    refine .bind_any fun _ => .ite (.of_ne_ok unexpected_ne_ok) ?_
    exact (member_wellFormed declarative builds first).bind fun found whole => .pure_some whole
  refine (round true).bind fun found whole => ?_
  cases found with
  | none => exact .pure (List.forall_mem_nil _)
  | some first =>
      refine (round false).collect.bind fun more later => .pure ?_
      intro member among
      obtain ⟨found, foundAmong, rfl⟩ := List.mem_filterMap.mp among
      rcases List.mem_cons.mp foundAmong with rfl | isLater
      · exact whole _ rfl member rfl
      · exact later _ isLater member rfl

/-! ## Documents -/

theorem document_wellFormed :
    YieldsAt grammar.dialect places
      (fun document => Member.WellFormed grammar.dialect places (.element document.root))
      grammar.document := by
  have root : YieldsAt grammar.dialect places
      (fun element => Member.WellFormed grammar.dialect places (.element element))
      grammar.rootElement := by
    refine .bind_any fun start => (member_wellFormed declarative builds false).bind
      fun found whole => ?_
    split
    case h_1 element => exact .pure (whole _ rfl)
    case h_2 => exact .of_ne_ok fail_ne_ok
  refine .bind_any fun imports => .bind_any fun _ => .ite (.of_ne_ok unexpected_ne_ok) ?_
  refine root.bind fun element whole => .bind_any fun _ => ?_
  exact .ite (.pure whole) (.of_ne_ok unexpected_ne_ok)

end Grammar

/-! ## Levels of nesting -/

theorem Grammar.builds_deeper (grammar : Grammar) [grammar.deeper.Follows State.SameButKeys]
    (builds : grammar.deeper.Builds grammar.dialect) :
    Deeper.Builds grammar.dialect
      { statement := inScope Scope.deeper grammar.anyStatement
        assignment := fun noIn => inScope Scope.deeper (grammar.assignment noIn)
        unary := fun calls => inScope Scope.deeper (grammar.unary calls)
        atom := fun calls => inScope Scope.deeper (grammar.atom calls)
        members := inScope Scope.inBlock grammar.members } where
  statement places := (anyStatement_built builds places).inScope fun _ fits => fits.deeper
  assignment _ noIn := (assignment_wellFormed builds noIn).inScope fun _ fits => fits.deeper
  unary _ calls := (unary_wellFormed builds calls).inScope fun _ fits => fits.deeper
  atom _ calls := (atom_wellFormed builds calls).inScope fun _ fits => fits.deeper
  members declarative places :=
    (members_wellFormed declarative builds places).inScope fun _ fits => fits.inBlock

theorem Deeper.within_builds (setting : Setting) (room : Nat) :
    (Deeper.within setting room).Builds setting.dialect := by
  induction room with
  | zero =>
      refine ⟨fun _ => ?_, fun _ _ => ?_, fun _ _ => ?_, fun _ _ => ?_, fun _ _ => ?_⟩
      all_goals exact .of_ne_ok refuse_ne_ok
  | succ room induction =>
      have level : (Grammar.deeper ⟨setting, within setting room⟩).Follows State.SameButKeys :=
        Deeper.within_obeys setting room
      exact Grammar.builds_deeper ⟨setting, within setting room⟩ induction

/-! ## Whole texts -/

def Options.dialect (options : Options) : Dialect :=
  .declarative options.helper options.component

theorem parse_wellFormed {options : Options} {source : String} {tree : Tree}
    (ok : (parse options source).outcome = .ok tree) :
    tree.WellFormed options.dialect ∧
      ∀ document, tree = .document document → document.root.typeName.isElementType = true := by
  let grammar := options.grammar (Text.normalize source).toList
  have builds : grammar.deeper.Builds grammar.dialect := Deeper.within_builds _ options.limit
  have follows : grammar.deeper.Follows State.SameButKeys := Deeper.within_obeys _ options.limit
  obtain ⟨after, ⟨document, rfl, documentOk⟩ | ⟨statements, rfl, scriptOk⟩⟩ :=
    parseNormalized_eq_ok ok
  · have declarative : options.dialect ≠ .script := nofun
    have root : Member.WellFormed options.dialect [] (.element document.root) :=
      (Grammar.document_wellFormed declarative builds).of_ok .outermost documentOk
    constructor
    · rintro node isRoot
      cases List.mem_singleton.mp isRoot
      exact root.part ⟨none, .element document.root⟩ List.mem_cons_self
    · rintro _ ⟨⟩
      exact root.formed
  · have whole : ∀ statement ∈ statements, Statement.WellFormed options.dialect [] statement :=
      (Grammar.script_wellFormed builds).of_ok .outermost scriptOk
    exact ⟨List.forall_mem_map.mpr whole, nofun⟩

theorem parseScript_wellFormed {strict : Bool} {source : String} {statements : List Statement}
    (ok : parseScript strict source = .ok statements) :
    (Tree.script statements).WellFormed .script := by
  obtain ⟨after, scriptOk⟩ := parseScript_eq_ok.mp ok
  let grammar := Grammar.within ⟨source.toList, strict, .script⟩ scriptLimit
  have builds : grammar.deeper.Builds grammar.dialect := Deeper.within_builds _ scriptLimit
  have follows : grammar.deeper.Follows State.SameButKeys := Deeper.within_obeys _ scriptLimit
  have whole : ∀ statement ∈ statements, Statement.WellFormed .script [] statement :=
    (Grammar.script_wellFormed builds).of_ok .outermost scriptOk
  exact List.forall_mem_map.mpr whole

end Qml
