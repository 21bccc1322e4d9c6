import Qml.Proofs.Height.Statement

/-! # The limit bounds the height

Members and documents are higher than what they nest by a constant, as expressions
and statements are. Each level of nesting therefore adds at most a constant to the
height of a tree, as long as steps along links do not count. -/

namespace Qml

open Qml.Parser

/-! ## Alias paths -/

mutual

theorem AliasPath.height_ignored : ∀ path : AliasPath, path.height Link.ignored ≤ 1
  | ⟨segments⟩ => by
      have inside := AliasSegment.heightAll_ignored segments
      simp only [AliasPath.height]
      omega

theorem AliasSegment.heightAll_ignored : ∀ segments : List AliasSegment,
    AliasSegment.heightAll Link.ignored segments ≤ 1
  | [] => Nat.zero_le _
  | segment :: rest => by
      have first := segment.height_ignored
      have later := AliasSegment.heightAll_ignored rest
      simp only [AliasSegment.heightAll]
      omega

theorem AliasSegment.height_ignored : ∀ segment : AliasSegment,
    segment.height Link.ignored ≤ 1
  | ⟨_, subscripts⟩ => AliasPath.heightAll_ignored subscripts

theorem AliasPath.heightAll_ignored : ∀ paths : List AliasPath,
    AliasPath.heightAll Link.ignored paths ≤ 1
  | [] => Nat.zero_le _
  | path :: rest => by
      have first := path.height_ignored
      have later := AliasPath.heightAll_ignored rest
      simp only [AliasPath.heightAll, Link.step_ignored]
      omega

end

namespace Grammar

variable {grammar : Grammar} {n : Nat} (low : grammar.deeper.Low n)

include low

/-! ## Values -/

theorem slot_low {otherwise : Parser Statement}
    (yields : Yields (Statement.height Link.ignored · ≤ n + 3) otherwise) :
    Yields (Statement.height Link.ignored · ≤ n + 3) (grammar.slot otherwise) := by
  have value : Yields (Statement.height Link.ignored · ≤ n + 3) (grammar.valueOr otherwise) := by
    refine .bind_any fun start => .bind_any fun next => .ite ?_ (.ite ?_ yields)
    · refine (memberBlock_low low).bind fun members heights => .bind_any fun span => .pure ?_
      have inside : Member.heightAll Link.ignored members ≤ n := Member.heightAll_le.mpr heights
      simp only [Statement.height, StatementKind.height]
      omega
    · refine .bind_any fun _ => (functionAtom_low low _).bind fun function height => .pure ?_
      simp only [Statement.height, StatementKind.height]
      omega
  refine .bind_any fun awaited => .bind_any fun _ => .ite ?_ (.ite value yields)
  refine .bind_any fun _ => .ite ?_ (.of_ne_ok unexpected_ne_ok)
  refine .bind_any fun _ => .bind_any fun _ => .bind_any fun _ => .bind_any fun _ =>
    .bind_any fun _ => .pure ?_
  simp only [Statement.height, StatementKind.height]
  omega

omit low in
theorem capturedValue_low {m : Nat} {parser : Parser Statement}
    (yields : Yields (Statement.height Link.ignored · ≤ m) parser) :
    Yields (Captured.height Link.ignored · ≤ m) (grammar.capturedValue parser) := by
  have captured : Yields (fun pair : Statement × String => pair.1.height Link.ignored ≤ m)
      (grammar.captureBody parser) := by
    refine .inScope (.bind_any fun start => yields.bind fun node height => ?_)
    exact .bind_any fun stop => .bind_any fun source => .pure height
  exact captured.bind fun pair height => .pure height

theorem propertyValue_low :
    Yields (Captured.height Link.ignored · ≤ n + 3) grammar.propertyValue := by
  have statement : Yields (Statement.height Link.ignored · ≤ n + 3) grammar.deeper.statement :=
    low.statement.mono fun _ height => by omega
  exact .bind_any fun _ => capturedValue_low (slot_low low statement)

theorem keyedValue_low : Yields (Captured.height Link.ignored · ≤ n + 3) grammar.keyedValue := by
  have bare : Yields (Statement.height Link.ignored · ≤ n + 3) grammar.bareExpression := by
    refine .bind_any fun start => (expression_low low false false).bind fun value height => ?_
    refine .bind_any fun span => .pure ?_
    simp only [Statement.height, StatementKind.height]
    omega
  exact .bind_any fun _ => capturedValue_low (slot_low low bare)

/-! ## Members -/

theorem declaration_low (readonly : Bool) (start : Span) :
    Yields (Declaration.height Link.ignored · ≤ n + 3) (grammar.declaration readonly start) := by
  refine .bind_any fun type => .bind_any fun argument => .bind_any fun name => .ite ?_ ?_
  · refine .bind_any fun target => .pure ?_
    have height := target.target.height_ignored
    simp only [Declaration.height]
    omega
  · have value : Yields (Captured.heightOption Link.ignored · ≤ n + 3)
        (grammar.initialValue readonly) := by
      refine .bind_any fun _ => .ite (.bind_any fun _ => ?_) (.ite (.of_ne_ok refuse_ne_ok) ?_)
      · exact (propertyValue_low low).bind fun value height => .pure height
      · exact .bind_any fun _ => .pure (Nat.zero_le _)
    exact value.bind fun value height => .bind_any fun span => .pure height

theorem pathMember_low (stringKeys : Bool) (start : Span) :
    Yields (Member.height Link.ignored · ≤ n + 4) (grammar.pathMember stringKeys start) := by
  refine .bind_any fun path => .ite ?_ (.bind_any fun _ => .ite ?_ ?_)
  · have tail : Yields (Element.height Link.ignored · ≤ n) (grammar.elementTail path start) := by
      refine .bind_any fun target => (memberBlock_low low).bind fun members heights => ?_
      exact .bind_any fun span => .pure (by simpa using heights)
    refine tail.bind fun element height => .pure ?_
    simp only [Member.height]
    omega
  · refine (memberBlock_low low).bind fun members heights => .bind_any fun span => .pure ?_
    have inside : Member.heightAll Link.ignored members ≤ n := Member.heightAll_le.mpr heights
    simp only [Member.height]
    omega
  · have value : Yields (BindingValue.height Link.ignored · ≤ n + 3)
        (grammar.bindingValue stringKeys path) := by
      refine .ite ?_ (.ite ?_ ?_)
      · exact (keyedValue_low low).bind fun value height => .pure height
      · refine (capturedValue_low low.statement).bind fun value height => .pure ?_
        simp only [BindingValue.height]
        omega
      · exact (propertyValue_low low).bind fun value height => .pure height
    refine .bind_any fun _ => value.bind fun value height => .bind_any fun span => .pure ?_
    simp only [Member.height]
    omega

theorem namedMember_low (stringKeys : Bool) (name : String) (start : Span) :
    Yields (Member.height Link.ignored · ≤ n + 4) (grammar.namedMember stringKeys name start) := by
  have declared : ∀ readonly, Yields (Member.height Link.ignored · ≤ n + 4)
      (grammar.declaration readonly start >>= fun declaration =>
        pure (Member.declaration declaration)) := by
    intro readonly
    refine (declaration_low low readonly start).bind fun declaration height => .pure ?_
    simp only [Member.height]
    omega
  refine .bind_any fun next => .ite ?_ (.ite ?_ (pathMember_low low stringKeys start))
  · exact .bind_any fun _ => .bind_any fun _ => declared true
  · exact .bind_any fun _ => declared false

theorem memberByToken_low (first stringKeys : Bool) (start : Span) :
    Yields (∀ member ∈ ·, Member.height Link.ignored member ≤ n + 4)
      (grammar.memberByToken first stringKeys start) := by
  refine .bind_any fun found => ?_
  split
  case h_1 name _ =>
      exact (namedMember_low low stringKeys name start).bind fun member height =>
        .pure (by simpa using height)
  case h_2 =>
      have declared : Yields (Member.height Link.ignored · ≤ n + 4)
          (grammar.defaultMember start) := by
        refine .bind_any fun _ => .bind_any fun _ => ?_
        refine (declaration_low low false start).bind fun declaration height => .pure ?_
        simp only [Member.height]
        omega
      exact declared.bind fun member height => .pure (by simpa using height)
  case h_3 key _ =>
      have keyed : Yields (Member.height Link.ignored · ≤ n + 4)
          (grammar.keyedMember key start) := by
        refine .bind_any fun _ => .bind_any fun _ => ?_
        refine (keyedValue_low low).bind fun value height => ?_
        refine .bind_any fun span => .pure ?_
        simp only [Member.height, BindingValue.height]
        omega
      refine .ite (.bind_any fun _ => ?_) (.of_ne_ok unexpected_ne_ok)
      exact keyed.bind fun member height => .pure (by simpa using height)
  case h_8 => exact .ite (.of_ne_ok unexpected_ne_ok) (.bind_any fun _ => .pure_none)
  all_goals first
    | exact .of_ne_ok unexpected_ne_ok
    | exact .bind_any fun _ => .pure_none

theorem member_low (first : Bool) :
    Yields (∀ member ∈ ·, Member.height Link.ignored member ≤ n + 4) (grammar.member first) := by
  refine .bind_any fun start => .bind_any fun scope => .ite ?_ (.ite ?_ (.ite ?_ ?_))
  · refine .ite (memberByToken_low low first true _) (.bind_any fun _ => .bind_any fun _ => ?_)
    exact .ite .pure_none (memberByToken_low low first true _)
  · have method : Yields (Member.height Link.ignored · ≤ n + 4) grammar.method := by
      refine .bind_any fun start => ?_
      have captured : Yields (fun pair : Function × String => pair.1.height Link.ignored ≤ n)
          (grammar.capture (advance >>= fun _ => grammar.function true start.span)) := by
        refine .bind_any fun begin => (Yields.bind_any fun _ => function_low low true _).bind
          fun function height => ?_
        exact .bind_any fun stop => .bind_any fun source => .pure height
      refine captured.bind fun pair height => .pure ?_
      simp only [Member.height]
      omega
    exact method.bind fun member height => .pure (by simpa using height)
  · have signal : Yields (Member.height Link.ignored · ≤ n + 4)
        (grammar.signalMember start.span) := by
      refine .bind_any fun _ => .ite (.bind_any fun _ => ?_) (.bind_any fun signal => .pure ?_)
      · refine (capturedValue_low (statement_low low)).bind fun value height => ?_
        refine .bind_any fun span => .pure ?_
        simp only [Member.height, BindingValue.height]
        omega
      · simp only [Member.height]
        omega
    exact .bind_any fun _ => signal.bind fun member height => .pure (by simpa using height)
  · exact memberByToken_low low first false _

theorem members_low :
    Yields (∀ member ∈ ·, Member.height Link.ignored member ≤ n + 4) grammar.members := by
  have round : ∀ first, Yields
      (∀ found ∈ ·, ∀ member ∈ found, Member.height Link.ignored member ≤ n + 4)
      (grammar.memberRound first) := by
    intro first
    refine .bind_any fun _ => .ite .pure_none ?_
    refine .bind_any fun _ => .ite (.of_ne_ok unexpected_ne_ok) ?_
    exact (member_low low first).bind fun found height => .pure (by simpa using height)
  refine (round true).bind fun found height => ?_
  cases found with
  | none => exact .pure_nil
  | some first =>
      refine (round false).collect.bind fun more heights => .pure ?_
      intro member among
      obtain ⟨found, foundAmong, rfl⟩ := List.mem_filterMap.mp among
      rcases List.mem_cons.mp foundAmong with rfl | later
      · exact height _ rfl member rfl
      · exact heights _ later member rfl

/-! ## Whole texts -/

theorem document_low :
    Yields (fun document => document.root.height Link.ignored ≤ n + 3) grammar.document := by
  have root : Yields (Element.height Link.ignored · ≤ n + 3) grammar.rootElement := by
    refine .bind_any fun start => (member_low low false).bind fun found height => ?_
    split
    · next element =>
        have inside : 1 + element.height Link.ignored ≤ n + 4 := height (.element element) rfl
        exact .pure (by omega)
    · exact .of_ne_ok fail_ne_ok
  refine .bind_any fun imports => .bind_any fun _ => .ite (.of_ne_ok unexpected_ne_ok) ?_
  refine root.bind fun element height => .bind_any fun _ => ?_
  exact .ite (.pure height) (.of_ne_ok unexpected_ne_ok)

end Grammar

/-! ## Levels of nesting -/

theorem Deeper.low_within (setting : Setting) (room : Nat) :
    (Deeper.within setting room).Low (16 * room + 1) := by
  induction room with
  | zero =>
      refine ⟨Nat.le_refl 1, ?_, fun _ => ?_, fun _ => ?_, fun _ => ?_, ?_⟩
      all_goals exact .of_ne_ok refuse_ne_ok
  | succ room induction =>
      have low : (Grammar.mk setting (Deeper.within setting room)).deeper.Low (16 * room + 1) :=
        induction
      refine ⟨by omega, ?_, fun noIn => ?_, fun calls => ?_, fun calls => ?_, ?_⟩
      · exact (Grammar.anyStatement_low low).inScope.mono fun _ height => by omega
      · exact (Grammar.assignment_low low noIn).inScope.mono fun _ height => by omega
      · exact (Grammar.unary_low low calls).inScope.mono fun _ height => by omega
      · exact (Grammar.atom_low low calls).inScope.mono fun _ height => by omega
      · refine (Grammar.members_low low).inScope.mono fun members heights member among => ?_
        have height := heights member among
        omega

/-- How high a tree may be under a limit, without steps along links. -/
def heightLimit (limit : Nat) : Nat := 16 * limit + 4

theorem Options.tree_low (options : Options) (text : List Char) :
    Yields (Tree.height Link.ignored · ≤ heightLimit options.limit) (options.tree text) := by
  have low : (options.grammar text).deeper.Low (16 * options.limit + 1) :=
    Deeper.low_within _ options.limit
  unfold Options.tree heightLimit
  split
  · exact (Grammar.document_low low).bind fun document height => .pure height
  · refine (Grammar.script_low low).bind fun statements heights => .pure ?_
    have inside : Statement.heightAll Link.ignored statements ≤ 16 * options.limit + 1 :=
      Statement.heightAll_le.mpr heights
    simp only [Tree.height]
    omega

end Qml
