import Qml.Proofs.Nodes.Member

/-! # Where jumps go

A jump goes to a loop, a case or a label inside its own function. A captured value
allows `return` as the body of a function does, but it hides neither the loops nor
the labels around the element it belongs to. -/

namespace Qml

theorem StatementKind.Formed.target {dialect : Dialect} {places : List Place}
    {kind : StatementKind} (formed : kind.Formed dialect places) {label : Option String}
    (jump : kind.jump? = some label) :
    ∃ place ∈ Place.inFunction places, place.isTarget label = true := by
  cases kind with
  | break_ _ | continue_ _ =>
      cases jump
      exact formed
  | _ => cases jump

/-! ## Scripts -/

/-- In a script, `return` stands in a function, and every jump stands in the body of
a loop, in a case or behind a label that it can go to without leaving its function. -/
theorem jumps_are_scoped {strict : Bool} {source : String} {statements : List Statement}
    (ok : parseScript strict source = .ok statements) {places : List Place}
    {statement : Statement}
    (inside : (Tree.script statements).Contains places (.statement statement)) :
    (∀ value, statement.kind = .return_ value → .functionBody ∈ places) ∧
      ∀ label, statement.kind.jump? = some label →
        ∃ place ∈ Place.inFunction places, place.isTarget label = true := by
  have formed : statement.kind.Formed .script places :=
    ((parseScript_wellFormed ok).of_contains inside).formed
  refine ⟨fun value isReturn => ?_, fun label jump => formed.target jump⟩
  rw [isReturn] at formed
  obtain ⟨place, among, allows⟩ := formed
  -- Without captured values, only the body of a function allows `return`.
  cases place with
  | functionBody => exact among
  | _ => cases allows

theorem jumps_are_scoped_label :
    ∃ statements places statement,
      parseScript false "f: while (a) { b(function () { return; }); continue f }" =
        .ok statements ∧
      (Tree.script statements).Contains places (.statement statement) ∧
      statement.kind.jump? = some (some "f") ∧
      ∃ place ∈ Place.inFunction places, place.isTarget (some "f") = true := by
  have found : ((parseScript false
      "f: while (a) { b(function () { return; }); continue f }").map Tree.script).toOption.any
      (Tree.has 3 fun _ node => match node with
        | .statement statement => statement.kind.jump? = some (some "f")
        | _ => false) = true := by decide +kernel
  obtain ⟨tree, places, node, accepted, inside, passes⟩ := Tree.exists_of_has found
  cases parsed : parseScript false "f: while (a) { b(function () { return; }); continue f }" with
  | error error =>
      rw [parsed] at accepted
      cases accepted
  | ok statements =>
      rw [parsed] at accepted
      cases accepted
      cases node with
      | statement statement =>
          have jump : statement.kind.jump? = some (some "f") := by simpa using passes
          exact ⟨statements, places, statement, rfl, inside, jump,
            (jumps_are_scoped parsed inside).2 _ jump⟩
      | _ => cases passes

/-! ## Captured values -/

/-- A jump has its target in its function. Seen from a captured value around it in
that function, the target lies in the value or around it. -/
theorem jumps_go_in_or_around_values {options : Options} {source : String} {tree : Tree}
    (ok : (parse options source).outcome = .ok tree) {places : List Place}
    {statement : Statement} {label : Option String}
    (inside : tree.Contains places (.statement statement))
    (jump : statement.kind.jump? = some label) :
    (∃ place ∈ Place.inFunction places, place.isTarget label = true) ∧
      ∀ inner captured outer, Place.inFunction places = inner ++ captured :: outer →
        captured.isCaptured = true →
        (∃ place ∈ inner, place.isTarget label = true) ∨
          ∃ place ∈ outer, place.isTarget label = true := by
  have formed : statement.kind.Formed options.dialect places :=
    ((parse_wellFormed ok).1.of_contains inside).formed
  obtain ⟨place, among, target⟩ := formed.target jump
  refine ⟨⟨place, among, target⟩, fun inner captured outer split isValue => ?_⟩
  rw [split] at among
  rcases List.mem_append.mp among with own | around
  · exact .inl ⟨place, own, target⟩
  · rcases List.mem_cons.mp around with rfl | around
    · rw [Place.isTarget_eq_false_of_isCaptured isValue] at target
      cases target
    · exact .inr ⟨place, around, target⟩

theorem exists_jump_in_value :
    ∃ tree statement,
      (parse { kind := .script } "while (a) B { c: break }").outcome = .ok tree ∧
      tree.Contains [.value, .loopBody] (.statement statement) ∧
      statement.kind.jump? = some none := by
  have found : (parse { kind := .script } "while (a) B { c: break }").outcome.toOption.any
      (Tree.has 5 fun places node => match node with
        | .statement statement =>
          statement.kind.jump? = some none && places = [.value, .loopBody]
        | _ => false) = true := by decide +kernel
  obtain ⟨tree, places, node, accepted, inside, passes⟩ := Tree.exists_of_has found
  cases node with
  | statement statement =>
      obtain ⟨jump, rfl⟩ : statement.kind.jump? = some none ∧ places = [.value, .loopBody] := by
        simpa using passes
      exact ⟨tree, statement, accepted, inside, jump⟩
  | _ => cases passes

theorem jumps_go_in_or_around_values_loop :
    ∃ tree statement,
      (parse { kind := .script } "while (a) B { c: break }").outcome = .ok tree ∧
      tree.Contains [.value, .loopBody] (.statement statement) ∧
      statement.kind.jump? = some none ∧
      (∃ place ∈ Place.inFunction [.value, .loopBody], place.isTarget none = true) ∧
      ∀ inner captured outer, Place.inFunction [.value, .loopBody] = inner ++ captured :: outer →
        captured.isCaptured = true →
        (∃ place ∈ inner, place.isTarget none = true) ∨
          ∃ place ∈ outer, place.isTarget none = true := by
  obtain ⟨tree, statement, accepted, inside, jump⟩ := exists_jump_in_value
  exact ⟨tree, statement, accepted, inside, jump,
    jumps_go_in_or_around_values accepted inside jump⟩

/-- A value does not confine its jumps: they may go to a loop around the element. -/
theorem jump_out_of_value :
    ¬ ∀ options source tree places statement label inner captured outer,
      (parse options source).outcome = .ok tree →
      tree.Contains places (.statement statement) → statement.kind.jump? = some label →
      Place.inFunction places = inner ++ captured :: outer → captured.isCaptured = true →
      ∃ place ∈ inner, place.isTarget label = true := by
  intro claimed
  obtain ⟨tree, statement, accepted, inside, jump⟩ := exists_jump_in_value
  obtain ⟨place, among, -⟩ := claimed _ _ tree _ statement none [] .value [.loopBody]
    accepted inside jump rfl rfl
  cases among

end Qml
