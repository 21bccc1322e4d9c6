import Qml.Proofs.Height.Chains

/-! # Brackets inside each other

An alias path keeps the paths around an open bracket and is read in one loop, so
that brackets can stand inside each other to any height in a document. -/

namespace Qml

open Qml.Parser

namespace Grammar

variable {counts : Link → Bool} {setting : Setting} {room n : Nat} {state : State}
  {kind : TokenKind} {more : List TokenKind}

/-! ## Rounds of a path -/

def segmentsA : List AliasSegment := [⟨"a", []⟩]

theorem aliasStep_of_name (enclosing : List (List AliasSegment))
    (faces : state.Faces (.name "a" :: more)) :
    aliasStep ⟨enclosing, [], true⟩ state =
      .ok (some ⟨enclosing, segmentsA, false⟩) state.advanced := by
  simp only [aliasStep, run_token, aliasSegment?, faces.kind_eq]
  rfl

theorem aliasStep_of_opening (enclosing : List (List AliasSegment)) (segments : List AliasSegment)
    (faces : state.Faces (.punctuation '[' :: more)) :
    aliasStep ⟨enclosing, segments, false⟩ state =
      .ok (some ⟨segments :: enclosing, [], true⟩) state.advanced := by
  simp only [aliasStep, run_token, faces.isPunctuation_eq]
  rfl

theorem aliasStep_of_closing (enclosing : List (List AliasSegment))
    (segments parent : List AliasSegment) (faces : state.Faces (.punctuation ']' :: more)) :
    aliasStep ⟨parent :: enclosing, segments, false⟩ state =
      .ok (some ⟨enclosing, addSubscript parent ⟨segments⟩, false⟩) state.advanced := by
  simp only [aliasStep, run_token, faces.isPunctuation_eq]
  rfl

theorem aliasStep_of_brace (progress : AliasProgress) (settled : progress.awaitsSegment = false)
    (faces : state.Faces (.punctuation '}' :: more)) :
    aliasStep progress state = .ok none state := by
  simp only [aliasStep, run_token, faces.isPunctuation_eq, settled]
  rfl

theorem height_addSubscript (counted : counts .bracket = true) (segments : List AliasSegment) :
    AliasPath.height counts ⟨segments⟩ + 1 ≤
      AliasPath.height counts ⟨addSubscript segmentsA ⟨segments⟩⟩ := by
  simp only [segmentsA, addSubscript, List.nil_append, AliasPath.height, AliasSegment.heightAll,
    AliasSegment.height, AliasPath.heightAll, Link.step_of_counted counted]
  omega

theorem opening_rounds {last : TokenKind} {rest : List TokenKind}
    (faces : state.Faces
      ((List.replicate n [.punctuation '[', .name "a"]).flatten ++ last :: rest)) :
    ∃ after, Rounds aliasStep ⟨[], segmentsA, false⟩ state
      ⟨List.replicate n segmentsA, segmentsA, false⟩ after ∧ after.Faces (last :: rest) := by
  let reached (k : Nat) (progress : AliasProgress) : Prop :=
    progress = ⟨List.replicate k segmentsA, segmentsA, false⟩
  obtain ⟨_, after, rounds, there, rfl⟩ := Rounds.exists_of_repeated reached
    (fun {k value state kind more} _ _ known faces => by
      subst known
      exact ⟨_, _, .round (aliasStep_of_opening _ _ faces)
        (.round (aliasStep_of_name _ faces.advanced) (.done _ _)), faces.advanced.advanced, rfl⟩)
    rfl faces
  exact ⟨after, rounds, there⟩

theorem closing_rounds (counted : counts .bracket = true) {rest : List TokenKind}
    (faces : state.Faces
      ((List.replicate n [.punctuation ']']).flatten ++ .punctuation '}' :: rest)) :
    ∃ segments after, Rounds aliasStep ⟨List.replicate n segmentsA, segmentsA, false⟩ state
      ⟨[], segments, false⟩ after ∧ after.Faces (.punctuation '}' :: rest) ∧
        n ≤ AliasPath.height counts ⟨segments⟩ := by
  -- After `k` brackets the paths around are fewer by `k`, and the path is as high.
  let reached (k : Nat) (progress : AliasProgress) : Prop :=
    ∃ segments, progress = ⟨List.replicate (n - k) segmentsA, segments, false⟩ ∧
      k ≤ AliasPath.height counts ⟨segments⟩
  obtain ⟨_, after, rounds, there, segments, rfl, high⟩ := Rounds.exists_of_repeated reached
    (fun {k value state kind more} fewer _ known faces => by
      obtain ⟨segments, rfl, high⟩ := known
      obtain ⟨m, remaining⟩ : ∃ m, n - k = m + 1 := ⟨n - k - 1, by omega⟩
      have less : n - (k + 1) = m := by omega
      have higher := height_addSubscript counted segments
      rw [remaining]
      exact ⟨_, _, .round (aliasStep_of_closing _ _ _ faces) (.done _ _), faces.advanced, _,
        by rw [less], by omega⟩)
    ⟨segmentsA, rfl, Nat.zero_le _⟩ faces
  rw [Nat.sub_self] at rounds
  exact ⟨segments, after, rounds, there, high⟩

theorem aliasPath_reaches (counted : counts .bracket = true)
    (faces : state.Faces (.name "a" ::
      ((List.replicate n [.punctuation '[', .name "a"]).flatten ++
        ((List.replicate n [.punctuation ']']).flatten ++ .punctuation '}' :: kind :: more)))) :
    Reaches aliasPath state (.punctuation '}' :: kind :: more)
      (n ≤ AliasPath.height counts ·) := by
  have one := aliasStep_of_name [] faces
  obtain ⟨first, tail, following, -⟩ := TokenKind.repeated_eq_cons n (.punctuation ']')
    (.punctuation '}') [] (kind :: more)
  rw [following] at faces
  obtain ⟨between, opened, there⟩ := opening_rounds faces.advanced_append
  rw [← following] at there
  obtain ⟨segments, after, closed, behind, high⟩ := closing_rounds counted there
  have last := aliasStep_of_brace ⟨[], segments, false⟩ rfl behind
  have inside : 0 < after.ahead := by simp [behind.ahead_eq]
  have ok := iterate_of_rounds ((Rounds.round one opened).trans closed) last inside
  exact ⟨⟨segments⟩, after, bind_eq_ok.mpr ⟨_, _, ok, rfl⟩, behind, high⟩

/-! ## Documents -/

/-- The tokens of `a[a[a]]` with so many brackets, and of a brace behind it. -/
def bracketed (n : Nat) (more : List TokenKind) : List TokenKind :=
  .name "a" :: ((List.replicate n [.punctuation '[', .name "a"]).flatten ++
    ((List.replicate n [.punctuation ']']).flatten ++ .punctuation '}' :: more))

theorem declaration_reaches {grammar : Grammar} {start : Span} (counted : counts .bracket = true)
    (faces : state.Faces (.name "alias" :: .name "a" :: .punctuation ':' ::
      bracketed n (kind :: more))) :
    Reaches (grammar.declaration false start) state (.punctuation '}' :: kind :: more)
      (n ≤ Declaration.height counts ·) := by
  have type : Reaches typeName state (.name "a" :: .punctuation ':' :: bracketed n (kind :: more))
      (· = "alias") := by
    simp only [Reaches, typeName, run_token, faces.kind_eq]
    exact ⟨_, _, rfl, faces.advanced, rfl⟩
  refine type.bind fun _ state isAlias faces => ?_
  have argument : Reaches typeArgument state (.name "a" :: .punctuation ':' ::
      bracketed n (kind :: more)) fun _ => True := by
    simp only [Reaches, typeArgument, run_atOperator, Token.isOperator, faces.kind_eq]
    exact ⟨_, _, rfl, faces, trivial⟩
  refine argument.bind fun _ state _ faces => ?_
  have name : Reaches expectName state (.punctuation ':' :: bracketed n (kind :: more))
      fun _ => True := by
    simp only [Reaches, expectName, run_token, faces.kind_eq]
    exact ⟨_, _, rfl, faces.advanced, trivial⟩
  refine name.bind fun name state _ faces => ?_
  have aliased : Reaches (aliasTail false start name) state (.punctuation '}' :: kind :: more)
      fun found => n ≤ found.target.height counts := by
    refine (Reaches.expectPunctuation faces).bind fun _ state _ faces => ?_
    refine (aliasPath_reaches counted faces).bind fun target state high faces => ?_
    have skipped : skipPunctuation ';' state = .ok () state := by
      refine skipPunctuation_eq_ok.mpr (.inr ⟨?_, rfl⟩)
      simp [faces.isPunctuation_eq]
    exact ⟨_, _, bind_eq_ok.mpr ⟨_, _, skipped, rfl⟩, faces, high⟩
  rw [if_pos isAlias]
  exact aliased.bind fun found state high faces => .pure faces high

theorem member_reaches {grammar : Grammar} {first : Bool} {name : String} {rest : List TokenKind}
    {described : Member → Prop} (notSignal : name ≠ "signal")
    (plain : state.scope.stringKeys = false) (faces : state.Faces (.name name :: more))
    (named : Reaches (grammar.namedMember false name state.cursor.current.span) state rest
      described) :
    Reaches (grammar.member first) state rest
      fun result => ∃ found, result = some found ∧ described found := by
  have noFunction : state.cursor.current.isKeyword .function = false := by
    simp [Token.isKeyword, faces.kind_eq]
  have noSignal : state.cursor.current.isName "signal" = false := by
    simp [Token.isName, faces.kind_eq, notSignal]
  simp only [Reaches, Grammar.member, run_token, run_scope, plain, noFunction, noSignal,
    Bool.false_eq_true, if_false, memberByToken, faces.kind_eq]
  exact named.bind fun found state holds faces => ⟨_, _, rfl, faces, found, rfl, holds⟩

theorem members_reach {grammar : Grammar} (counted : counts .bracket = true)
    (plain : state.scope.stringKeys = false)
    (faces : state.Faces (.name "property" :: .name "alias" :: .name "a" :: .punctuation ':' ::
      bracketed n (kind :: more))) :
    Reaches grammar.members state (.punctuation '}' :: kind :: more)
      (n ≤ Member.heightAll counts ·) := by
  have named : Reaches (grammar.namedMember false "property" state.cursor.current.span) state
      (.punctuation '}' :: kind :: more) (n ≤ Member.height counts ·) := by
    have noColon : state.cursor.peek.isPunctuation ':' = false := by
      simp [Token.isPunctuation, faces.peek_kind]
    simp only [Reaches, namedMember, run_peek, noColon]
    refine (declaration_reaches counted faces.advanced).bind fun found state high faces => ?_
    refine ⟨_, _, rfl, faces, ?_⟩
    simp only [Member.height]
    omega
  have first : Reaches (grammar.memberRound true) state (.punctuation '}' :: kind :: more)
      fun result => ∃ found, result = some (some found) ∧ n ≤ found.height counts := by
    have noBrace : state.cursor.current.isPunctuation '}' = false := by
      simp [faces.isPunctuation_eq]
    have inside : state.cursor.current.isEnd = false := by simp [Token.isEnd, faces.kind_eq]
    simp only [Reaches, memberRound, run_atPunctuation, run_atEnd, noBrace, inside,
      Bool.false_eq_true, if_false]
    refine (member_reaches (by decide) plain faces named).bind fun _ state known faces => ?_
    obtain ⟨found, rfl, high⟩ := known
    exact ⟨_, _, rfl, faces, found, rfl, high⟩
  refine first.bind fun _ state known faces => ?_
  obtain ⟨found, rfl, high⟩ := known
  have last : grammar.memberRound false state = .ok none state := by
    simp only [memberRound, run_atPunctuation, faces.isPunctuation_eq]
    rfl
  refine (Reaches.collect_nil last faces).bind fun _ state none faces => ?_
  subst none
  exact .pure faces (Nat.le_trans high (Nat.le_max_left _ _))

def documentOfAlias (n : Nat) : List TokenKind :=
  .name "A" :: .punctuation '{' :: .name "property" :: .name "alias" :: .name "a" ::
    .punctuation ':' :: bracketed n [.endOfInput]

theorem elementTail_reaches (setting : Setting) (room : Nat) (path : QualifiedName) (start : Span)
    (counted : counts .bracket = true) (plain : state.scope.stringKeys = false)
    (faces : state.Faces (documentOfAlias n).tail) :
    Reaches ((within setting (room + 1)).elementTail path start) state [.endOfInput]
      (n ≤ Element.height counts ·) := by
  have block : Reaches (within setting (room + 1)).memberBlock state [.endOfInput]
      (n ≤ Member.heightAll counts ·) := by
    have opens : expectPunctuation '{' state = .ok state.cursor.current state.advanced := by
      refine expectPunctuation_eq_ok.mpr ⟨?_, rfl, rfl⟩
      simp [faces.isPunctuation_eq]
    obtain ⟨members, between, membersOk, there, high⟩ :
        Reaches (within setting (room + 1)).deeper.members state.advanced
          [.punctuation '}', .endOfInput] (n ≤ Member.heightAll counts ·) :=
      .inScope (members_reach counted plain faces.advanced)
    obtain ⟨_, after, closes, behind, -⟩ := Reaches.expectPunctuation there
    exact ⟨members, after, bind_eq_ok.mpr ⟨_, _, opens, bind_eq_ok.mpr ⟨_, _, membersOk,
      bind_eq_ok.mpr ⟨_, _, closes, rfl⟩⟩⟩, behind, high⟩
  have noTarget : elementTarget state = .ok none state := by
    simp only [elementTarget, run_atName, Token.isName, faces.kind_eq]
    rfl
  obtain ⟨members, after, ok, there, high⟩ := block
  exact ⟨_, _, bind_eq_ok.mpr ⟨_, _, noTarget, bind_eq_ok.mpr ⟨_, _, ok, rfl⟩⟩, there, high⟩

theorem rootElement_reaches (setting : Setting) (room : Nat) (counted : counts .bracket = true)
    (plain : state.scope.stringKeys = false) (faces : state.Faces (documentOfAlias n)) :
    Reaches (within setting (room + 1)).rootElement state [.endOfInput]
      (n ≤ Element.height counts ·) := by
  have path : qualifiedName state = .ok ⟨["A"]⟩ state.advanced := by
    have word : expectWord state = .ok "A" state.advanced := by
      refine expectWord_eq_ok.mpr ⟨?_, rfl⟩
      rw [faces.kind_eq]
      rfl
    have noMore : dottedWord state.advanced = .ok none state.advanced := by
      simp only [dottedWord, run_atPunctuation, faces.advanced.isPunctuation_eq]
      rfl
    exact bind_eq_ok.mpr ⟨_, _, word, bind_eq_ok.mpr ⟨_, _, collect_of_none noMore, rfl⟩⟩
  have named : Reaches ((within setting (room + 1)).namedMember false "A"
      state.cursor.current.span) state [.endOfInput]
      fun found => ∃ element, found = .element element ∧ n ≤ element.height counts := by
    have within : state.advanced.scope.stringKeys = false := plain
    obtain ⟨element, after, ok, there, high⟩ := elementTail_reaches setting room ⟨["A"]⟩
      state.cursor.current.span counted within faces.advanced
    refine ⟨.element element, after, ?_, there, element, rfl, high⟩
    exact bind_eq_ok.mpr ⟨_, _, rfl, bind_eq_ok.mpr ⟨_, _, path, bind_eq_ok.mpr ⟨_, _, ok, rfl⟩⟩⟩
  simp only [Reaches, rootElement, run_token]
  refine (member_reaches (by decide) plain faces named).bind fun _ state known faces => ?_
  obtain ⟨_, rfl, element, rfl, high⟩ := known
  exact .pure faces high

theorem document_reaches (counted : counts .bracket = true)
    (plain : state.scope.stringKeys = false) (faces : state.Faces (documentOfAlias n)) :
    Reaches (within setting (room + 1)).document state [.endOfInput]
      fun document => n ≤ document.root.height counts := by
  have isName : state.cursor.current.kind = .name "A" := faces.kind_eq
  have noImport : importItem state = .ok none state := by
    have otherName : state.cursor.current.isName "import" = false := by
      simp [Token.isName, isName]
    simp only [importItem, run_token, otherName]
    rfl
  have inside : state.cursor.current.isEnd = false := by simp [Token.isEnd, isName]
  obtain ⟨root, after, ok, there, high⟩ := rootElement_reaches setting room counted plain faces
  have atEnd : after.cursor.current.isEnd = true := by simp [Token.isEnd, there.kind_eq]
  refine ⟨⟨[], root⟩, after, bind_eq_ok.mpr ⟨_, _, collect_of_none noImport, ?_⟩, there, high⟩
  simp only [run_atEnd, inside, Bool.false_eq_true, if_false]
  refine bind_eq_ok.mpr ⟨root, after, ok, ?_⟩
  simp only [run_atEnd, atEnd, if_true]
  rfl

end Grammar

end Qml
