import Qml.Proofs.Comparison.Statement

/-! # Comparing members

Only declarative texts have members, so here both texts are declarative. -/

namespace Qml.Comparison

open Qml.Parser Qml.Grammar

variable {comparison : Comparison} {deeper deeper' : Deeper}

/-! ## Captured source -/

section

variable {α : Type} [Labeled α] {parser other : Parser α}
  (declarative : comparison.first.dialect ≠ .script)

include declarative

theorem capture_related (related : comparison.Related parser other) :
    comparison.Related (capture ⟨comparison.first, deeper⟩ parser)
      (capture ⟨comparison.second, deeper'⟩ other) := by
  have onward := related.onward
  refine .bind_offset fun began starts => related.bind fun same => ?_
  refine .bind_offset fun inside stops => ?_
  refine ⟨inferInstance, ?_⟩
  intro state state' alike
  refine .ok ?_ alike
  have sources := comparison.source_eq declarative alike.patches began inside starts stops
  simp_all

theorem captureBody_related (related : comparison.Related parser other) :
    comparison.Related (captureBody ⟨comparison.first, deeper⟩ parser)
      (captureBody ⟨comparison.second, deeper'⟩ other) :=
  .inScope Scope.uniform_inValue (capture_related declarative related)

theorem capturedValue_related {parser other : Parser Statement}
    (related : comparison.Related parser other) :
    comparison.Related (capturedValue ⟨comparison.first, deeper⟩ parser)
      (capturedValue ⟨comparison.second, deeper'⟩ other) := by
  refine (captureBody_related declarative related).bind fun {pair pair'} same => ?_
  rcases pair with ⟨node, source⟩
  rcases pair' with ⟨node', source'⟩
  exact .pure (by simp_all)

end

/-! ## Aliases and signals -/

theorem unbalancedPath_related {α : Type} [Labeled α] :
    comparison.Related (unbalancedPath : Parser α) unbalancedPath :=
  token_related.bind fun same => fail_related _ same.span.origin_eq

theorem aliasStep_related (progress : AliasProgress) :
    comparison.Related (aliasStep progress) (aliasStep progress) := by
  refine token_related.bind fun {found found'} same => ?_
  have segments : aliasSegment? found = aliasSegment? found' := by
    unfold aliasSegment?
    rw [same.kind_eq]
    split
    · rfl
    next kind => rw [same.text_eq (by simp [Token.isNumber, same.kind_eq, kind])]
    · rfl
  rw [segments, same.isPunctuation_eq '.', same.isPunctuation_eq '[', same.isPunctuation_eq ']']
  refine .ite ?_ (.ite ?_ (.ite ?_ (.ite ?_ (.pure rfl))))
  · split
    · exact expected_related _
    · exact advance_related.bind fun _ => .pure rfl
  · exact advance_related.bind fun _ => .pure rfl
  · exact advance_related.bind fun _ => .pure rfl
  · split
    · exact unbalancedPath_related
    · exact advance_related.bind fun _ => .pure rfl

theorem aliasPath_related : comparison.Related aliasPath aliasPath := by
  have path : comparison.Related (iterate aliasStep ⟨[], [], true⟩)
      (iterate aliasStep ⟨[], [], true⟩) :=
    .iterate (fun same => same.eq ▸ aliasStep_related _) rfl
  exact path.bind_eq fun progress => .ite (.pure rfl) unbalancedPath_related

theorem aliasTail_related (readonly : Bool) (name : String) {start start' : Span}
    (same : comparison.labels.Same start start') :
    comparison.Related (aliasTail readonly start name) (aliasTail readonly start' name) := by
  refine (expectPunctuation_related ':').bind fun _ => aliasPath_related.bind_eq fun target => ?_
  refine (skipPunctuation_related ';').bind fun _ => ?_
  exact (spanFrom_related same).bind fun span => .pure (by simp_all [Alias.relabel])

theorem typeName_related : comparison.Related typeName typeName := by
  refine token_related.bind fun same => ?_
  rw [same.kind_eq]
  split
  · exact advance_related.bind fun _ => .pure rfl
  · exact expected_related _

theorem typeArgument_related : comparison.Related typeArgument typeArgument := by
  refine (atOperator_related .less).bind_eq fun _ => .ite ?_ (.pure rfl)
  refine advance_related.bind fun _ => expectName_related.bind_eq fun argument => ?_
  refine (atOperator_related .greater).bind_eq fun _ => .ite ?_ (expected_related _)
  exact advance_related.bind fun _ => .pure rfl

theorem signalParameter_related : comparison.Related signalParameter signalParameter := by
  refine token_related.bind fun same => ?_
  rw [same.kind_eq]
  split
  · exact advance_related.bind fun _ => expectName_related.bind_eq fun name => .pure rfl
  · exact expected_related _

theorem signalParameters_related : comparison.Related signalParameters signalParameters :=
  (atPunctuation_related '(').bind_eq fun _ => .ite
    (advance_related.bind fun _ =>
      listUntil_related (by decide) signalParameter_related.loosen) (.pure rfl)

theorem signal_related {start start' : Span} (same : comparison.labels.Same start start') :
    comparison.Related (signal start) (signal start') := by
  refine expectName_related.bind_eq fun name => ?_
  refine signalParameters_related.bind_eq fun parameters => ?_
  refine (skipPunctuation_related ';').bind fun _ => ?_
  exact (spanFrom_related same).bind fun span => .pure (by simp_all [Signal.relabel])

theorem dottedWord_related : comparison.Related dottedWord dottedWord :=
  (atPunctuation_related '.').bind_eq fun _ => .ite
    (advance_related.bind fun _ => expectWord_related.bind_eq fun _ => .pure rfl) (.pure rfl)

theorem qualifiedName_related : comparison.Related qualifiedName qualifiedName :=
  expectWord_related.bind_eq fun _ => dottedWord_related.collect.bind_eq fun _ => .pure rfl

theorem elementTarget_related : comparison.Related elementTarget elementTarget :=
  (atName_related "on").bind_eq fun _ => .ite
    (advance_related.bind fun _ => expectName_related.bind_eq fun _ => .pure rfl) (.pure rfl)

/-! ## Values -/

variable (levels : comparison.Levels deeper deeper')
  (declarative : comparison.first.dialect ≠ .script)

include levels

theorem functionValue_related {start start' : Span} (same : comparison.labels.Same start start') :
    comparison.Related (functionValue ⟨comparison.first, deeper⟩ start)
      (functionValue ⟨comparison.second, deeper'⟩ start') := by
  refine (functionAtom_related levels same).bind fun function => .pure ?_
  have spans := function.exprSpan
  simp_all

include declarative

theorem valueOr_related {otherwise otherwise' : Parser Statement}
    (related : comparison.Related otherwise otherwise') :
    comparison.Related (valueOr ⟨comparison.first, deeper⟩ otherwise)
      (valueOr ⟨comparison.second, deeper'⟩ otherwise') := by
  refine .bind_token_peek fun {found found' next next'} start looksLike => ?_
  have opens : (found.isPunctuation '{' && next.isString) =
      (found'.isPunctuation '{' && next'.isString) := by
    rw [← start.isPunctuation_eq]
    cases brace : found.isPunctuation '{' with
    | true =>
        have kind : found.kind = .punctuation '{' := of_decide_eq_true brace
        rw [(looksLike (by simp [Token.isPunctuation, kind])).2.2]
    | false => rfl
  rw [opens, start.isKeyword_eq]
  refine .ite ?_ (.ite ?_ related)
  · refine (memberBlock_related levels declarative).bind fun members => ?_
    exact (spanFrom_related start.span).bind fun span => .pure (by simp_all)
  · exact advance_related.bind fun _ => functionValue_related levels start.span

theorem bareExpression_related :
    comparison.Related (bareExpression ⟨comparison.first, deeper⟩)
      (bareExpression ⟨comparison.second, deeper'⟩) := by
  refine token_related.bind fun start => ?_
  refine ((expression_related levels false false).tighten (not_crossing declarative)).bind
    fun value => ?_
  exact (spanFrom_related start.span).bind fun span => .pure (by simp_all)

theorem propertyValue_related :
    comparison.Related (propertyValue ⟨comparison.first, deeper⟩)
      (propertyValue ⟨comparison.second, deeper'⟩) := by
  have related := pragmaOr_related (valueOr_related levels declarative levels.statement)
  have onward := levels.onward
  refine ⟨inferInstance, fun {state other} alike => ?_⟩
  rw [propertyValue_run, propertyValue_run]
  exact (capturedValue_related declarative related).agrees alike.settled

theorem keyedValue_related :
    comparison.Related (keyedValue ⟨comparison.first, deeper⟩)
      (keyedValue ⟨comparison.second, deeper'⟩) := by
  have related := pragmaOr_related
    (valueOr_related levels declarative (bareExpression_related levels declarative))
  have onward := levels.onward
  refine ⟨inferInstance, fun {state other} alike => ?_⟩
  rw [keyedValue_run, keyedValue_run]
  exact (capturedValue_related declarative related).agrees alike.settled

theorem handlerValue_related :
    comparison.Related (handlerValue ⟨comparison.first, deeper⟩)
      (handlerValue ⟨comparison.second, deeper'⟩) :=
  capturedValue_related declarative levels.statement

/-! ## Declarations -/

theorem initialValue_related (readonly : Bool) :
    comparison.Related (initialValue ⟨comparison.first, deeper⟩ readonly)
      (initialValue ⟨comparison.second, deeper'⟩ readonly) := by
  refine (atPunctuation_related ':').bind_eq fun _ => .ite ?_ (.ite (refuse_related _) ?_)
  · exact advance_related.bind fun _ => (propertyValue_related levels declarative).bind
      fun value => .pure (by simpa using value)
  · exact (skipPunctuation_related ';').bind fun _ => .pure rfl

theorem declaration_related (readonly : Bool) {start start' : Span}
    (same : comparison.labels.Same start start') :
    comparison.Related (declaration ⟨comparison.first, deeper⟩ readonly start)
      (declaration ⟨comparison.second, deeper'⟩ readonly start') := by
  refine typeName_related.bind_eq fun type => typeArgument_related.bind_eq fun argument => ?_
  refine expectName_related.bind_eq fun name => .ite ?_ ?_
  · exact (aliasTail_related readonly name same).bind fun target => .pure (by simp_all)
  · refine (initialValue_related levels declarative readonly).bind fun value => ?_
    exact (spanFrom_related same).bind fun span => .pure (by simp_all)

/-! ## Members -/

theorem method_related :
    comparison.Related (method ⟨comparison.first, deeper⟩)
      (method ⟨comparison.second, deeper'⟩) := by
  refine token_related.bind fun start => ?_
  refine (capture_related declarative
    (advance_related.bind fun _ => function_related levels true start.span)).bind
      fun {pair pair'} same => ?_
  rcases pair with ⟨function, source⟩
  rcases pair' with ⟨function', source'⟩
  obtain ⟨functions, sources⟩ := Prod.ext_iff.mp same.relabel_eq
  have names : function.name = function'.name := by
    simpa using congrArg Function.name functions
  exact .pure (by simp_all)

theorem signalMember_related {start start' : Span} (same : comparison.labels.Same start start') :
    comparison.Related (signalMember ⟨comparison.first, deeper⟩ start)
      (signalMember ⟨comparison.second, deeper'⟩ start') := by
  refine (atPunctuation_related ':').bind_eq fun _ => .ite (advance_related.bind fun _ => ?_) ?_
  · refine (capturedValue_related declarative (statement_related levels)).bind fun value => ?_
    exact (spanFrom_related same).bind fun span => .pure (by simp_all)
  · exact (signal_related same).bind fun signal => .pure (by simp_all)

theorem elementTail_related (typeName : QualifiedName) {start start' : Span}
    (same : comparison.labels.Same start start') :
    comparison.Related (elementTail ⟨comparison.first, deeper⟩ typeName start)
      (elementTail ⟨comparison.second, deeper'⟩ typeName start') := by
  refine elementTarget_related.bind_eq fun target => ?_
  refine (memberBlock_related levels declarative).bind fun members => ?_
  exact (spanFrom_related same).bind fun span => .pure (by simp_all)

theorem bindingValue_related (stringKeys : Bool) (path : QualifiedName) :
    comparison.Related (bindingValue ⟨comparison.first, deeper⟩ stringKeys path)
      (bindingValue ⟨comparison.second, deeper'⟩ stringKeys path) := by
  refine .ite ?_ (.ite ?_ ?_)
  · exact (keyedValue_related levels declarative).bind fun value => .pure (by simp_all)
  · exact (handlerValue_related levels declarative).bind fun value => .pure (by simp_all)
  · exact (propertyValue_related levels declarative).bind fun value => .pure (by simp_all)

theorem pathMember_related (stringKeys : Bool) {start start' : Span}
    (same : comparison.labels.Same start start') :
    comparison.Related (pathMember ⟨comparison.first, deeper⟩ stringKeys start)
      (pathMember ⟨comparison.second, deeper'⟩ stringKeys start') := by
  refine qualifiedName_related.bind_eq fun path => .ite ?_ ?_
  · exact (elementTail_related levels declarative path same).bind fun element =>
      .pure (by simp_all)
  · refine (atPunctuation_related '{').bind_eq fun _ => .ite ?_ ?_
    · refine (memberBlock_related levels declarative).bind fun members => ?_
      exact (spanFrom_related same).bind fun span => .pure (by simp_all)
    · refine (expectPunctuation_related ':').bind fun _ => ?_
      refine (bindingValue_related levels declarative stringKeys path).bind fun value => ?_
      exact (spanFrom_related same).bind fun span => .pure (by simp_all)

theorem namedMember_agrees (stringKeys : Bool) (name : String) {start start' : Span}
    (same : comparison.labels.Same start start') {state other : State}
    (alike : comparison.Alike state other)
    (notSemicolon : state.cursor.current.isPunctuation ';' = false) :
    comparison.Agrees (fun _ => False)
      (namedMember ⟨comparison.first, deeper⟩ stringKeys name start state)
      (namedMember ⟨comparison.second, deeper'⟩ stringKeys name start' other) := by
  have looksLike := alike.peek_looksLike notSemicolon
  simp only [namedMember, run_peek, looksLike.1, looksLike.2.1]
  refine RelatedUpTo.agrees
    (.ite ?_ (.ite ?_ (pathMember_related levels declarative stringKeys same))) alike
  · exact advance_related.bind fun _ => advance_related.bind fun _ =>
      (declaration_related levels declarative true same).bind fun found => .pure (by simp_all)
  · exact advance_related.bind fun _ =>
      (declaration_related levels declarative false same).bind fun found => .pure (by simp_all)

theorem keyedMember_related (key : String) {start start' : Span}
    (same : comparison.labels.Same start start') :
    comparison.Related (keyedMember ⟨comparison.first, deeper⟩ key start)
      (keyedMember ⟨comparison.second, deeper'⟩ key start') := by
  refine advance_related.bind fun _ => (expectPunctuation_related ':').bind fun _ => ?_
  refine (keyedValue_related levels declarative).bind fun value => ?_
  exact (spanFrom_related same).bind fun span => .pure (by simp_all)

theorem defaultMember_related {start start' : Span} (same : comparison.labels.Same start start') :
    comparison.Related (defaultMember ⟨comparison.first, deeper⟩ start)
      (defaultMember ⟨comparison.second, deeper'⟩ start') :=
  advance_related.bind fun _ => (expectNameOf_related "property").bind fun _ =>
    (declaration_related levels declarative false same).bind fun found => .pure (by simp_all)

theorem memberByToken_related (first stringKeys : Bool) {start start' : Span}
    (same : comparison.labels.Same start start') :
    comparison.Related (memberByToken ⟨comparison.first, deeper⟩ first stringKeys start)
      (memberByToken ⟨comparison.second, deeper'⟩ first stringKeys start') := by
  have onward := levels.onward
  refine ⟨inferInstance, fun {state other} alike => ?_⟩
  simp only [memberByToken, run_token, ← alike.current.kind_eq]
  generalize kindEq : state.cursor.current.kind = kind
  split
  case h_1 name =>
      have notSemicolon : state.cursor.current.isPunctuation ';' = false := by
        simp [Token.isPunctuation, kindEq]
      refine (namedMember_agrees levels declarative stringKeys name same alike notSemicolon).bind
        inferInstance ?_ nofun
      intro found found' after after' _ sameFound alike'
      exact .ok (by simpa using sameFound) alike'
  all_goals refine RelatedUpTo.agrees ?_ alike
  case h_2 =>
      exact (defaultMember_related levels declarative same).bind fun found =>
        .pure (by simpa using found)
  case h_3 key =>
      refine .ite (enterStringKeys_related.bind fun _ => ?_) unexpected_related
      exact (keyedMember_related levels declarative key same).bind fun found =>
        .pure (by simpa using found)
  case h_8 =>
      exact .ite unexpected_related (advance_related.bind fun _ => .pure rfl)
  all_goals first
    | exact unexpected_related
    | exact (skipToken_related same).bind fun _ => .pure rfl

theorem memberAfterComma_related (first : Bool) {start start' : Span}
    (same : comparison.labels.Same start start') :
    comparison.Related (memberAfterComma ⟨comparison.first, deeper⟩ first start)
      (memberAfterComma ⟨comparison.second, deeper'⟩ first start') := by
  refine .ite (memberByToken_related levels declarative first true same) ?_
  refine (expectPunctuation_related ',').bind fun _ => ?_
  exact (atPunctuation_related '}').bind_eq fun _ => .ite (.pure rfl)
    (memberByToken_related levels declarative first true same)

theorem member_related (first : Bool) :
    comparison.Related (member ⟨comparison.first, deeper⟩ first)
      (member ⟨comparison.second, deeper'⟩ first) := by
  refine token_related.bind fun start => .bind_scope fun agrees => ?_
  rw [agrees.stringKeys_eq, start.isKeyword_eq, start.isName_eq]
  refine .ite (memberAfterComma_related levels declarative first start.span) (.ite ?_ (.ite ?_ ?_))
  · exact (method_related levels declarative).bind fun found => .pure (by simpa using found)
  · exact advance_related.bind fun _ => (signalMember_related levels declarative start.span).bind
      fun found => .pure (by simpa using found)
  · exact memberByToken_related levels declarative first false start.span

theorem memberRound_related (first : Bool) :
    comparison.Related (memberRound ⟨comparison.first, deeper⟩ first)
      (memberRound ⟨comparison.second, deeper'⟩ first) := by
  refine (atPunctuation_related '}').bind_eq fun _ => .ite (.pure rfl) ?_
  refine atEnd_related.bind_eq fun _ => .ite unexpected_related ?_
  exact (member_related levels declarative first).bind fun found => .pure (by simpa using found)

theorem members_related :
    comparison.Related (members ⟨comparison.first, deeper⟩)
      (members ⟨comparison.second, deeper'⟩) := by
  have onward := levels.onward
  have consumes := levels.consumes
  refine (memberRound_related levels declarative true).bind fun {first first'} same => ?_
  cases first with
  | none =>
      have ended : first' = none := by simpa using same.symm
      subst ended
      exact .pure rfl
  | some first =>
      cases first' with
      | none => simp at same
      | some first' =>
          refine (memberRound_related levels declarative false).collect.bind fun more => ?_
          refine .pure (Labels.Same.filterMap_id ?_)
          simp_all

end Qml.Comparison
