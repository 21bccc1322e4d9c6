import Qml.Proofs.Comparison.Near
import Qml.Proofs.Comparison.Nesting
import Qml.Proofs.Reading

/-! # Comparing expressions up to where the texts part

The second text goes on with a token that ends every expression, such as a comma, and
the first with another one or with a test by `instanceof`. Neither belongs to an operand
in front of it, so both parses make the same of an operand that ends there, and of an
expression. Of the productions only those can end there that an expression can end with;
whatever they contain lies among the shared tokens. -/

namespace Qml

/-- A token that an operand in front of it does not go on with: a test, or one that ends
every expression. -/
def Token.EndsOperand (token : Token) : Prop :=
  token.kind = .operator .instanceOf ∨ token.EndsExpression

namespace Token.EndsOperand

variable {token : Token} (ends : token.EndsOperand)

include ends

theorem isPunctuation_eq_false (mark : Char) (other : mark ∉ endingMarks) :
    token.isPunctuation mark = false := by
  rcases ends with kind | ends
  · simp [isPunctuation, kind]
  · exact ends.isPunctuation_eq_false mark other

theorem isOperator_eq_false (operator : Operator) (notTest : operator ≠ .instanceOf) :
    token.isOperator operator = false := by
  rcases ends with kind | ends
  · simp [isOperator, kind, notTest.symm]
  · exact ends.isOperator_eq_false operator

theorem assignmentOperator?_eq_none : Grammar.assignmentOperator? token = none := by
  unfold Grammar.assignmentOperator?
  rcases ends with kind | ends
  · simp only [kind]
    rfl
  · split
    case h_1 operator kind => exact absurd kind (ends.kind_ne_operator operator)
    case h_2 => rfl

end Token.EndsOperand

theorem Grammar.stepAfter_of_endsOperand {state : State}
    (ends : state.cursor.current.EndsOperand) (expr : Expr) :
    stepAfter expr state = .ok none state := by
  rcases ends with kind | ends
  · simp only [stepAfter, Parser.run_token, kind]
    rfl
  · exact stepAfter_of_ends ends expr

namespace Comparison

open Qml.Parser Qml.Grammar

/-- The texts part at two tokens at one place that do not belong to an operand in front
of them, and go on behind these. -/
structure Divides (comparison : Comparison) : Prop where
  strict_eq : comparison.first.strict = comparison.second.strict
  straight : ¬ comparison.Crossing
  first : ∃ token following rest, comparison.firstTail = token :: following :: rest ∧
    token.EndsOperand
  second : ∃ token following rest, comparison.secondTail = token :: following :: rest ∧
    token.EndsExpression
  places : ∀ {token rest other more}, comparison.firstTail = token :: rest →
    comparison.secondTail = other :: more → comparison.inside token.span.start ∧
      comparison.labels.first.position token.span.origin =
        comparison.labels.second.position other.span.origin

variable (comparison : Comparison)

/-- The first parse has consumed the token at which the texts part. -/
def Past (state : State) : Prop := state.ahead + 1 < comparison.firstTail.length

/-- Two parsers that make the same of the same tokens as long as the first does
not go on behind them. -/
structure ToEdge {α : Type} [Labeled α] (parser other : Parser α) : Prop where
  onward : Follows State.Onward parser
  exists_ok : ∀ {state state' after value}, comparison.Near state state' →
    parser state = .ok value after → ¬ comparison.Past after →
      ∃ value' after', other state' = .ok value' after' ∧
        comparison.labels.Same value value' ∧ comparison.Near after after'

variable {comparison} {α β : Type} [Labeled α] [Labeled β]

theorem not_past_of_onward {state after : State} (onward : State.Onward state after)
    (here : ¬ comparison.Past after) : ¬ comparison.Past state := by
  unfold Past at here ⊢
  unfold State.Onward at onward
  omega

namespace Divides

variable (divides : comparison.Divides)

include divides

theorem two_le_length : 2 ≤ comparison.firstTail.length := by
  obtain ⟨token, following, rest, tail, -⟩ := divides.first
  simp [tail]

theorem firstTail_ne_nil : comparison.firstTail ≠ [] := by
  obtain ⟨token, following, rest, tail, -⟩ := divides.first
  simp [tail]

end Divides

namespace AtEdge

variable {state other : State} (edge : comparison.AtEdge state other)

include edge

theorem ahead_eq : state.ahead + 1 = comparison.firstTail.length := by
  rw [← edge.here]
  rfl

variable (divides : comparison.Divides)

include divides

theorem endsOperand : state.cursor.current.EndsOperand := by
  obtain ⟨token, following, rest, tail, ends⟩ := divides.first
  rw [Cursor.current_of_remaining (edge.here.trans tail)]
  exact ends

theorem endsExpression : other.cursor.current.EndsExpression := by
  obtain ⟨token, following, rest, tail, ends⟩ := divides.second
  rw [Cursor.current_of_remaining (edge.there.trans tail)]
  exact ends

theorem places : comparison.inside state.cursor.current.span.start ∧
    comparison.labels.first.position state.cursor.current.span.origin =
      comparison.labels.second.position other.cursor.current.span.origin :=
  divides.places edge.here.symm edge.there.symm

theorem past {after : State} (consumed : after.ahead ≤ state.ahead - 1) :
    comparison.Past after := by
  have length := edge.ahead_eq
  have two := divides.two_le_length
  unfold Past
  omega

end AtEdge

namespace ToEdge

/-! ## Sequences and choices -/

theorem pure {value other : α} (same : comparison.labels.Same value other) :
    comparison.ToEdge (pure value) (pure other) := by
  refine ⟨inferInstance, ?_⟩
  intro state state' after result near ok _
  cases ok
  exact ⟨other, state', rfl, same, near⟩

theorem bind {parser other : Parser α} {next next' : α → Parser β}
    (one : comparison.ToEdge parser other)
    (two : ∀ {value value'}, comparison.labels.Same value value' →
      comparison.ToEdge (next value) (next' value')) :
    comparison.ToEdge (parser >>= next) (other >>= next') := by
  have onward : ∀ value, Follows State.Onward (next value) :=
    comparison.labels.forall_of_same fun same => (two same).onward
  refine ⟨one.onward.bind onward, ?_⟩
  intro state state' after result near ok here
  obtain ⟨value, between, first, rest⟩ := bind_eq_ok.mp ok
  have before := not_past_of_onward ((onward value).of_ok rest) here
  obtain ⟨value', between', first', same, near'⟩ := one.exists_ok near first before
  obtain ⟨result', after', rest', sameResult, near''⟩ := (two same).exists_ok near' rest here
  exact ⟨result', after', bind_eq_ok.mpr ⟨value', between', first', rest'⟩, sameResult, near''⟩

theorem bind_eq [Unlabeled α] {parser other : Parser α} {next next' : α → Parser β}
    (one : comparison.ToEdge parser other)
    (two : ∀ value, comparison.ToEdge (next value) (next' value)) :
    comparison.ToEdge (parser >>= next) (other >>= next') := by
  apply one.bind
  intro value value' same
  rw [same.eq]
  exact two value'

theorem ite {condition : Prop} [Decidable condition] {left right left' right' : Parser α}
    (one : comparison.ToEdge left left') (two : comparison.ToEdge right right') :
    comparison.ToEdge (if condition then left else right)
      (if condition then left' else right') := by
  split
  case isTrue => exact one
  case isFalse => exact two

theorem of_ne_ok {parser other : Parser α} (onward : Follows State.Onward parser)
    (fails : ∀ {state value after}, parser state ≠ .ok value after) :
    comparison.ToEdge parser other :=
  ⟨onward, fun _ ok => absurd ok fails⟩

theorem exists_some {parser other : Parser (Option α)} (toEdge : comparison.ToEdge parser other)
    {state state' after : State} {value : α} (near : comparison.Near state state')
    (ok : parser state = .ok (some value) after) (here : ¬ comparison.Past after) :
    ∃ value' after', other state' = .ok (some value') after' ∧
      comparison.labels.Same value value' ∧ comparison.Near after after' := by
  obtain ⟨found, after', ok', same, near'⟩ := toEdge.exists_ok near ok here
  cases found with
  | none => simp at same
  | some value' => exact ⟨value', after', ok', by simpa using same, near'⟩

theorem inScope {visit : Visit} (uniform : visit.Uniform)
    {parser other : Parser α} (toEdge : comparison.ToEdge parser other) :
    comparison.ToEdge (inScope visit parser) (inScope visit other) := by
  have onward := toEdge.onward
  refine ⟨inferInstance, ?_⟩
  intro state state' after value near ok here
  obtain ⟨inner, parsed, rfl⟩ := inScope_eq_ok.mp ok
  have entered := near.withScope (uniform.enter near.scope)
  obtain ⟨value', inner', parsed', same, near'⟩ := toEdge.exists_ok entered parsed here
  exact ⟨value', leave visit state' inner', inScope_eq_ok.mpr ⟨inner', parsed', rfl⟩, same,
    near'.withScope (uniform.leave near.scope near'.scope)⟩

theorem bind_token {next next' : Token → Parser α}
    (onward : Follows State.Onward (token >>= next))
    (shared : ∀ {found found'},
      comparison.inside found.span.start ∧ comparison.inside found.span.stop →
        comparison.labels.Same found found' → comparison.ToEdge (next found) (next' found'))
    (behind : ∀ {state state' after value}, comparison.AtEdge state state' →
      next state.cursor.current state = .ok value after → ¬ comparison.Past after →
        ∃ value' after', next' state'.cursor.current state' = .ok value' after' ∧
          comparison.labels.Same value value' ∧ comparison.Near after after') :
    comparison.ToEdge (token >>= next) (token >>= next') := by
  refine ⟨onward, ?_⟩
  intro state state' after value near ok here
  rcases near with alike | edge
  · have inside := alike.fits.places _ (List.mem_cons_self ..)
    exact (shared inside alike.current).exists_ok (.inl alike) ok here
  · exact behind edge ok here

variable (divides : comparison.Divides)

include divides

theorem of_consumes {parser other : Parser α} (onward : Follows State.Onward parser)
    (consumes : Consumes Always parser)
    (shared : ∀ {state state' after value}, comparison.Alike state state' →
      parser state = .ok value after → ¬ comparison.Past after →
        ∃ value' after', other state' = .ok value' after' ∧
          comparison.labels.Same value value' ∧ comparison.Near after after') :
    comparison.ToEdge parser other := by
  refine ⟨onward, ?_⟩
  intro state state' after value near ok here
  rcases near with alike | edge
  · exact shared alike ok here
  · exact absurd (edge.past divides (consumes.ahead_le ok trivial)) here

theorem bind_related {parser other : Parser α} {next next' : α → Parser β}
    (one : comparison.Related parser other)
    (two : ∀ {value value'}, comparison.labels.Same value value' →
      comparison.ToEdge (next value) (next' value'))
    [consumes : ∀ value, Consumes Always (next value)] :
    comparison.ToEdge (parser >>= next) (other >>= next') := by
  have before := one.onward
  have onward : ∀ value, Follows State.Onward (next value) :=
    comparison.labels.forall_of_same fun same => (two same).onward
  refine of_consumes divides inferInstance inferInstance ?_
  intro state state' after result alike ok here
  obtain ⟨value, between, first, rest⟩ := bind_eq_ok.mp ok
  have among : ¬ comparison.Lost between := by
    have consumed := (consumes value).ahead_le rest trivial
    have two := divides.two_le_length
    unfold Past at here
    unfold Lost
    omega
  obtain ⟨value', between', first', same, alike'⟩ := one.exists_ok alike first among
  obtain ⟨result', after', rest', sameResult, near⟩ :=
    (two same).exists_ok (.inl alike') rest here
  exact ⟨result', after', bind_eq_ok.mpr ⟨value', between', first', rest'⟩, sameResult, near⟩

theorem bind_related_eq [Unlabeled α] {parser other : Parser α} {next next' : α → Parser β}
    (one : comparison.Related parser other)
    (two : ∀ value, comparison.ToEdge (next value) (next' value))
    [∀ value, Consumes Always (next value)] :
    comparison.ToEdge (parser >>= next) (other >>= next') := by
  refine bind_related divides one ?_
  intro value value' same
  rw [same.eq]
  exact two value'

end ToEdge

/-! ## Steps -/

section

variable (divides : comparison.Divides)

include divides

theorem advance_toEdge : comparison.ToEdge advance advance := by
  refine .of_consumes divides inferInstance inferInstance ?_
  intro state state' after found alike ok _
  cases ok
  exact ⟨_, _, rfl, alike.current, alike.near_advanced divides.firstTail_ne_nil⟩

omit divides in
theorem spanFrom_toEdge {start start' : Span} (same : comparison.labels.Same start start') :
    comparison.ToEdge (spanFrom start) (spanFrom start') := by
  refine ⟨inferInstance, ?_⟩
  intro state state' after span near ok _
  cases ok
  exact ⟨_, _, rfl, same.endingAt near.previousEnd, near⟩

theorem atPunctuation_toEdge {mark : Char} (opens : mark ∉ endingMarks) :
    comparison.ToEdge (atPunctuation mark) (atPunctuation mark) := by
  refine ⟨inferInstance, ?_⟩
  intro state state' after found near ok _
  cases ok
  refine ⟨_, _, rfl, ?_, near⟩
  rcases near with alike | edge
  · exact alike.current.isPunctuation_eq mark
  · simp [(edge.endsOperand divides).isPunctuation_eq_false mark opens,
      (edge.endsExpression divides).isPunctuation_eq_false mark opens]

theorem atOperator_toEdge {operator : Operator} (notTest : operator ≠ .instanceOf) :
    comparison.ToEdge (atOperator operator) (atOperator operator) := by
  refine ⟨inferInstance, ?_⟩
  intro state state' after found near ok _
  cases ok
  refine ⟨_, _, rfl, ?_, near⟩
  rcases near with alike | edge
  · exact alike.current.isOperator_eq operator
  · simp [(edge.endsOperand divides).isOperator_eq_false operator notTest,
      (edge.endsExpression divides).isOperator_eq_false operator]

theorem expectPunctuation_toEdge (mark : Char) :
    comparison.ToEdge (expectPunctuation mark) (expectPunctuation mark) :=
  .bind_related_eq divides (atPunctuation_related mark) fun _ =>
    .ite (advance_toEdge divides) (.of_ne_ok inferInstance expected_ne_ok)

theorem expectWord_toEdge : comparison.ToEdge expectWord expectWord := by
  refine .of_consumes divides inferInstance inferInstance ?_
  intro state state' after word alike ok _
  obtain ⟨found, rfl⟩ := expectWord_eq_ok.mp ok
  have found' := found
  rw [alike.current.kind_eq] at found'
  exact ⟨word, _, expectWord_eq_ok.mpr ⟨found', rfl⟩, rfl,
    alike.near_advanced divides.firstTail_ne_nil⟩

theorem listUntil_toEdge {closing : Char} {trailing : Bool} {item item' : Parser α}
    (items : comparison.Loosely item item') :
    comparison.ToEdge (listUntil closing trailing item) (listUntil closing trailing item') := by
  have straight := divides.straight
  have onward := items.onward
  have rest : comparison.Related (collect (listItem closing trailing item))
      (collect (listItem closing trailing item')) :=
    ((listItem_related items (.inl rfl)).tighten straight).collect
  refine .bind_related_eq divides (atPunctuation_related closing) fun _ => .ite ?_ ?_
  · exact (advance_toEdge divides).bind fun _ => .pure rfl
  · refine .bind_related divides (items.tighten straight) fun first => ?_
    refine .bind_related divides rest fun more => ?_
    exact (advance_toEdge divides).bind fun _ => .pure (by simp_all)

/-! ## Repetition -/

omit divides in
theorem clocks_near {state other : State} (near : comparison.Near state other)
    (divides : comparison.Divides) :
    comparison.Clocks state state.cursor.remaining other.cursor.remaining := by
  rcases near with alike | edge
  · exact clocks_remaining alike
  · refine .inr ⟨divides.firstTail_ne_nil, ?_⟩
    have inhabited := List.length_pos_iff.mpr
      (comparison.secondTail_ne_nil divides.firstTail_ne_nil)
    rw [edge.there, edge.ahead_eq]
    omega

variable {step step' : α → Parser (Option α)}
  (rounds : ∀ {value value'}, comparison.labels.Same value value' →
    comparison.ToEdge (step value) (step' value'))
  [consumes : ∀ value, Consumes Continues (step value)]

include rounds consumes

theorem iterateWithin_exists_ok {clock clock' : List Token} {state other after : State}
    {value value' result : α} (same : comparison.labels.Same value value')
    (near : comparison.Near state other) (clocks : comparison.Clocks state clock clock')
    (ok : iterateWithin step clock value state = .ok result after)
    (here : ¬ comparison.Past after) :
    ∃ result' after', iterateWithin step' clock' value' other = .ok result' after' ∧
      comparison.labels.Same result result' ∧ comparison.Near after after' := by
  have onward : ∀ value, Follows State.Onward (step value) :=
    comparison.labels.forall_of_same fun same => (rounds same).onward
  induction clock generalizing state other clock' value value' with
  | nil => exact absurd ok unexpected_ne_ok
  | cons tick clock induction =>
      have two := divides.two_le_length
      have enough := (clocks.resolve_left fun none => divides.firstTail_ne_nil none.1).2
      have before := not_past_of_onward ((Obeys.iterateWithin onward _ _).of_ok ok) here
      obtain ⟨tick', rest, rfl⟩ : ∃ tick' rest, clock' = tick' :: rest := by
        apply List.exists_cons_of_length_pos
        unfold Past at before
        omega
      rcases iterateWithin_cons_eq_ok.mp ok with ⟨last, rfl⟩ | ⟨next, between, round, more⟩
      · obtain ⟨ended, after', last', sameEnd, near'⟩ := (rounds same).exists_ok near last here
        have none : ended = none := by simpa using sameEnd.symm
        subst none
        exact ⟨value', after', iterateWithin_cons_eq_ok.mpr (.inl ⟨last', rfl⟩), same, near'⟩
      · have still := not_past_of_onward ((Obeys.iterateWithin onward _ _).of_ok more) here
        obtain ⟨next', between', round', sameNext, near'⟩ :=
          (rounds same).exists_some near round still
        have consumed := (consumes value).ahead_le round nofun
        have clocks' : comparison.Clocks between clock rest := by
          refine .inr ⟨divides.firstTail_ne_nil, ?_⟩
          unfold Past at still
          simp only [List.length_cons] at enough
          omega
        obtain ⟨result', after', more', sameResult, near''⟩ :=
          induction sameNext near' clocks' more
        exact ⟨result', after',
          iterateWithin_cons_eq_ok.mpr (.inr ⟨next', between', round', more'⟩), sameResult, near''⟩

omit divides in
theorem exists_rounds {state other before : State} {value value' result : α}
    (path : Rounds step value state result before) (same : comparison.labels.Same value value')
    (near : comparison.Near state other) (here : ¬ comparison.Past before) :
    ∃ result' before', Rounds step' value' other result' before' ∧
      comparison.labels.Same result result' ∧ comparison.Near before before' := by
  induction path generalizing other value' with
  | done => exact ⟨value', other, .done _ _, same, near⟩
  | @round value next result state between before first rest induction =>
      have still := not_past_of_onward rest.ahead_le here
      obtain ⟨next', between', first', sameNext, near'⟩ :=
        (rounds same).exists_some near first still
      obtain ⟨result', before', rest', sameResult, near''⟩ := induction sameNext near' here
      exact ⟨result', before', .round first' rest', sameResult, near''⟩

theorem ToEdge.iterate {value value' : α} (same : comparison.labels.Same value value') :
    comparison.ToEdge (iterate step value) (iterate step' value') := by
  have onward : ∀ value, Follows State.Onward (step value) :=
    comparison.labels.forall_of_same fun same => (rounds same).onward
  refine ⟨inferInstance, ?_⟩
  intro state other after result near ok here
  exact iterateWithin_exists_ok divides rounds same near (clocks_near near divides) ok here

end

/-! ## Levels of nesting -/

/-- Nesting productions that make the same of the same tokens, also where an
operand ends with them. -/
structure EdgeLevels (comparison : Comparison) (deeper deeper' : Deeper) : Prop
    extends comparison.Levels deeper deeper' where
  unaryToEdge : ∀ calls, comparison.ToEdge (deeper.unary calls) (deeper'.unary calls)
  atomToEdge : ∀ calls, comparison.ToEdge (deeper.atom calls) (deeper'.atom calls)
  assignmentToEdge : ∀ noIn, comparison.ToEdge (deeper.assignment noIn) (deeper'.assignment noIn)

variable {deeper deeper' : Deeper}

section

variable (divides : comparison.Divides) (levels : comparison.Levels deeper deeper')

include divides levels

/-! ## Functions, lists and objects -/

theorem block_toEdge :
    comparison.ToEdge (block ⟨comparison.first, deeper⟩)
      (block ⟨comparison.second, deeper'⟩) := by
  have onward := levels.onward
  have consumes := levels.consumes
  have statements : comparison.Related (collect (blockItem ⟨comparison.first, deeper⟩))
      (collect (blockItem ⟨comparison.second, deeper'⟩)) := (blockItem_related levels).collect
  refine .bind_related divides (expectPunctuation_related '{') fun _ => ?_
  refine .bind_related divides statements fun same => ?_
  exact (advance_toEdge divides).bind fun _ => .pure same

theorem function_toEdge (named : Bool) {start start' : Span}
    (same : comparison.labels.Same start start') :
    comparison.ToEdge (function ⟨comparison.first, deeper⟩ named start)
      (function ⟨comparison.second, deeper'⟩ named start') := by
  have onward := levels.onward
  have consumes := levels.consumes
  refine .bind_related_eq divides (functionName_related named) fun name => ?_
  refine .bind_related divides (expectPunctuation_related '(') fun _ => ?_
  refine .bind_related_eq divides (listUntil_related (by decide) expectName_related.loosen)
    fun parameters => ?_
  refine (ToEdge.inScope Scope.uniform_inFunction (block_toEdge divides levels)).bind
    fun body => ?_
  exact (spanFrom_toEdge same).bind fun span => .pure (by simp_all)

theorem arguments_toEdge :
    comparison.ToEdge (arguments ⟨comparison.first, deeper⟩)
      (arguments ⟨comparison.second, deeper'⟩) := by
  exact (listUntil_toEdge divides (listedExpression_related levels false)).bind fun same =>
    .pure same.filterMap_id

theorem object_toEdge {opening opening' : Span}
    (same : comparison.labels.Same opening opening') :
    comparison.ToEdge (object ⟨comparison.first, deeper⟩ opening)
      (object ⟨comparison.second, deeper'⟩ opening') := by
  simp only [object, divides.strict_eq]
  refine (listUntil_toEdge divides (objectEntry_related levels)).bind fun entries => ?_
  exact (spanFrom_toEdge same).bind fun span => .pure (by simp_all)

/-- The source of an array literal goes up to the token after it, which may be the one
at which the texts part. -/
theorem array_toEdge {opening opening' : Span}
    (same : comparison.labels.Same opening opening') (begins : comparison.inside opening.stop) :
    comparison.ToEdge (array ⟨comparison.first, deeper⟩ opening)
      (array ⟨comparison.second, deeper'⟩ opening') := by
  simp only [array, scriptArray, bind_assoc, pure_bind, expressionList, divides.strict_eq]
  refine (listUntil_toEdge divides (listedExpression_related levels true)).bind
    fun elements => (spanFrom_toEdge same).bind fun span => ?_
  rcases comparison.dialects_cases with ⟨one, two⟩ | ⟨_, _, _, _, one, two⟩ | ⟨one, _, _, two⟩
  · have none := comparison.labels.arraySource_none
    simp only [one, two]
    exact .pure (by simp_all)
  · simp only [one, two]
    refine ⟨inferInstance, ?_⟩
    intro state state' after expr near ok _
    cases ok
    refine ⟨_, _, rfl, ?_, near⟩
    have place : comparison.inside state.cursor.current.span.start ∧
        comparison.labels.first.position state.cursor.current.span.origin =
          comparison.labels.second.position state'.cursor.current.span.origin := by
      rcases near with alike | edge
      · exact ⟨(alike.fits.places _ (List.mem_cons_self ..)).1, alike.current.span.origin_eq⟩
      · exact edge.places divides
    have sources := comparison.arraySource_some_eq (by simp [one]) near.patches begins
      place.1 same.stop_eq place.2
    simp_all [withArraySource, Cursor.offset, Span.start]
  · exact absurd (crossing_of_eq one two) divides.straight

theorem parenthesizedAtom_toEdge {start start' : Span}
    (same : comparison.labels.Same start start') :
    comparison.ToEdge (parenthesizedAtom ⟨comparison.first, deeper⟩ start)
      (parenthesizedAtom ⟨comparison.second, deeper'⟩ start') := by
  have straight := divides.straight
  have inner := (expression_related levels true false).tighten straight
  refine .bind_related divides inner fun inner => ?_
  refine (expectPunctuation_toEdge divides ')').bind fun _ => ?_
  refine (spanFrom_toEdge same).bind fun span => .pure ?_
  simpa [inner.exprKind] using span

theorem functionAtom_toEdge {start start' : Span} (same : comparison.labels.Same start start') :
    comparison.ToEdge (functionAtom ⟨comparison.first, deeper⟩ start)
      (functionAtom ⟨comparison.second, deeper'⟩ start') := by
  refine (function_toEdge divides levels false same).bind fun function => ?_
  exact (spanFrom_toEdge same).bind fun span => .pure (by simp_all)

/-! ## What follows atoms -/

theorem subscript_toEdge (calls : Bool) {expr expr' : Expr}
    (same : comparison.labels.Same expr expr') :
    comparison.ToEdge (subscript ⟨comparison.first, deeper⟩ calls expr)
      (subscript ⟨comparison.second, deeper'⟩ calls expr') := by
  have straight := divides.straight
  refine (atPunctuation_toEdge divides (by decide)).bind_eq fun _ => .ite ?_ ?_
  · refine (advance_toEdge divides).bind fun _ => (expectWord_toEdge divides).bind_eq
      fun property => ?_
    exact (spanFrom_toEdge same.exprSpan).bind fun span => .pure (by simp_all)
  · refine (atPunctuation_toEdge divides (by decide)).bind_eq fun _ => .ite ?_ ?_
    · refine (advance_toEdge divides).bind fun _ => ?_
      refine .bind_related divides ((expression_related levels true false).tighten straight)
        fun index => ?_
      refine (expectPunctuation_toEdge divides ']').bind fun _ => ?_
      exact (spanFrom_toEdge same.exprSpan).bind fun span => .pure (by simp_all)
    · refine (atPunctuation_toEdge divides (by decide)).bind_eq fun _ => .ite ?_ (.pure rfl)
      refine (advance_toEdge divides).bind fun _ => ?_
      refine (arguments_toEdge divides levels).bind fun arguments => ?_
      exact (spanFrom_toEdge same.exprSpan).bind fun span => .pure (by simp_all)

theorem subscripts_toEdge (calls : Bool) {expr expr' : Expr}
    (same : comparison.labels.Same expr expr') :
    comparison.ToEdge (subscripts ⟨comparison.first, deeper⟩ calls expr)
      (subscripts ⟨comparison.second, deeper'⟩ calls expr') := by
  have onward := levels.onward
  exact .iterate divides (fun same => subscript_toEdge divides levels calls same) same

omit divides levels in
theorem applyUnary_toEdge (operator : Operator) (fixity : Fixity) {operand operand' : Expr}
    {start start' : Span} (same : comparison.labels.Same operand operand')
    (sameStart : comparison.labels.Same start start') :
    comparison.ToEdge (applyUnary operator fixity operand start)
      (applyUnary operator fixity operand' start') := by
  unfold applyUnary
  rw [same.isAssignable_eq]
  refine .ite (.of_ne_ok inferInstance refuseAt_ne_ok) ?_
  exact (spanFrom_toEdge sameStart).bind fun span => .pure (by simp_all)

omit levels in
theorem stepAfter_toEdge {expr expr' : Expr} (same : comparison.labels.Same expr expr') :
    comparison.ToEdge (stepAfter expr) (stepAfter expr') := by
  have whole : Follows State.Onward (stepAfter expr) := inferInstance
  refine .bind_token whole (fun _ found => ?_) ?_
  · rw [found.kind_eq, found.afterLineBreak_eq]
    split
    · refine .ite ?_ (.pure rfl)
      refine (advance_toEdge divides).bind fun _ => (spanFrom_toEdge same.exprSpan).bind
        fun span => ?_
      exact (applyUnary_toEdge _ _ same span).bind fun result => .pure (by simpa using result)
    · exact .pure rfl
  · intro state state' after result edge ok _
    cases ok.symm.trans (stepAfter_of_endsOperand (edge.endsOperand divides) expr)
    exact ⟨none, state', stepAfter_of_ends (edge.endsExpression divides) expr', rfl, .inr edge⟩

end

section

variable (divides : comparison.Divides) (levels : comparison.EdgeLevels deeper deeper')

include divides levels

theorem construction_toEdge {start start' : Span} (same : comparison.labels.Same start start') :
    comparison.ToEdge (construction ⟨comparison.first, deeper⟩ start)
      (construction ⟨comparison.second, deeper'⟩ start') := by
  refine (levels.atomToEdge false).bind fun callee => ?_
  refine (atPunctuation_toEdge divides (by decide)).bind_eq fun _ => .ite ?_ ?_
  · refine (advance_toEdge divides).bind fun _ => ?_
    refine (arguments_toEdge divides levels.toLevels).bind fun arguments => ?_
    exact (spanFrom_toEdge same).bind fun span => .pure (by simp_all)
  · exact (spanFrom_toEdge same).bind fun span => .pure (by simp_all)

theorem bareAtom_toEdge :
    comparison.ToEdge (bareAtom ⟨comparison.first, deeper⟩)
      (bareAtom ⟨comparison.second, deeper'⟩) := by
  have onward := levels.onward
  have consumes := levels.consumes
  have advance := advance_toEdge divides
  have consumed : Consumes Always (bareAtom ⟨comparison.first, deeper⟩) := inferInstance
  have whole : Follows State.Onward (bareAtom ⟨comparison.first, deeper⟩) := inferInstance
  refine .bind_token whole (fun inside same => ?_) ?_
  · rw [same.kind_eq]
    split
    · exact advance.bind fun _ => construction_toEdge divides levels same.span
    · exact advance.bind fun _ => parenthesizedAtom_toEdge divides levels.toLevels same.span
    · exact advance.bind fun _ => array_toEdge divides levels.toLevels same.span inside.2
    · exact advance.bind fun _ => object_toEdge divides levels.toLevels same.span
    · exact advance.bind fun _ => functionAtom_toEdge divides levels.toLevels same.span
    · split
      case h_1 simple =>
          have unlabeled := fun labels => relabel_of_simpleAtom? labels simple
          exact advance.bind fun _ => .pure (by simpa [unlabeled] using same.span)
      case h_2 => exact .of_ne_ok inferInstance unexpected_ne_ok
  · intro state state' after value edge ok here
    exact absurd (edge.past divides (consumed.ahead_le ok trivial)) here

theorem atom_toEdge (calls : Bool) :
    comparison.ToEdge (atom ⟨comparison.first, deeper⟩ calls)
      (atom ⟨comparison.second, deeper'⟩ calls) :=
  (bareAtom_toEdge divides levels).bind fun same =>
    subscripts_toEdge divides levels.toLevels calls same

/-! ## Operators -/

theorem stepped_toEdge (calls : Bool) :
    comparison.ToEdge (stepped ⟨comparison.first, deeper⟩ calls)
      (stepped ⟨comparison.second, deeper'⟩ calls) :=
  (atom_toEdge divides levels calls).bind fun same =>
    .iterate divides (fun same => stepAfter_toEdge divides same) same

theorem unary_toEdge (calls : Bool) :
    comparison.ToEdge (unary ⟨comparison.first, deeper⟩ calls)
      (unary ⟨comparison.second, deeper'⟩ calls) := by
  have onward := levels.onward
  have consumes := levels.consumes
  have consumed : Consumes Always (unary ⟨comparison.first, deeper⟩ calls) := inferInstance
  have whole : Follows State.Onward (unary ⟨comparison.first, deeper⟩ calls) := inferInstance
  refine .bind_token whole (fun _ found => ?_) ?_
  · rw [found.kind_eq]
    split
    · refine .ite ?_ (stepped_toEdge divides levels calls)
      refine (advance_toEdge divides).bind fun _ => (levels.unaryToEdge calls).bind
        fun operand => ?_
      exact applyUnary_toEdge _ _ operand found.span
    · exact stepped_toEdge divides levels calls
  · intro state state' after value edge ok here
    exact absurd (edge.past divides (consumed.ahead_le ok trivial)) here

omit divides levels in
theorem applyBinary_toEdge (operator : Operator) {left left' right right' : Expr}
    (sameLeft : comparison.labels.Same left left')
    (sameRight : comparison.labels.Same right right') :
    comparison.ToEdge (applyBinary ⟨comparison.first, deeper⟩ operator left right)
      (applyBinary ⟨comparison.second, deeper'⟩ operator left' right') := by
  refine ⟨inferInstance, ?_⟩
  intro state state' after expr near ok _
  have spans := sameLeft.exprSpan.through sameRight.exprSpan
  rw [run_applyBinary] at ok ⊢
  cases ok
  refine ⟨_, _, rfl, by simp_all, near.withPatches ?_⟩
  by_cases test : operator = .instanceOf
  · simp only [test, if_true]
    exact comparison.samePatches_append near.patches sameLeft.exprSpan sameRight.exprSpan
  · simpa [test] using near.patches

theorem operatorRound_toEdge (noIn : Bool) (least : Nat)
    {tighter tighter' : Nat → Expr → Parser Expr}
    (toEdge : ∀ precedence {operand operand'}, comparison.labels.Same operand operand' →
      comparison.ToEdge (tighter precedence operand) (tighter' precedence operand'))
    {left left' : Expr} (same : comparison.labels.Same left left') :
    comparison.ToEdge (operatorRound ⟨comparison.first, deeper⟩ noIn least tighter left)
      (operatorRound ⟨comparison.second, deeper'⟩ noIn least tighter' left') := by
  have onward := levels.onward
  have consumes := levels.consumes
  have onwardTighter : ∀ precedence operand, Follows State.Onward (tighter precedence operand) :=
    fun precedence => comparison.labels.forall_of_same fun same => (toEdge precedence same).onward
  have consumed : Consumes Continues
    (operatorRound ⟨comparison.first, deeper⟩ noIn least tighter left) := inferInstance
  have whole : Follows State.Onward
      (operatorRound ⟨comparison.first, deeper⟩ noIn least tighter left) := inferInstance
  refine .bind_token whole (fun {found found'} _ sameFound => ?_) ?_
  · have operators : binaryOperator? noIn least found = binaryOperator? noIn least found' := by
      unfold binaryOperator?
      rw [sameFound.kind_eq]
    rw [operators]
    split
    · exact .pure rfl
    · refine (advance_toEdge divides).bind fun _ => (unary_toEdge divides levels true).bind
        fun operand => ?_
      refine (toEdge _ operand).bind fun right => ?_
      exact (applyBinary_toEdge _ same right).bind fun result => .pure (by simpa using result)
  · intro state state' after result edge ok here
    cases result with
    | some value =>
        exact absurd (edge.past divides (consumed.ahead_le ok (Option.some_ne_none value))) here
    | none =>
        obtain ⟨-, rfl⟩ := operatorRound_eq_none.mp ok
        have notOperator := (edge.endsExpression divides).binaryOperator?_eq_none noIn least
        exact ⟨none, state', operatorRound_eq_none.mpr ⟨notOperator, rfl⟩, rfl, .inr edge⟩

theorem climb_toEdge (noIn : Bool) (room least : Nat) {left left' : Expr}
    (same : comparison.labels.Same left left') :
    comparison.ToEdge (climb ⟨comparison.first, deeper⟩ noIn room least left)
      (climb ⟨comparison.second, deeper'⟩ noIn room least left') := by
  have onward := levels.onward
  induction room generalizing least left left' with
  | zero => exact .pure same
  | succ room induction =>
      have tighter : ∀ precedence operand, Follows State.Onward
          (climb ⟨comparison.first, deeper⟩ noIn room precedence operand) :=
        fun precedence operand => climb_obeys _ noIn room precedence operand
      exact .iterate divides (fun same => operatorRound_toEdge divides levels noIn least
        (fun precedence => induction precedence) same) same

theorem operators_toEdge (noIn : Bool) (least : Nat) {left left' : Expr}
    (same : comparison.labels.Same left left') :
    comparison.ToEdge (operators ⟨comparison.first, deeper⟩ noIn least left)
      (operators ⟨comparison.second, deeper'⟩ noIn least left') :=
  climb_toEdge divides levels noIn _ least same

theorem operation_toEdge (noIn : Bool) :
    comparison.ToEdge (operation ⟨comparison.first, deeper⟩ noIn)
      (operation ⟨comparison.second, deeper'⟩ noIn) :=
  (unary_toEdge divides levels true).bind fun same => operators_toEdge divides levels noIn 0 same

/-! ## Elements and assignments -/

theorem memberBlock_toEdge (declarative : comparison.first.dialect ≠ .script) :
    comparison.ToEdge (memberBlock ⟨comparison.first, deeper⟩)
      (memberBlock ⟨comparison.second, deeper'⟩) := by
  have onward := levels.onward
  refine .bind_related divides (expectPunctuation_related '{') fun _ => ?_
  refine .bind_related divides (levels.members declarative) fun members => ?_
  exact (expectPunctuation_toEdge divides '}').bind fun _ => .pure members

theorem elementOr_toEdge (declarative : comparison.first.dialect ≠ .script) {start start' : Span}
    {expr expr' : Expr} (sameStart : comparison.labels.Same start start')
    (same : comparison.labels.Same expr expr') :
    comparison.ToEdge (elementOr ⟨comparison.first, deeper⟩ start expr)
      (elementOr ⟨comparison.second, deeper'⟩ start' expr') := by
  refine (atPunctuation_toEdge divides (by decide)).bind_eq fun brace => ?_
  rw [same.qualifiedName?_eq]
  split
  · refine (memberBlock_toEdge divides levels declarative).bind fun members => ?_
    exact (spanFrom_toEdge sameStart).bind fun span => .pure (by simp_all)
  · exact .pure same

theorem sequenceItem_toEdge (noIn : Bool) :
    comparison.ToEdge (sequenceItem ⟨comparison.first, deeper⟩ noIn)
      (sequenceItem ⟨comparison.second, deeper'⟩ noIn) := by
  have onward := levels.onward
  have consumes := levels.consumes
  have whole : Follows State.Onward (sequenceItem ⟨comparison.first, deeper⟩ noIn) := inferInstance
  have consumed : Consumes Always (sequenceItem ⟨comparison.first, deeper⟩ noIn) := inferInstance
  refine .bind_token whole (fun _ start => ?_) ?_
  · rcases comparison.dialects_cases with ⟨one, two⟩ | ⟨_, _, _, _, one, two⟩ | ⟨one, _, _, two⟩
    · simp only [one, two]
      exact (levels.assignmentToEdge noIn).bind fun same => .pure same
    · simp only [one, two]
      exact (levels.assignmentToEdge noIn).bind fun same =>
        elementOr_toEdge divides levels (by simp [one]) start.span same
    · exact absurd (crossing_of_eq one two) divides.straight
  · intro state state' after value edge ok here
    exact absurd (edge.past divides (consumed.ahead_le ok trivial)) here

theorem expression_toEdge (noIn : Bool) :
    comparison.ToEdge (expression ⟨comparison.first, deeper⟩ false noIn)
      (expression ⟨comparison.second, deeper'⟩ false noIn) :=
  (sequenceItem_toEdge divides levels noIn).bind fun same => .pure same

theorem conditional_toEdge (noIn : Bool) :
    comparison.ToEdge (conditional ⟨comparison.first, deeper⟩ noIn)
      (conditional ⟨comparison.second, deeper'⟩ noIn) := by
  have onward := levels.onward
  have consumes := levels.consumes
  have inner := (expression_related levels.toLevels false false).tighten divides.straight
  refine (operation_toEdge divides levels noIn).bind fun test => ?_
  refine (atOperator_toEdge divides (by decide)).bind_eq fun _ => .ite ?_ (.pure test)
  refine (advance_toEdge divides).bind fun _ => .bind_related divides inner fun consequent => ?_
  refine (expectPunctuation_toEdge divides ':').bind fun _ => ?_
  refine (expression_toEdge divides levels noIn).bind fun alternate => .pure ?_
  have spans := test.exprSpan.through alternate.exprSpan
  simp_all

theorem assignment_toEdge (noIn : Bool) :
    comparison.ToEdge (assignment ⟨comparison.first, deeper⟩ noIn)
      (assignment ⟨comparison.second, deeper'⟩ noIn) := by
  have onward := levels.onward
  have consumes := levels.consumes
  have whole : Follows State.Onward (assignment ⟨comparison.first, deeper⟩ noIn) := inferInstance
  have consumed : Consumes Always (assignment ⟨comparison.first, deeper⟩ noIn) := inferInstance
  refine .bind_token whole (fun _ start => ?_) ?_
  · refine (conditional_toEdge divides levels noIn).bind fun left => ?_
    refine .bind_token ?_ (fun {found found'} _ same => ?_) ?_
    · refine Obeys.bind inferInstance fun found => ?_
      split <;> infer_instance
    · have operators : assignmentOperator? found = assignmentOperator? found' := by
        unfold assignmentOperator?
        rw [same.kind_eq]
      rw [operators, left.isAssignable_eq]
      split
      · exact .pure left
      · refine .ite ?_ (.of_ne_ok inferInstance refuseAt_ne_ok)
        refine (advance_toEdge divides).bind fun _ => (levels.assignmentToEdge noIn).bind
          fun value => .pure ?_
        have spans := left.exprSpan.through value.exprSpan
        simp_all
    · intro state state' after result edge ok _
      simp only [(edge.endsOperand divides).assignmentOperator?_eq_none] at ok
      cases ok
      refine ⟨_, state', ?_, left, .inr edge⟩
      simp only [assignmentOperator?_of_ends (edge.endsExpression divides)]
      rfl
  · intro state state' after value edge ok here
    exact absurd (edge.past divides (consumed.ahead_le ok trivial)) here

end

theorem edgeLevels_within (divides : comparison.Divides) {room room' : Nat}
    (rooms : comparison.Rooms room room') :
    comparison.EdgeLevels (Deeper.within comparison.first room)
      (Deeper.within comparison.second room') := by
  induction room generalizing room' with
  | zero =>
      refine ⟨levels_within rooms, ?_, ?_, ?_⟩
      all_goals exact fun _ => .of_ne_ok inferInstance refuse_ne_ok
  | succ room induction =>
      obtain ⟨rest, rfl, fewer⟩ := rooms.succ
      have levels := induction fewer
      refine ⟨levels_within rooms, ?_, ?_, ?_⟩
      · exact fun calls => .inScope Scope.uniform_deeper (unary_toEdge divides levels calls)
      · exact fun calls => .inScope Scope.uniform_deeper (atom_toEdge divides levels calls)
      · exact fun noIn => .inScope Scope.uniform_deeper (assignment_toEdge divides levels noIn)

end Comparison

end Qml
