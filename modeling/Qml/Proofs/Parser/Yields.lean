import Qml.Parser.Loop
import Qml.Proofs.Parser.Success

/-! # What parsers return

A property of whatever a parser returns, from what its steps return. Nothing is
said about the states before and after. -/

namespace Qml.Parser

variable {α β : Type} {holds : α → Prop} {holds' : β → Prop}

structure Yields (holds : α → Prop) (parser : Parser α) : Prop where
  of_ok : ∀ {state value after}, parser state = .ok value after → holds value

namespace Yields

theorem pure {value : α} (true : holds value) : Yields holds (pure value) := by
  constructor
  rintro state _ after ⟨⟩
  exact true

theorem pure_none : Yields (∀ value ∈ ·, holds value) (Pure.pure none) :=
  .pure fun _ member => absurd member (Option.not_mem_none _)

theorem pure_nil : Yields (∀ value ∈ ·, holds value) (Pure.pure []) :=
  .pure fun _ member => absurd member List.not_mem_nil

theorem of_ne_ok {parser : Parser α}
    (fails : ∀ {state value after}, parser state ≠ .ok value after) : Yields holds parser :=
  ⟨fun ok => absurd ok fails⟩

theorem mono {wider : α → Prop} {parser : Parser α} (yields : Yields holds parser)
    (wide : ∀ value, holds value → wider value) : Yields wider parser :=
  ⟨fun ok => wide _ (yields.of_ok ok)⟩

theorem bind {parser : Parser α} {next : α → Parser β} (one : Yields holds parser)
    (two : ∀ value, holds value → Yields holds' (next value)) :
    Yields holds' (parser >>= next) := by
  constructor
  intro state result after ok
  obtain ⟨value, between, first, rest⟩ := bind_eq_ok.mp ok
  exact (two value (one.of_ok first)).of_ok rest

theorem bind_any {parser : Parser α} {next : α → Parser β}
    (two : ∀ value, Yields holds' (next value)) : Yields holds' (parser >>= next) := by
  constructor
  intro state result after ok
  obtain ⟨value, between, -, rest⟩ := bind_eq_ok.mp ok
  exact (two value).of_ok rest

theorem ite {condition : Prop} [Decidable condition] {left right : Parser α}
    (one : Yields holds left) (two : Yields holds right) :
    Yields holds (if condition then left else right) := by
  split
  case isTrue => exact one
  case isFalse => exact two

/-- What is built from a span has a property that does not depend on its end. -/
theorem spanned {start : Span} {build : Span → α}
    (held : ∀ stop, holds (build (start.endingAt stop))) :
    Yields holds (spanFrom start >>= fun span => Pure.pure (build span)) := by
  constructor
  rintro state _ after ⟨⟩
  exact held _

theorem inScope {visit : Visit} {parser : Parser α} (yields : Yields holds parser) :
    Yields holds (inScope visit parser) := by
  constructor
  intro state value after ok
  obtain ⟨last, inner, -⟩ := inScope_eq_ok.mp ok
  exact yields.of_ok inner

theorem collect {step : Parser (Option α)} (yields : Yields (∀ value ∈ ·, holds value) step) :
    Yields (∀ value ∈ ·, holds value) (collect step) := by
  constructor
  intro state values after ok
  apply collect_induction (motive := fun _ values _ => ∀ value ∈ values, holds value) _ _ ok
  · intro state after last value member
    cases member
  · intro state value between more after round rest
    exact List.forall_mem_cons.mpr ⟨yields.of_ok round value rfl, rest⟩

theorem iterate {step : α → Parser (Option α)} {start : α} (initially : holds start)
    (kept : ∀ value, holds value → Yields (∀ next ∈ ·, holds next) (step value)) :
    Yields holds (iterate step start) := by
  constructor
  intro state result after ok
  obtain ⟨before, held, -⟩ := iterate_invariant (motive := fun value _ => holds value)
    (fun held round => (kept _ held).of_ok round _ rfl) ok initially
  exact held

theorem listItem {closing : Char} {trailing : Bool} {item : Parser α}
    (yields : Yields holds item) :
    Yields (∀ value ∈ ·, holds value) (listItem closing trailing item) := by
  refine .bind_any fun _ => .ite .pure_none ?_
  refine .bind_any fun _ => .bind_any fun _ => .ite .pure_none ?_
  refine yields.bind fun value true => .pure ?_
  simpa using true

theorem listUntil {closing : Char} {trailing : Bool} {item : Parser α}
    (yields : Yields holds item) :
    Yields (∀ value ∈ ·, holds value) (listUntil closing trailing item) := by
  refine .bind_any fun _ => .ite (.bind_any fun _ => .pure_nil) ?_
  refine yields.bind fun first true => yields.listItem.collect.bind fun more all => ?_
  exact .bind_any fun _ => .pure (List.forall_mem_cons.mpr ⟨true, all⟩)

end Yields

end Qml.Parser
