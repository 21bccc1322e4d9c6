import Qml.Grammar.Expression
import Qml.Proofs.Parser.Yields

/-! # Where expressions begin

An atom, with whatever follows it, begins where its first token does. A parser
that refuses an operand can therefore blame it on that token. -/

namespace Qml

open Qml.Parser

def Expr.BeginsAt (origin : Position) (expr : Expr) : Prop := expr.span.origin = origin

namespace Grammar

variable (grammar : Grammar)

/-! ## Atoms -/

theorem construction_begins (start : Span) :
    Yields (Expr.BeginsAt start.origin) (grammar.construction start) :=
  .bind_any fun _ => .bind_any fun _ => .ite
    (.bind_any fun _ => .bind_any fun _ => .spanned fun _ => rfl) (.spanned fun _ => rfl)

theorem withArraySource_span (source : List Char) (expr : Expr) :
    (withArraySource source expr).span = expr.span := by
  unfold withArraySource
  split <;> rfl

theorem array_begins (opening : Span) :
    Yields (Expr.BeginsAt opening.origin) (grammar.array opening) := by
  constructor
  intro state expr after ok
  obtain ⟨bare, between, bareOk, ok⟩ := bind_eq_ok.mp ok
  have bareYields : Yields (Expr.BeginsAt opening.origin) (grammar.scriptArray opening) :=
    .bind_any fun _ => .spanned fun _ => rfl
  have begins := bareYields.of_ok bareOk
  generalize grammar.dialect = dialect at ok
  cases dialect with
  | script =>
      cases ok
      exact begins
  | declarative helper component =>
      cases ok
      exact (congrArg Span.origin (withArraySource_span _ bare)).trans begins

theorem bareAtom_begins {state after : State} {expr : Expr}
    (ok : grammar.bareAtom state = .ok expr after) :
    expr.BeginsAt state.cursor.current.span.origin := by
  simp only [bareAtom, run_token] at ok
  generalize state.cursor.current.kind = kind at ok
  split at ok
  · exact (Yields.bind_any fun _ => grammar.construction_begins _).of_ok ok
  · refine (Yields.bind_any fun _ => .bind_any fun _ => .bind_any fun _ => ?_).of_ok ok
    exact .spanned fun _ => rfl
  · exact (Yields.bind_any fun _ => grammar.array_begins _).of_ok ok
  · exact (Yields.bind_any fun _ => .bind_any fun _ => .spanned fun _ => rfl).of_ok ok
  · exact (Yields.bind_any fun _ => .bind_any fun _ => .spanned fun _ => rfl).of_ok ok
  · cases found : simpleAtom? kind with
    | some atom =>
        simp only [found] at ok
        cases ok
        rfl
    | none =>
        simp only [found] at ok
        exact absurd ok unexpected_ne_ok

/-! ## What follows an atom -/

def StillBegins (expr : Expr) (next : Option Expr) : Prop :=
  ∀ following ∈ next, following.BeginsAt expr.span.origin

theorem StillBegins.none (expr : Expr) : StillBegins expr none := nofun

theorem StillBegins.some {expr next : Expr} (same : next.span.origin = expr.span.origin) :
    StillBegins expr (some next) := by
  rintro _ ⟨⟩
  exact same

theorem subscript_begins (calls : Bool) (expr : Expr) :
    Yields (StillBegins expr) (grammar.subscript calls expr) :=
  .bind_any fun _ => .ite
    (.bind_any fun _ => .bind_any fun _ => .spanned fun _ => .some rfl)
    (.bind_any fun _ => .ite
      (.bind_any fun _ => .bind_any fun _ => .bind_any fun _ => .spanned fun _ => .some rfl)
      (.bind_any fun _ => .ite
        (.bind_any fun _ => .bind_any fun _ => .spanned fun _ => .some rfl) (.pure (.none expr))))

theorem atom_begins {calls : Bool} {state after : State} {expr : Expr}
    (ok : grammar.atom calls state = .ok expr after) :
    expr.BeginsAt state.cursor.current.span.origin := by
  obtain ⟨bare, between, bareOk, ok⟩ := bind_eq_ok.mp ok
  have begins := grammar.bareAtom_begins bareOk
  obtain ⟨_, kept, -⟩ := iterate_invariant
    (motive := fun current _ => current.BeginsAt state.cursor.current.span.origin)
    (fun held stepped => ((grammar.subscript_begins calls _).of_ok stepped _ rfl).trans held)
    ok begins
  exact kept

theorem applyUnary_begins (operator : Operator) (fixity : Fixity) (operand : Expr) (start : Span) :
    Yields (Expr.BeginsAt start.origin) (applyUnary operator fixity operand start) := by
  exact .ite (.of_ne_ok refuseAt_ne_ok) (.spanned fun _ => rfl)

theorem stepAfter_begins (expr : Expr) : Yields (StillBegins expr) (stepAfter expr) := by
  refine .bind_any fun current => ?_
  split
  · refine .ite (.bind_any fun _ => ⟨?_⟩) (.pure (.none expr))
    intro state value after ok
    rw [run_spanFrom] at ok
    obtain ⟨applied, between, appliedOk, ok⟩ := bind_eq_ok.mp ok
    cases ok
    exact .some ((applyUnary_begins _ _ _ _).of_ok appliedOk)
  · exact .pure (.none expr)

end Grammar

end Qml
