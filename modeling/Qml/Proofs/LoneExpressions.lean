import Qml.Proofs.Comparison.Edge
import Qml.Proofs.EarlierPatches
import Qml.Proofs.Entry
import Qml.Proofs.Options

/-! # Expressions on their own

Some tokens that are read as an expression on their own, with nothing but the end of the
text behind them, are read as the same expression in a text, whichever token ends it
there and whatever was read before. Strictness only changes it where a line break comes
after a word that begins a jump. -/

namespace Qml

open Qml.Parser Qml.Grammar

/-! ## Tokens on their own -/

def Token.endAt (place : Position) : Token := ⟨.endOfInput, ⟨place, place.offset⟩, false, ""⟩

def Token.ends (place : Position) : List Token := [.endAt place, .endAt place]

def State.ofTokens (scope : Scope) (tokens : List Token) : State :=
  ⟨.ofTokens tokens, scope, false, [], []⟩

/-- On their own, in a text that ends at `stop`, all of the tokens are read as one
expression that is not a sequence. -/
def Grammar.ReadsWhole (grammar : Grammar) (scope : Scope) (used : List Token) (stop : Position)
    (expr : Expr) : Prop :=
  ∃ after, grammar.expression false false (.ofTokens scope (used ++ Token.ends stop)) =
    .ok expr after ∧ after.cursor.remaining = Token.ends stop

def Grammar.wholeExpression? (grammar : Grammar) (scope : Scope) (used : List Token)
    (stop : Position) : Option Expr :=
  match grammar.expression false false (.ofTokens scope (used ++ Token.ends stop)) with
  | .ok expr after => if after.cursor.remaining = Token.ends stop then some expr else none
  | _ => none

theorem Grammar.readsWhole_iff {grammar : Grammar} {scope : Scope} {used : List Token}
    {stop : Position} {expr : Expr} :
    grammar.ReadsWhole scope used stop expr ↔
      grammar.wholeExpression? scope used stop = some expr := by
  unfold ReadsWhole wholeExpression?
  cases grammar.expression false false (.ofTokens scope (used ++ Token.ends stop)) with
  | ok found after => simp [and_comm, eq_comm]
  | error fault after => simp

theorem Cursor.remaining_ofTokens {tokens : List Token} (inhabited : tokens ≠ []) :
    (Cursor.ofTokens tokens).remaining = tokens := by
  cases tokens with
  | nil => exact absurd rfl inhabited
  | cons first rest => rfl

theorem JumpsOnSameLine.append_ends {used : List Token} (joined : JumpsOnSameLine used)
    (stop : Position) : JumpsOnSameLine (used ++ Token.ends stop) := by
  refine List.isChain_append.mpr ⟨joined, ?_, ?_⟩
  · exact .cons_cons (fun _ broken => absurd broken Bool.false_ne_true) (.singleton _)
  · intro last _ first isFirst _ broken
    cases isFirst
    cases broken

/-! ## Walks -/

namespace Cursor

theorem further_upcoming (count : Nat) (cursor : Cursor) :
    (cursor.further count).upcoming = cursor.upcoming.drop count := by
  induction count generalizing cursor with
  | zero => rfl
  | succ count induction => rw [further, induction, Cursor.advance, List.drop_tail]

theorem remaining_further {count : Nat} {cursor : Cursor}
    (inside : count ≤ cursor.upcoming.length) :
    (cursor.further count).remaining = cursor.remaining.drop count := by
  induction count generalizing cursor with
  | zero => rfl
  | succ count induction =>
      obtain ⟨next, rest, upcoming⟩ := List.exists_cons_of_length_pos (Nat.zero_lt_of_lt inside)
      have advanced : cursor.advance.remaining = cursor.upcoming := by
        simp [remaining, Cursor.advance, peek, upcoming]
      have fewer : count ≤ cursor.advance.upcoming.length := by
        simp only [Cursor.advance, upcoming, List.tail_cons]
        simpa [upcoming] using inside
      rw [further, induction fewer, advanced]
      rfl

end Cursor

/-- Where a walk ends before the end, what remains is known by how many tokens these are. -/
theorem State.Walks.remaining_eq {before after : State} (walks : before.Walks after)
    {front back : List Token} (whole : before.cursor.remaining = front ++ back)
    (lengths : after.cursor.remaining.length = back.length) (inside : after.cursor.upcoming ≠ []) :
    after.cursor.remaining = back := by
  obtain ⟨count, cursorEq⟩ := walks
  have bounded : count ≤ before.cursor.upcoming.length := by
    rw [cursorEq, Cursor.further_upcoming] at inside
    exact Nat.le_of_lt (Nat.lt_of_not_le fun beyond => inside (List.drop_of_length_le beyond))
  rw [cursorEq, Cursor.remaining_further bounded] at lengths ⊢
  have parts : before.cursor.remaining.take count ++ before.cursor.remaining.drop count =
      front ++ back := by
    rw [List.take_append_drop, whole]
  exact (List.append_inj' parts lengths).2

namespace Grammar

variable {setting : Setting} {room : Nat} {scope : Scope} {used : List Token} {stop : Position}
  {expr : Expr} {state after : State}

theorem ReadsWhole.exists_cons (whole : (within setting room).ReadsWhole scope used stop expr) :
    ∃ first more, used = first :: more ∧ first.BeginsOperand := by
  obtain ⟨after, ok, -⟩ := whole
  have begins := expression_firstToken Comparison.assignment_firstToken_within ok
  cases used with
  | nil => cases begins.1
  | cons first more => exact ⟨first, more, rfl, begins⟩

theorem expression_walks (setting : Setting) (room : Nat) :
    Follows State.Walks ((within setting room).expression false false) := by
  have walking : (within setting room).deeper.Follows State.Walks :=
    Deeper.within_obeys setting room
  infer_instance

/-! ## Strictness -/

theorem ReadsWhole.relaxed (whole : (within setting room).ReadsWhole scope used stop expr)
    (joined : JumpsOnSameLine used) :
    (within { setting with strict := false } room).ReadsWhole scope used stop expr := by
  obtain ⟨after, ok, rest⟩ := whole
  let state := State.ofTokens scope (used ++ Token.ends stop)
  let comparison := Comparison.verbatim setting false (fun _ => True) (absurd · Bool.false_ne_true)
    fun _ _ _ => trivial
  have here : state.cursor.remaining = used ++ Token.ends stop :=
    Cursor.remaining_ofTokens (by simp [Token.ends])
  have alike : comparison.Alike state state := by
    refine ⟨rfl, ⟨_, _, (List.append_nil _).symm, (List.append_nil _).symm, rfl⟩, rfl, .refl _, rfl,
      rfl, fun crossing => absurd crossing.1 crossing.2, fun _ => ?_, nofun,
      fun _ _ => ⟨trivial, trivial⟩⟩
    rw [here]
    exact joined.append_ends stop
  have related : comparison.Related ((within setting room).expression false false)
      ((within { setting with strict := false } room).expression false false) :=
    (Comparison.expression_related (Comparison.levels_within (.inl rfl)) false false).tighten
      fun crossing => crossing.2 crossing.1
  obtain ⟨expr', after', ok', same, alike'⟩ := related.exists_ok alike ok (Nat.not_lt_zero _)
  obtain rfl : expr = expr' := Labels.Same.expr_eq same
  have left : after'.cursor.upcoming.length = 1 := by
    rw [← alike'.length_eq rfl, (List.cons.inj rest).2]
    rfl
  have remaining := ((expression_walks _ room).of_ok ok').remaining_eq here (congrArg Nat.succ left)
    (List.length_pos_iff.mp (by omega))
  exact ⟨after', ok', remaining⟩

end Grammar

/-! ## In a text -/

theorem Token.EndsExpression.looksLike {token other : Token} (one : token.EndsExpression)
    (two : other.EndsExpression) : token.LooksLike other := by
  have plain : ∀ {token : Token}, token.EndsExpression →
      (∀ text, token.isName text = false) ∧ token.isPunctuation ':' = false ∧
        token.isString = false := by
    intro token ends
    refine ⟨fun text => ?_, ends.isPunctuation_eq_false ':' (by decide), ?_⟩ <;>
      rcases ends with kind | ⟨mark, -, kind⟩ <;> simp [isName, isString, kind]
  obtain ⟨names, colon, string⟩ := plain one
  obtain ⟨names', colon', string'⟩ := plain two
  exact ⟨fun text => (names text).trans (names' text).symm, colon.trans colon'.symm,
    string.trans string'.symm⟩

/-- A state in a text and in a context, where no patch comes near what is to come. -/
structure State.Fresh (text : List Char) (scope : Scope) (state : State) : Prop where
  reached : state.Reached text
  clear : state.spot.Clear
  scope_eq : state.scope = scope

theorem State.Reached.fresh {text : List Char} {state : State} (reached : state.Reached text)
    (solid : state.cursor.current.isSolid = true) : state.advanced.Fresh text state.scope :=
  ⟨reached.advanced solid,
    (reached.ready (Token.isEnd_of_isSolid solid)).clear_of_reach (.one solid)
      (List.cons_ne_nil _ _), rfl⟩

/-- Some tokens on their own, compared with the same tokens in a text where another token
ends the expression. -/
def Comparison.inText (setting : Setting) {place : Nat} {patches : List Patch}
    (clear : ∀ patch ∈ patches, patch.stop < place) (stop : Position) {mark : Token}
    (ends : mark.EndsExpression) (following : List Token) : Comparison :=
  { Comparison.earlier setting (fun _ absent => absurd absent List.not_mem_nil) clear with
    firstTail := Token.ends stop
    secondTail := mark :: following
    excused := fun _ => True
    excused_of_script := fun _ _ _ => trivial
    excused_of_strict := fun _ _ _ => trivial
    excused_of_tail := fun _ _ => trivial
    secondTail_eq_nil := nofun
    secondTail_ne_nil := fun _ => List.cons_ne_nil _ _
    looksLike := by
      intro token other rest more same same'
      rw [← (List.cons.inj same).1, ← (List.cons.inj same').1]
      exact .inr ((Token.EndsExpression.of_end rfl).looksLike ends) }

section

variable {setting : Setting} {scope : Scope} {state : State} {stop : Position}
  {first mark next : Token} {more following : List Token}

theorem Comparison.inText_divides {place : Nat} {patches : List Patch}
    (clear : ∀ patch ∈ patches, patch.stop < place) (ends : mark.EndsExpression)
    (origin : mark.span.origin = stop) (behind : place ≤ stop.offset) :
    (Comparison.inText setting clear stop ends (next :: following)).Divides := by
  refine ⟨rfl, fun crossing => crossing.2 crossing.1, ⟨_, _, [], rfl, .inr (.of_end rfl)⟩,
    ⟨mark, next, following, rfl, ends⟩, ?_⟩
  intro token rest other more same same'
  rw [← (List.cons.inj same).1, ← (List.cons.inj same').1]
  exact ⟨behind, origin.symm⟩

theorem Comparison.alike_inText (fresh : state.Fresh setting.source scope)
    (ahead : state.cursor.remaining = first :: more ++ mark :: next :: following)
    (inside : first.isEnd = false) (ends : mark.EndsExpression)
    (behind : state.cursor.offset ≤ stop.offset) :
    (Comparison.inText setting fresh.clear stop ends (next :: following)).Alike
      ((State.ofTokens scope (first :: more ++ Token.ends stop)).enteredAfter
        first.afterLineBreak state.cursor.previousEnd) state := by
  obtain ⟨current, upcoming⟩ := List.cons.inj ahead
  have on := (fresh.reached.ready (current ▸ inside)).on
  refine ⟨by rw [current]; rfl, ⟨more, more, rfl, upcoming, rfl⟩, rfl, ?_, ⟨[], rfl, by simp⟩,
    trivial, fun crossing => absurd crossing.1 crossing.2,
    fun relaxing => absurd relaxing (Comparison.not_relaxing rfl), nofun, ?_⟩
  · rw [fresh.scope_eq]
    exact .refl scope
  · intro token member
    have among : token ∈ (first :: more) ++ Token.ends stop := member
    rcases List.mem_append.mp among with shared | atEnd
    · exact on.offset_le_of_mem (ahead ▸ List.mem_append_left _ shared)
    · have isEnd : token = .endAt stop := by simpa [Token.ends] using atEnd
      exact isEnd ▸ ⟨behind, behind⟩

end

namespace Grammar

variable {setting : Setting} {room : Nat} {scope : Scope} {used : List Token} {stop : Position}
  {expr : Expr} {state after : State}

theorem reached_of_expression (reached : state.Reached setting.source)
    (ok : (within setting room).expression false false state = .ok expr after) :
    after.Reached setting.source ∧ after.scope = state.scope := by
  have keeping : (within setting room).deeper.KeepsScope := Deeper.within_keepsScope setting room
  have begins := expression_firstToken Comparison.assignment_firstToken_within ok
  have ready := reached.ready begins.1
  have read := expression_parsed (within_outlined setting room) ok ready
  have walks := (expression_walks setting room).of_ok ok
  exact ⟨⟨walks.stays_over reached.inText, (read.ready ready).behind⟩, scope_of_ok ok⟩

/-- What some tokens are read as on their own they are read as in a text, before any
token that ends an expression, provided that it begins where the tokens end on their
own. -/
theorem ReadsWhole.in_text (whole : (within setting room).ReadsWhole scope used stop expr)
    (fresh : state.Fresh setting.source scope) {mark next : Token} {following : List Token}
    (ahead : state.cursor.remaining = used ++ mark :: next :: following)
    (ends : mark.EndsExpression) (place : mark.span.origin = stop) :
    ∃ after, (within setting room).expression false false state = .ok expr after ∧
      after.cursor.remaining = mark :: next :: following ∧ after.Reached setting.source ∧
      after.scope = scope := by
  obtain ⟨first, more, rfl, begins⟩ := whole.exists_cons
  obtain ⟨after, ok, rest⟩ := whole
  have inside : state.cursor.current.isEnd = false := (List.cons.inj ahead).1 ▸ begins.1
  have behind : state.cursor.offset ≤ stop.offset := by
    have isAhead : mark ∈ state.cursor.remaining := by simp [ahead]
    exact place ▸ ((fresh.reached.ready inside).on.offset_le_of_mem isAhead).1
  let comparison := Comparison.inText setting fresh.clear stop ends (next :: following)
  have entering : (within setting room).deeper.Enters := Deeper.within_enters setting room
  have entered := Enters.ok ok first.afterLineBreak state.cursor.previousEnd
  have alike := Comparison.alike_inText fresh ahead begins.1 ends behind
  have divides : comparison.Divides := Comparison.inText_divides fresh.clear ends place behind
  have rooms : comparison.Rooms room room := .inl rfl
  have levels := Comparison.edgeLevels_within divides rooms
  have here : ¬ comparison.Past after := by
    unfold Comparison.Past State.ahead
    rw [(List.cons.inj rest).2]
    exact Nat.lt_irrefl _
  obtain ⟨expr', after', ok', same, near⟩ :=
    (Comparison.expression_toEdge divides levels false).exists_ok (.inl alike) entered here
  obtain rfl : expr = expr' := Labels.Same.expr_eq same
  have edge : comparison.AtEdge after after' := by
    refine near.resolve_left fun alike => ?_
    obtain ⟨shared, -, upcoming, -⟩ := alike.upcoming
    have lengths := congrArg List.length ((List.cons.inj rest).2.symm.trans upcoming)
    simp [comparison, Comparison.inText, Token.ends] at lengths
  obtain ⟨reached, scopeEq⟩ := reached_of_expression fresh.reached ok'
  exact ⟨after', ok', edge.there, reached, scopeEq.trans fresh.scope_eq⟩

end Grammar

end Qml
