import Qml.Proofs.Comparison.Nesting
import Qml.Proofs.Outline.Document
import Qml.Proofs.Walks

/-! # Patches from before

Kept source is read with the patches that touch it. Those that end before a place
touch nothing that is kept from there on, so what is read from a place does not
depend on the patches behind it. -/

namespace Qml

open Qml.Parser

theorem Patch.effectiveText_eq_of_lt {source : List Char} {place : Nat}
    {patches others own : List Patch} {start stop : Nat}
    (clear : ∀ patch ∈ patches, patch.stop < place) (clear' : ∀ patch ∈ others, patch.stop < place)
    (began : place ≤ start) :
    effectiveText source (patches ++ own) start stop =
      effectiveText source (others ++ own) start stop := by
  rw [effectiveText_append fun patch member => Nat.lt_of_lt_of_le (clear patch member) began,
    effectiveText_append fun patch member => Nat.lt_of_lt_of_le (clear' patch member) began]

def Comparison.earlier (setting : Setting) {place : Nat} {patches others : List Patch}
    (clear : ∀ patch ∈ patches, patch.stop < place)
    (clear' : ∀ patch ∈ others, patch.stop < place) : Comparison where
  first := setting
  second := setting
  labels := .both .identity
  firstTail := []
  secondTail := []
  excused _ := False
  closed := False
  inside found := place ≤ found
  samePatches found found' := ∃ own, found = patches ++ own ∧ found' = others ++ own
  sameSkipped _ _ := True
  strict_of_strict strict := strict
  script_of_script script := script
  arraySource_eq script declarative := absurd script declarative
  excused_of_script script declarative := absurd script declarative
  excused_of_strict strict relaxed := absurd (relaxed.symm.trans strict) Bool.false_ne_true
  excused_of_tail remains _ := Token.false_of_nil remains
  secondTail_eq_nil same := same
  secondTail_ne_nil absurd := absurd
  looksLike absent _ := Token.looksLike_of_nil absent
  samePatches_append := by
    intro found found' left left' right right' ⟨own, same, same'⟩
      (lefts : left = left') (rights : right = right')
    rw [same, same', lefts, rights]
    exact ⟨own ++ setting.testPatches left' right', List.append_assoc .., List.append_assoc ..⟩
  source_eq := by
    rintro - _ _ start _ stop _ ⟨own, rfl, rfl⟩ began - ⟨⟩ ⟨⟩
    rw [Patch.effectiveText_eq_of_lt clear clear' began]
    rfl
  arraySource_some_eq := by
    rintro - _ _ start _ stop _ ⟨own, rfl, rfl⟩ began - ⟨⟩ ⟨⟩
    rw [Patch.effectiveText_eq_of_lt clear clear' began]
    rfl
  sameSkipped_append _ _ _ := trivial

/-- A state that a parse of a text can come to: it stands at a place in the text,
and all patches lie behind. -/
structure State.Reached (text : List Char) (state : State) : Prop where
  inText : state.cursor.Over text
  behind : ∀ patch ∈ state.patches, patch.stop ≤ state.cursor.previousEnd

theorem State.reached_ofText (text : List Char) : (State.ofText text).Reached text :=
  ⟨Cursor.over_ofText text, fun _ absent => absurd absent List.not_mem_nil⟩

theorem State.Reached.ready {text : List Char} {state : State} (reached : state.Reached text)
    (inside : state.cursor.current.isEnd = false) : state.spot.Ready text :=
  ⟨reached.inText.on inside, reached.behind⟩

theorem State.Reached.advanced {text : List Char} {state : State} (reached : state.Reached text)
    (solid : state.cursor.current.isSolid = true) : state.advanced.Reached text :=
  ⟨reached.inText.advance,
    ((reached.ready (Token.isEnd_of_isSolid solid)).reach (.one solid)).behind⟩

/-- Two states at one place in a text that allow the same statements. Their patches
may be different, but all of them lie behind. -/
structure State.Meets (text : List Char) (state other : State) : Prop where
  cursor_eq : other.cursor = state.cursor
  scope : state.scope.Agrees other.scope
  reached : state.Reached text
  reached' : other.Reached text

theorem State.Meets.refl {text : List Char} {state : State} (reached : state.Reached text) :
    state.Meets text state :=
  ⟨rfl, .refl _, reached, reached⟩

theorem State.Meets.patched {text : List Char} {state other : State}
    (meets : state.Meets text other) {own : List Patch}
    (behind : ∀ patch ∈ own, patch.stop ≤ state.cursor.previousEnd) :
    state.Meets text { other with patches := other.patches ++ own } := by
  refine ⟨meets.cursor_eq, meets.scope, meets.reached, meets.reached'.inText, ?_⟩
  intro patch member
  rcases List.mem_append.mp member with earlier | new
  · exact meets.reached'.behind patch earlier
  · rw [← meets.cursor_eq] at behind
    exact behind patch new

namespace Comparison

variable {setting : Setting} {state other after : State}

theorem alike_of_earlier (cursorEq : other.cursor = state.cursor)
    (scope : state.scope.Agrees other.scope) (on : state.cursor.On setting.source)
    (clear : ∀ patch ∈ state.patches, patch.stop < state.cursor.offset)
    (clear' : ∀ patch ∈ other.patches, patch.stop < state.cursor.offset) :
    (earlier setting clear clear').Alike state other := by
  refine ⟨?_, ⟨state.cursor.upcoming, other.cursor.upcoming, (List.append_nil _).symm,
    (List.append_nil _).symm, ?_⟩, ?_, scope, ⟨[], by simp, by simp⟩, trivial, ?_⟩
  · rw [cursorEq]
    rfl
  · rw [cursorEq]
    rfl
  · rw [cursorEq]
    rfl
  · exact ⟨fun crossing => absurd crossing.1 crossing.2,
      fun relaxing => absurd relaxing (not_relaxing rfl), nofun,
      fun token member => on.offset_le_of_mem member⟩

theorem Alike.length_eq {comparison : Comparison} (alike : comparison.Alike state other)
    (whole : comparison.firstTail = []) :
    state.cursor.upcoming.length = other.cursor.upcoming.length := by
  obtain ⟨shared, shared', upcoming, upcoming', same⟩ := alike.upcoming
  have lengths := congrArg List.length same.relabel_eq
  rw [upcoming, upcoming', whole, comparison.secondTail_eq_nil whole]
  simpa using lengths

end Comparison

namespace Grammar

variable {setting : Setting} {room : Nat} {calls : Bool} {state other after : State} {expr : Expr}

theorem unary_read (ready : state.spot.Ready setting.source)
    (ok : (Grammar.within setting room).unary calls state = .ok expr after) :
    expr.outline.Read setting state.spot after.spot :=
  unary_parsed (within_outlined setting room) ok ready

theorem reached_of_unary (reached : state.Reached setting.source)
    (ok : (Grammar.within setting room).unary calls state = .ok expr after) :
    after.Reached setting.source ∧ expr.span.stop = after.cursor.previousEnd := by
  have levels : (Grammar.within setting room).deeper.Follows State.Walks :=
    Deeper.within_obeys setting room
  have walks : Follows State.Walks ((Grammar.within setting room).unary calls) := inferInstance
  have ready := reached.ready (unary_firstToken ok).1
  have read := unary_read ready ok
  have spanEq := read.span_eq
  rw [Expr.outline_span] at spanEq
  exact ⟨⟨(walks.of_ok ok).stays_over reached.inText, (read.ready ready).behind⟩,
    congrArg Span.stop spanEq⟩

/-- The operand behind an operator is read in the same way whatever patches lie
behind. -/
theorem unary_of_meets (meets : state.Meets setting.source other)
    (solid : state.cursor.current.isSolid = true)
    (ok : (Grammar.within setting room).unary calls state.advanced = .ok expr after) :
    ∃ last, (Grammar.within setting room).unary calls other.advanced = .ok expr last ∧
      after.Meets setting.source last := by
  have solid' : other.cursor.current.isSolid = true := meets.cursor_eq ▸ solid
  have ready := meets.reached.ready (Token.isEnd_of_isSolid solid)
  have ready' := meets.reached'.ready (Token.isEnd_of_isSolid solid')
  have begins := ready.reach (.one solid)
  have begins' := ready'.reach (.one solid')
  have cursorEq : other.advanced.cursor = state.advanced.cursor :=
    congrArg Cursor.advance meets.cursor_eq
  have clear : state.advanced.spot.Clear :=
    ready.clear_of_reach (.one solid) (List.cons_ne_nil _ _)
  have clear' : ∀ patch ∈ other.advanced.patches, patch.stop < state.advanced.cursor.offset := by
    rw [← cursorEq]
    exact ready'.clear_of_reach (.one solid') (List.cons_ne_nil _ _)
  have alike := Comparison.alike_of_earlier cursorEq meets.scope begins.on clear clear'
  have related : (Comparison.earlier setting clear clear').Related
      ((Grammar.within setting room).unary calls) ((Grammar.within setting room).unary calls) :=
    Comparison.unary_related (Comparison.levels_within (.inl rfl)) calls
  obtain ⟨expr', last, ok', same, alike'⟩ := related.exists_ok alike ok (Nat.not_lt_zero _)
  obtain rfl : expr = expr' := Labels.Same.expr_eq same
  obtain ⟨used, -, reads⟩ := (unary_read begins ok).moves
  obtain ⟨used', -, reads'⟩ := (unary_read begins' ok').moves
  rw [State.spot_cursor, cursorEq] at reads'
  exact ⟨last, ok', reads'.eq_of_length_eq reads begins.on (alike'.length_eq rfl).symm,
    alike'.scope, (reached_of_unary (meets.reached.advanced solid) ok).1,
    (reached_of_unary (meets.reached'.advanced solid') ok').1⟩

end Grammar

end Qml
