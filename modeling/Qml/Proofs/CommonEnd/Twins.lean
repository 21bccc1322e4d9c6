import Qml.Proofs.Comparison.Carried
import Qml.Proofs.Comparison.Document
import Qml.Proofs.Comparison.Script

/-! # Texts with a common end

Two texts end in the same way, behind beginnings of the same length. Once both parses
have left the beginnings behind, each goes on as a parse of the end alone does, at
places moved by that length. So both come to the same values and to the same faults. -/

namespace Qml

open Qml.Parser

/-! ## The end alone and behind a beginning -/

def Relabeling.shifted (count : Nat) : Relabeling where
  position place := { place with offset := count + place.offset }
  stop place := count + place
  source := id
  arraySource := id

theorem Relabeling.carries_shifted (before rest : List Char) :
    (shifted (Text.byteLength before)).Carries rest (before ++ rest) := by
  refine ⟨fun _ => rfl, ?_, ?_, ?_, fun _ => rfl, fun _ => rfl⟩
  · intro place place'
    simp only [shifted]
    omega
  · exact Text.slice_append_right before rest
  · intro place inside
    rw [Text.byteLength_append]
    exact Nat.add_le_add_left inside _

def Token.movedBack (count : Nat) (token : Token) : Token :=
  { token with
    span := ⟨{ token.span.origin with offset := token.span.start - count },
      token.span.stop - count⟩ }

def Cursor.movedBack (count : Nat) (cursor : Cursor) : Cursor :=
  ⟨cursor.current.movedBack count, cursor.upcoming.map (Token.movedBack count),
    cursor.previousEnd - count⟩

theorem Cursor.remaining_movedBack (count : Nat) (cursor : Cursor) :
    (cursor.movedBack count).remaining = cursor.remaining.map (Token.movedBack count) :=
  rfl

theorem Token.relabel_movedBack {count : Nat} {token : Token} (starts : count ≤ token.span.start)
    (stops : count ≤ token.span.stop) :
    (token.movedBack count).relabel (.shifted count) = token.relabel .identity := by
  have start : count + (token.span.start - count) = token.span.start := Nat.add_sub_cancel' starts
  have stop : count + (token.span.stop - count) = token.span.stop := Nat.add_sub_cancel' stops
  have number : (token.movedBack count).isNumber = token.isNumber := rfl
  unfold Token.relabel
  rw [number]
  simp only [Token.movedBack, Span.relabel, Relabeling.shifted, Relabeling.identity, start, stop]
  rfl

namespace Comparison

theorem nothing_unshared : ([] : List Token) = [] ↔ ([] : List Token) = [] := Iff.rfl

/-- A text alone and the same text behind a beginning. All tokens are shared and no
failure is excused. -/
def behind (options : Options) (before rest : List Char) : Comparison :=
  { carried options (Relabeling.carries_shifted before rest) []
      (fun _ absent => absurd absent List.not_mem_nil) nothing_unshared with
    excused := fun _ => False
    closed := False
    excused_of_script := nofun
    excused_of_strict := fun strict relaxed => absurd (strict.symm.trans relaxed) nofun
    excused_of_tail := fun inhabited => absurd rfl inhabited
    looksLike := fun absent => absurd absent nofun }

variable {options : Options} {before rest : List Char} {α : Type} [Labeled α]

theorem Agrees.behind_cases {outcome other : EStateM.Result Fault State α}
    (agrees : (behind options before rest).Agrees (fun _ => False) outcome other) :
    (∃ value value' state state', outcome = .ok value state ∧ other = .ok value' state' ∧
      Labeled.relabel (.shifted (Text.byteLength before)) value =
        Labeled.relabel .identity value' ∧
      (behind options before rest).Alike state state') ∨
    ∃ fault state state', outcome = .error fault state ∧
      other = .error ⟨fault.cause,
        (Relabeling.shifted (Text.byteLength before)).position fault.position⟩ state' := by
  cases agrees with
  | ok same alike => exact .inl ⟨_, _, _, _, rfl, rfl, same, alike⟩
  | lost lost => exact absurd lost (Nat.not_lt_zero _)
  | atBrace isLoose _ => exact isLoose.elim
  | @error fault fault' state state' causes positions _ =>
      have moved : (Relabeling.shifted (Text.byteLength before)).position fault.position =
          fault'.position := positions
      exact .inr ⟨fault, state, state', rfl, by rw [causes, moved]⟩
  | excused excused => exact excused.elim

theorem alike_of_movedBack {state : State} {scope : Scope}
    (passed : Text.byteLength before ≤ state.cursor.previousEnd)
    (behind : ∀ token ∈ state.cursor.remaining,
      Text.byteLength before ≤ token.span.start ∧ Text.byteLength before ≤ token.span.stop)
    (inside : ∀ token ∈ state.cursor.remaining,
      token.span.start ≤ Text.byteLength (before ++ rest) ∧
        token.span.stop ≤ Text.byteLength (before ++ rest))
    (agrees : scope.Agrees state.scope) (unpatched : state.patches = []) :
    (Comparison.behind options before rest).Alike
      ⟨state.cursor.movedBack (Text.byteLength before), scope, false, [], []⟩ state where
  current :=
    Token.relabel_movedBack (behind _ List.mem_cons_self).1 (behind _ List.mem_cons_self).2
  upcoming := by
    refine ⟨state.cursor.upcoming.map (Token.movedBack (Text.byteLength before)),
      state.cursor.upcoming, (List.append_nil _).symm, (List.append_nil _).symm, ?_⟩
    change List.map _ (List.map _ _) = List.map _ _
    rw [List.map_map]
    apply List.map_congr_left
    intro token member
    have there := behind token (List.mem_cons_of_mem _ member)
    exact Token.relabel_movedBack there.1 there.2
  previousEnd := Nat.add_sub_cancel' passed
  scope := agrees
  patches := by
    rw [unpatched]
    rfl
  skipped := trivial
  fits :=
    { braces := fun crossing => absurd crossing.1 (Dialect.declarative_ne_script _ _)
      jumps := fun relaxing => absurd relaxing (not_relaxing rfl)
      semicolon := False.elim
      places := by
        intro token member
        obtain ⟨found, among, rfl⟩ := List.mem_map.mp (Cursor.remaining_movedBack _ _ ▸ member)
        have there := inside found among
        rw [Text.byteLength_append] at there
        change _ ≤ Text.byteLength rest ∧ _ ≤ Text.byteLength rest
        simp only [Token.movedBack, Span.start] at there ⊢
        omega }

end Comparison

/-! ## Two texts -/

/-- Two texts that end in the same way, behind beginnings of the same length. -/
structure CommonEnd where
  options : Options
  first : List Char
  second : List Char
  rest : List Char
  length_eq : Text.byteLength first = Text.byteLength second

namespace CommonEnd

variable {ends : CommonEnd} {α β γ δ : Type}

/-- Both parses stand where a parse of the end alone does. -/
def Twins (ends : CommonEnd) (state other : State) : Prop :=
  ∃ alone, (Comparison.behind ends.options ends.first ends.rest).Alike alone state ∧
    (Comparison.behind ends.options ends.second ends.rest).Alike alone other

/-- Both parses fail with the same fault, or both succeed with values that have to do
with each other as described. -/
inductive Match (ends : CommonEnd) (described : α → β → Prop) :
    EStateM.Result Fault State α → EStateM.Result Fault State β → Prop
  | ok {value value' state other} : described value value' → ends.Twins state other →
      Match ends described (.ok value state) (.ok value' other)
  | error {fault state other} : Match ends described (.error fault state) (.error fault other)

namespace Twins

variable {state other : State} (twins : ends.Twins state other)

include twins

theorem kind_eq : state.cursor.current.kind = other.cursor.current.kind := by
  obtain ⟨alone, first, second⟩ := twins
  exact first.current.kind_eq.symm.trans second.current.kind_eq

theorem span_eq : state.cursor.current.span = other.cursor.current.span := by
  obtain ⟨alone, first, second⟩ := twins
  have here : alone.cursor.current.span.relabel (.shifted (Text.byteLength ends.first)) =
      state.cursor.current.span := first.current.span
  have there : alone.cursor.current.span.relabel (.shifted (Text.byteLength ends.second)) =
      other.cursor.current.span := second.current.span
  rw [← here, ← there, ends.length_eq]

theorem previousEnd_eq : state.cursor.previousEnd = other.cursor.previousEnd := by
  obtain ⟨alone, first, second⟩ := twins
  have here : Text.byteLength ends.first + alone.cursor.previousEnd =
      state.cursor.previousEnd := first.previousEnd
  have there : Text.byteLength ends.second + alone.cursor.previousEnd =
      other.cursor.previousEnd := second.previousEnd
  rw [← here, ← there, ends.length_eq]

theorem scope : state.scope.Agrees other.scope := by
  obtain ⟨alone, ⟨_, _, _, ⟨functions, loops, labels, keys⟩, _, _, _⟩,
    ⟨_, _, _, ⟨functions', loops', labels', keys'⟩, _, _, _⟩⟩ := twins
  exact ⟨functions.symm.trans functions', loops.symm.trans loops', labels.symm.trans labels',
    keys.symm.trans keys'⟩

theorem rescoped {scope scope' : Scope} (agrees : scope.Agrees scope') :
    ends.Twins { state with scope } { other with scope := scope' } := by
  obtain ⟨alone, first, second⟩ := twins
  exact ⟨{ alone with scope },
    ⟨first.current, first.upcoming, first.previousEnd, .refl scope, first.patches, first.skipped,
      first.fits⟩,
    ⟨second.current, second.upcoming, second.previousEnd, agrees, second.patches, second.skipped,
      second.fits⟩⟩

theorem settled : ends.Twins state.settled other.settled := by
  obtain ⟨alone, first, second⟩ := twins
  exact ⟨alone.settled, first.settled, second.settled⟩

end Twins

/-! ## Steps -/

/-- What is the same for the end alone and for either text is the same for both. -/
theorem match_of_agrees [Labeled α] {alone outcome outcome' : EStateM.Result Fault State α}
    (first : (Comparison.behind ends.options ends.first ends.rest).Agrees (fun _ => False) alone
      outcome)
    (second : (Comparison.behind ends.options ends.second ends.rest).Agrees (fun _ => False) alone
      outcome') : ends.Match (Labels.both .identity).Same outcome outcome' := by
  rcases first.behind_cases with
    ⟨value, left, after, state, rfl, rfl, same, alike⟩ | ⟨fault, after, state, rfl, rfl⟩
  · rcases second.behind_cases with
      ⟨_, right, _, other, same', rfl, moved, alike'⟩ | ⟨_, _, _, impossible, _⟩
    · cases same'
      rw [← ends.length_eq] at moved
      exact .ok (same.symm.trans moved) ⟨after, alike, alike'⟩
    · cases impossible
  · rcases second.behind_cases with
      ⟨_, _, _, _, impossible, _⟩ | ⟨_, _, other, same', rfl⟩
    · cases impossible
    · cases same'
      rw [← ends.length_eq]
      exact .error

theorem match_of_related [Labeled α] {alone parser parser' : Parser α}
    (first : (Comparison.behind ends.options ends.first ends.rest).Related alone parser)
    (second : (Comparison.behind ends.options ends.second ends.rest).Related alone parser')
    {state other : State} (twins : ends.Twins state other) :
    ends.Match (Labels.both .identity).Same (parser state) (parser' other) := by
  obtain ⟨start, here, there⟩ := twins
  exact match_of_agrees (first.agrees here) (second.agrees there)

theorem match_unexpected {described : α → β → Prop} {state other : State}
    (twins : ends.Twins state other) :
    ends.Match described (unexpected state) (unexpected other) := by
  have same : mismatch state.cursor.current none = mismatch other.cursor.current none := by
    unfold mismatch
    rw [twins.kind_eq]
  change ends.Match described
    (.error ⟨mismatch state.cursor.current none, state.cursor.current.span.origin⟩ state)
    (.error ⟨mismatch other.cursor.current none, other.cursor.current.span.origin⟩ other)
  rw [same, twins.span_eq]
  exact .error

theorem match_refuse {described : α → β → Prop} (rule : BrokenRule) {state other : State}
    (same : state.cursor.current.span = other.cursor.current.span) :
    ends.Match described (refuse rule state) (refuse rule other) := by
  change ends.Match described (.error ⟨.broken rule, state.cursor.current.span.origin⟩ state)
    (.error ⟨.broken rule, other.cursor.current.span.origin⟩ other)
  rw [same]
  exact .error

theorem match_spanFrom (start : Span) {state other : State} (twins : ends.Twins state other) :
    ends.Match Eq (spanFrom start state) (spanFrom start other) :=
  .ok (congrArg start.endingAt twins.previousEnd_eq) twins

namespace Match

variable {described : α → β → Prop} {described' : γ → δ → Prop}

theorem bind {parser : Parser α} {parser' : Parser β} {next : α → Parser γ}
    {next' : β → Parser δ} {state other : State}
    (one : ends.Match described (parser state) (parser' other))
    (two : ∀ {value value' after after'}, described value value' → ends.Twins after after' →
      ends.Match described' (next value after) (next' value' after')) :
    ends.Match described' ((parser >>= next) state) ((parser' >>= next') other) := by
  change ends.Match described' (EStateM.bind parser next state) (EStateM.bind parser' next' other)
  unfold EStateM.bind
  generalize parser state = outcome at one
  generalize parser' other = outcome' at one
  cases one with
  | ok holds twins => exact two holds twins
  | error => exact .error

theorem inScope {parser : Parser α} {parser' : Parser β} {visit : Visit}
    (uniform : visit.Uniform) {state other : State} (agrees : state.scope.Agrees other.scope)
    (inside : ends.Match described (parser { state with scope := visit.enter state.scope })
      (parser' { other with scope := visit.enter other.scope })) :
    ends.Match described (inScope visit parser state) (inScope visit parser' other) := by
  unfold Parser.inScope
  generalize parser { state with scope := visit.enter state.scope } = outcome at inside
  generalize parser' { other with scope := visit.enter other.scope } = outcome' at inside
  cases inside with
  | ok holds twins => exact .ok holds (twins.rescoped (uniform.leave agrees twins.scope))
  | error => exact .error

end Match

/-! ## Productions -/

/-- The grammar of a text that ends in the same way, with `room` levels left. -/
def grammarOf (ends : CommonEnd) (before : List Char) (room : Nat) : Grammar :=
  .within (ends.options.grammar (before ++ ends.rest)).toSetting room

theorem declarative (ends : CommonEnd) (before : List Char) :
    (Comparison.behind ends.options before ends.rest).first.dialect ≠ .script :=
  Dialect.declarative_ne_script _ _

theorem levels (ends : CommonEnd) (before : List Char) (room : Nat) :
    (Comparison.behind ends.options before ends.rest).Levels
      (Deeper.within (ends.options.grammar ends.rest).toSetting room)
      (ends.grammarOf before room).deeper :=
  Comparison.levels_within (.inl rfl)

theorem match_of_production [Labeled α] (production : Grammar → Parser α)
    (related : ∀ {comparison : Comparison} {deeper deeper' : Deeper},
      comparison.Levels deeper deeper' → comparison.first.dialect ≠ .script →
        comparison.Related (production ⟨comparison.first, deeper⟩)
          (production ⟨comparison.second, deeper'⟩))
    (room : Nat) {state other : State} (twins : ends.Twins state other) :
    ends.Match (Labels.both .identity).Same
      (production (ends.grammarOf ends.first room) state)
      (production (ends.grammarOf ends.second room) other) :=
  match_of_related (related (ends.levels ends.first room) (ends.declarative ends.first))
    (related (ends.levels ends.second room) (ends.declarative ends.second)) twins

theorem match_scriptItems (room : Nat) {clock clock' : List Token}
    (lengths : clock.length = clock'.length) {state other : State}
    (twins : ends.Twins state other) :
    ends.Match (Labels.both .identity).Same
      (collectWithin (ends.grammarOf ends.first room).scriptItem clock state)
      (collectWithin (ends.grammarOf ends.second room).scriptItem clock' other) := by
  have collected (before : List Char) {clock' : List Token} {alone state : State}
      (lengths : clock.length = clock'.length)
      (alike : (Comparison.behind ends.options before ends.rest).Alike alone state) :
      (Comparison.behind ends.options before ends.rest).Agrees (fun _ => False)
        (collectWithin (Grammar.within (ends.options.grammar ends.rest).toSetting room).scriptItem
          clock alone)
        (collectWithin (ends.grammarOf before room).scriptItem clock' state) := by
    have consumes : (Grammar.within (ends.options.grammar ends.rest).toSetting
        room).deeper.Consumes := (ends.levels before room).consumes
    have rounds : (Comparison.behind ends.options before ends.rest).RelatedUpTo
        (fun result => False ∧ Continues result)
        (Grammar.within (ends.options.grammar ends.rest).toSetting room).scriptItem
        (ends.grammarOf before room).scriptItem :=
      (Comparison.scriptItem_related (ends.levels before room)).loosen
    exact rounds.collectWithin_agrees (fun impossible => impossible.elim) alike
      (.inl ⟨rfl, lengths⟩)
  obtain ⟨start, here, there⟩ := twins
  exact match_of_agrees (collected ends.first rfl here) (collected ends.second lengths there)

/-! ## Where the beginnings end -/

/-- Both parses go on with the same tokens once the beginnings have been consumed. -/
theorem twins_of_cursor {state other : State} (same : state.cursor = other.cursor)
    (passed : Text.byteLength ends.first ≤ state.cursor.previousEnd)
    (behind : ∀ token ∈ state.cursor.remaining,
      Text.byteLength ends.first ≤ token.span.start ∧
        Text.byteLength ends.first ≤ token.span.stop)
    (inside : ∀ token ∈ state.cursor.remaining,
      token.span.start ≤ Text.byteLength (ends.first ++ ends.rest) ∧
        token.span.stop ≤ Text.byteLength (ends.first ++ ends.rest))
    (scope : state.scope.Agrees other.scope) (patches : state.patches = [])
    (patches' : other.patches = []) : ends.Twins state other := by
  refine ⟨⟨state.cursor.movedBack (Text.byteLength ends.first), state.scope, false, [], []⟩,
    Comparison.alike_of_movedBack passed behind inside (.refl _) patches, ?_⟩
  rw [Text.byteLength_append, ends.length_eq, ← Text.byteLength_append] at inside
  rw [ends.length_eq] at behind passed ⊢
  rw [same] at behind inside passed ⊢
  exact Comparison.alike_of_movedBack passed behind inside scope patches'

end CommonEnd

end Qml
