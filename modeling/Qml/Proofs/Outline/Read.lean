import Qml.Grammar.Expression
import Qml.Proofs.Outline.Basic
import Qml.Proofs.Parser.Path
import Qml.Proofs.Parser.Success

/-! # What was read between two places

An outline is read between two spots of a parse: its span reaches from the first
to the second, its children are read one after the other in between, and the
patches made on the way are those of its tests with `instanceof`. The source
that is kept for a node is the text between the spots as the patches had it read
at the end, and no earlier patch comes near it.

Every production is described by such a reading, so this is all that later
results need to know about the grammar. -/

namespace Qml

/-- The part of a parser's state that decides where nodes lie and what their
source is. -/
structure Spot where
  cursor : Cursor
  patches : List Patch

def State.spot (state : State) : Spot := ⟨state.cursor, state.patches⟩

def Spot.advanced (spot : Spot) : Spot := ⟨spot.cursor.advance, spot.patches⟩

@[simp] theorem State.advanced_spot (state : State) :
    state.advanced.spot = state.spot.advanced := rfl

@[simp] theorem State.spot_cursor (state : State) : state.spot.cursor = state.cursor := rfl

@[simp] theorem State.spot_patches (state : State) : state.spot.patches = state.patches := rfl

namespace Spot

/-- From one spot to another over some tokens, without a new patch. -/
def Reach (before : Spot) (used : List Token) (after : Spot) : Prop :=
  before.cursor.Reads used after.cursor ∧ after.patches = before.patches

def Moves (before after : Spot) : Prop :=
  ∃ used, used ≠ [] ∧ before.cursor.Reads used after.cursor

/-- No patch comes near the current token. -/
def Clear (spot : Spot) : Prop := ∀ patch ∈ spot.patches, patch.stop < spot.cursor.offset

/-- A spot on the tokens of a text at which all patches lie behind. -/
structure Ready (text : List Char) (spot : Spot) : Prop where
  on : spot.cursor.On text
  behind : ∀ patch ∈ spot.patches, patch.stop ≤ spot.cursor.previousEnd

def spanTo (before after : Spot) : Span :=
  ⟨before.cursor.current.span.origin, after.cursor.previousEnd⟩

theorem Reach.refl (spot : Spot) : spot.Reach [] spot := ⟨.done _, rfl⟩

theorem Reach.one {spot : Spot} (solid : spot.cursor.current.isSolid = true) :
    spot.Reach [spot.cursor.current] spot.advanced := ⟨.one solid, rfl⟩

theorem Reach.trans {first middle last : Spot} {used more : List Token}
    (one : first.Reach used middle) (two : middle.Reach more last) :
    first.Reach (used ++ more) last :=
  ⟨one.1.append two.1, two.2.trans one.2⟩

theorem Moves.one {spot : Spot} (solid : spot.cursor.current.isSolid = true) :
    spot.Moves spot.advanced := ⟨_, List.cons_ne_nil _ _, .one solid⟩

theorem Moves.append_right {first middle last : Spot} {used : List Token}
    (moves : first.Moves middle) (reads : middle.cursor.Reads used last.cursor) :
    first.Moves last := by
  obtain ⟨consumed, moved, path⟩ := moves
  exact ⟨consumed ++ used, by simp [moved], path.append reads⟩

theorem Moves.append_left {first middle last : Spot} {used : List Token}
    (reads : first.cursor.Reads used middle.cursor) (moves : middle.Moves last) :
    first.Moves last := by
  obtain ⟨consumed, moved, path⟩ := moves
  exact ⟨used ++ consumed, by simp [moved], reads.append path⟩

namespace Ready

variable {text : List Char} {first last : Spot} {used : List Token}

theorem reach (ready : first.Ready text) (reach : first.Reach used last) : last.Ready text := by
  refine ⟨reach.1.on ready.on, ?_⟩
  intro patch member
  rw [reach.2] at member
  exact Nat.le_trans (ready.behind patch member) (reach.1.previousEnd_le ready.on)

theorem clear_of_reach (ready : first.Ready text) (reach : first.Reach used last)
    (moved : used ≠ []) : last.Clear := by
  intro patch member
  rw [reach.2] at member
  have behind := ready.behind patch member
  have before := ready.on.previousEnd_le_offset
  have passed := reach.1.offset_lt_previousEnd ready.on moved
  have after := (ready.reach reach).on.previousEnd_le_offset
  omega

theorem clear_of_lineBreak (ready : first.Ready text)
    (broken : first.cursor.current.afterLineBreak = true) : first.Clear := by
  intro patch member
  exact Nat.lt_of_le_of_lt (ready.behind patch member) (ready.on.previousEnd_lt_offset broken)

end Ready

end Spot

def NodeForm.patches (setting : Setting) : NodeForm → List Outline → List Patch
  | .instanceTest, [left, right] =>
    match setting.dialect with
    | .script => []
    | .declarative helper component =>
      [Grammar.instancePatch setting.source helper component left.span right.span]
  | _, _ => []

/-- The source of an array literal, which may stand in parentheses. It begins
with the bracket and ends before the token that follows the closing one, and the
elements lie between the brackets. -/
structure ArraySource (setting : Setting) (before after : Spot) (children : List Outline)
    (source : String) where
  opens : List Token
  opening : Token
  inside : List Token
  closing : Token
  closes : List Token
  reads : before.cursor.Reads (opens ++ opening :: (inside ++ closing :: closes)) after.cursor
  opens_eq : ∀ token ∈ opens, token.isPunctuation '(' = true
  opening_eq : opening.isPunctuation '[' = true
  closing_eq : closing.isPunctuation ']' = true
  closes_eq : ∀ token ∈ closes, token.isPunctuation ')' = true
  children_inside : ∀ child ∈ children,
    opening.span.stop ≤ child.span.start ∧ child.span.stop ≤ closing.span.start
  source_eq : source = String.ofList ('[' :: Patch.effectiveText setting.source after.patches
    opening.span.stop (closes.headD after.cursor.current).span.start)

def SourceFits (setting : Setting) (before after : Spot) (children : List Outline) :
    NodeForm → Option String → Prop
  | .array, none => setting.dialect = .script
  | .array, some source =>
    setting.dialect ≠ .script ∧ Nonempty (ArraySource setting before after children source)
  | _, none => True
  | _, some source =>
    before.Clear ∧
      source = String.ofList (Patch.effectiveText setting.source after.patches
        before.cursor.offset after.cursor.offset)

namespace Outline

mutual

/-- The outline is what was read between two spots. -/
def Read (setting : Setting) : Outline → Spot → Spot → Prop
  | .node form span source children, before, after =>
    ∃ inner, AllRead setting children before inner ∧
      after = ⟨inner.cursor, inner.patches ++ form.patches setting children⟩ ∧
      before.Moves after ∧ span = before.spanTo after ∧
      SourceFits setting before after children form source

/-- The outlines were read in order between two spots, with other tokens before,
between and after them. -/
def AllRead (setting : Setting) : List Outline → Spot → Spot → Prop
  | [], before, after => ∃ used, before.Reach used after
  | outline :: more, before, after =>
    ∃ used start stop, before.Reach used start ∧ outline.Read setting start stop ∧
      AllRead setting more stop after

end

variable {setting : Setting} {first middle last : Spot} {outlines more : List Outline}

/-! ## Composition -/

theorem AllRead.none {used : List Token} (reach : first.Reach used last) :
    AllRead setting [] first last := ⟨used, reach⟩

theorem AllRead.after_reach {used : List Token} (reach : first.Reach used middle)
    (read : AllRead setting outlines middle last) : AllRead setting outlines first last := by
  cases outlines with
  | nil =>
      obtain ⟨rest, reach'⟩ := read
      exact ⟨_, reach.trans reach'⟩
  | cons outline outlines =>
      obtain ⟨rest, start, stop, reach', read, tail⟩ := read
      exact ⟨_, start, stop, reach.trans reach', read, tail⟩

theorem AllRead.append (one : AllRead setting outlines first middle)
    (two : AllRead setting more middle last) : AllRead setting (outlines ++ more) first last := by
  induction outlines generalizing first with
  | nil =>
      obtain ⟨used, reach⟩ := one
      exact two.after_reach reach
  | cons outline outlines induction =>
      obtain ⟨used, start, stop, reach, read, tail⟩ := one
      exact ⟨used, start, stop, reach, read, induction tail⟩

theorem AllRead.then_reach {used : List Token} (read : AllRead setting outlines first middle)
    (reach : middle.Reach used last) : AllRead setting outlines first last := by
  have whole := read.append (AllRead.none reach)
  rwa [List.append_nil] at whole

theorem Read.cons {outline : Outline} (read : outline.Read setting first middle)
    (tail : AllRead setting outlines middle last) :
    AllRead setting (outline :: outlines) first last :=
  ⟨[], first, middle, .refl first, read, tail⟩

theorem Read.alone {outline : Outline} (read : outline.Read setting first last) :
    AllRead setting [outline] first last :=
  read.cons (.none (.refl last))

/-! ## Movement -/

theorem Read.moves {outline : Outline} (read : outline.Read setting first last) :
    first.Moves last := by
  cases outline with
  | node form span source children =>
      obtain ⟨inner, -, -, moves, -⟩ := read
      exact moves

theorem Read.span_eq {outline : Outline} (read : outline.Read setting first last) :
    outline.span = first.spanTo last := by
  cases outline with
  | node form span source children =>
      obtain ⟨inner, -, -, -, spanEq, -⟩ := read
      exact spanEq

theorem AllRead.reads (read : AllRead setting outlines first last) :
    ∃ used, first.cursor.Reads used last.cursor := by
  induction outlines generalizing first with
  | nil =>
      obtain ⟨used, reach⟩ := read
      exact ⟨used, reach.1⟩
  | cons outline outlines induction =>
      obtain ⟨used, start, stop, reach, read, tail⟩ := read
      obtain ⟨consumed, -, path⟩ := read.moves
      obtain ⟨rest, path'⟩ := induction tail
      exact ⟨_, (reach.1.append path).append path'⟩

theorem AllRead.moves {outline : Outline}
    (read : AllRead setting (outline :: outlines) first last) :
    first.Moves last := by
  obtain ⟨used, start, stop, reach, read, tail⟩ := read
  obtain ⟨rest, path⟩ := tail.reads
  exact (read.moves.append_left reach.1).append_right path

/-! ## Patches -/

/-- A patch of a node ends where one of its children ends. -/
theorem exists_stop_of_mem_patches {form : NodeForm} {children : List Outline} {patch : Patch}
    (member : patch ∈ form.patches setting children) :
    ∃ child ∈ children, patch.stop = child.span.stop := by
  unfold NodeForm.patches at member
  split at member
  · split at member
    · simp at member
    · rw [List.mem_singleton.mp member]
      exact ⟨_, List.mem_cons_of_mem _ (List.mem_cons_self ..), rfl⟩
  · simp at member

theorem AllRead.child_stop_le {child : Outline} {text : List Char}
    (read : AllRead setting outlines first last) (on : first.cursor.On text)
    (member : child ∈ outlines) : child.span.stop ≤ last.cursor.previousEnd := by
  induction outlines generalizing first with
  | nil => cases member
  | cons outline outlines induction =>
      obtain ⟨used, start, stop, reach, read, tail⟩ := read
      obtain ⟨consumed, -, path⟩ := read.moves
      have onStop := path.on (reach.1.on on)
      rcases List.mem_cons.mp member with rfl | later
      · obtain ⟨rest, path'⟩ := tail.reads
        rw [read.span_eq]
        exact path'.previousEnd_le onStop
      · exact induction tail onStop later

theorem AllRead.le_child_start {child : Outline} {text : List Char}
    (read : AllRead setting outlines first last) (on : first.cursor.On text)
    (member : child ∈ outlines) : first.cursor.offset ≤ child.span.start := by
  induction outlines generalizing first with
  | nil => cases member
  | cons outline outlines induction =>
      obtain ⟨used, start, stop, reach, read, tail⟩ := read
      have before := reach.1.offset_le on
      rcases List.mem_cons.mp member with rfl | later
      · rw [read.span_eq]
        exact before
      · obtain ⟨consumed, -, path⟩ := read.moves
        have onStart := reach.1.on on
        have between := path.offset_le onStart
        have after := induction tail (path.on onStart) later
        omega

mutual

theorem Read.ready {outline : Outline} {first last : Spot}
    (read : outline.Read setting first last)
    (ready : first.Ready setting.source) : last.Ready setting.source := by
  match outline with
  | .node form span source children =>
      obtain ⟨inner, all, rfl, -⟩ := read
      have innerReady := AllRead.ready all ready
      refine ⟨innerReady.on, ?_⟩
      intro patch member
      rcases List.mem_append.mp member with earlier | own
      · exact innerReady.behind patch earlier
      · obtain ⟨child, isChild, stopEq⟩ := exists_stop_of_mem_patches own
        rw [stopEq]
        exact all.child_stop_le ready.on isChild

theorem AllRead.ready {outlines : List Outline} {first last : Spot}
    (read : AllRead setting outlines first last)
    (ready : first.Ready setting.source) : last.Ready setting.source := by
  match outlines with
  | [] =>
      obtain ⟨used, reach⟩ := read
      exact ready.reach reach
  | outline :: more =>
      obtain ⟨used, start, stop, reach, read, tail⟩ := read
      exact AllRead.ready tail (Read.ready read (ready.reach reach))

end

/-! ## Nodes -/

theorem read_node (children : AllRead setting outlines first last) (moves : first.Moves last) :
    (node .other (first.spanTo last) none outlines).Read setting first last :=
  ⟨last, children, by simp [NodeForm.patches], moves, rfl, trivial⟩

theorem Read.children {span : Span}
    (read : (node .other span none outlines).Read setting first last) :
    AllRead setting outlines first last := by
  obtain ⟨inner, all, rfl, -⟩ := read
  simpa [NodeForm.patches] using all

theorem read_after_token (solid : first.cursor.current.isSolid = true)
    (children : AllRead setting outlines first.advanced last) :
    (node .other (first.spanTo last) none outlines).Read setting first last := by
  obtain ⟨used, reads⟩ := children.reads
  exact read_node (children.after_reach (.one solid)) ((Spot.Moves.one solid).append_right reads)

theorem Read.withSource {outline : Outline} {source : String}
    (read : outline.Read setting first last) (plain : outline.form ≠ .array)
    (clear : first.Clear)
    (sourceEq : source = String.ofList (Patch.effectiveText setting.source last.patches
      first.cursor.offset last.cursor.offset)) :
    (outline.withSource source).Read setting first last := by
  cases outline with
  | node form span kept children =>
      obtain ⟨inner, all, lastEq, moves, spanEq, -⟩ := read
      refine ⟨inner, all, lastEq, moves, spanEq, ?_⟩
      cases form with
      | array => exact absurd rfl plain
      | instanceTest => exact ⟨clear, sourceEq⟩
      | other => exact ⟨clear, sourceEq⟩

/-! ## Nodes in nodes -/

mutual

/-- Every node in a node was itself read, from a ready spot in between. -/
theorem Read.exists_read {outline node : Outline} {first last : Spot}
    (read : outline.Read setting first last) (ready : first.Ready setting.source)
    (member : node ∈ outline.nodes) :
    ∃ start stop : Spot, start.Ready setting.source ∧ node.Read setting start stop ∧
      (∃ used, first.cursor.Reads used start.cursor) ∧
      stop.cursor.previousEnd ≤ last.cursor.previousEnd := by
  match outline with
  | .node form span source children =>
      rcases List.mem_append.mp member with inside | itself
      · obtain ⟨inner, all, rfl, -⟩ := read
        have found := AllRead.exists_read all ready inside
        exact found
      · rw [List.mem_singleton.mp itself]
        exact ⟨first, last, ready, read, ⟨[], .done _⟩, Nat.le_refl _⟩

theorem AllRead.exists_read {outlines : List Outline} {node : Outline} {first last : Spot}
    (read : AllRead setting outlines first last) (ready : first.Ready setting.source)
    (member : node ∈ nodesOf outlines) :
    ∃ start stop : Spot, start.Ready setting.source ∧ node.Read setting start stop ∧
      (∃ used, first.cursor.Reads used start.cursor) ∧
      stop.cursor.previousEnd ≤ last.cursor.previousEnd := by
  match outlines with
  | [] => cases member
  | outline :: more =>
      obtain ⟨used, opens, closes, reach, head, tail⟩ := read
      have beginReady := ready.reach reach
      have endReady := head.ready beginReady
      rcases List.mem_append.mp member with inside | later
      · obtain ⟨start, stop, startReady, node, ⟨_, lead⟩, upper⟩ :=
          Read.exists_read head beginReady inside
        obtain ⟨rest, path⟩ := tail.reads
        exact ⟨start, stop, startReady, node, ⟨_, reach.1.append lead⟩,
          Nat.le_trans upper (path.previousEnd_le endReady.on)⟩
      · obtain ⟨start, stop, startReady, node, ⟨_, lead⟩, upper⟩ :=
          AllRead.exists_read tail endReady later
        obtain ⟨rest, -, path⟩ := head.moves
        exact ⟨start, stop, startReady, node, ⟨_, (reach.1.append path).append lead⟩, upper⟩

end

end Outline

end Qml
