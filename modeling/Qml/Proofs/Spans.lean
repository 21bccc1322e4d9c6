import Qml.Proofs.Outline.Document

/-! # Spans of a tree

Every node of a parsed tree lies where its text stands: its span begins and ends
with a token, it holds the spans of the node's children, and the children follow
each other in the order of the text without a common part. -/

namespace Qml

open Outline

/-- A node that lies on a text as it should. -/
structure Outline.Placed (text : List Char) (outline : Outline) : Prop where
  begins : ∃ token ∈ tokens text, token.span.origin = outline.span.origin
  ends : ∃ token ∈ tokens text, token.span.stop = outline.span.stop
  inhabited : outline.span.start < outline.span.stop
  inside : outline.span.stop ≤ Text.byteLength text
  contains : ∀ child ∈ outline.children,
    outline.span.start ≤ child.span.start ∧ child.span.stop ≤ outline.span.stop
  ordered : outline.children.Pairwise fun child next => child.span.stop ≤ next.span.start

variable {setting : Setting} {first last : Spot} {outlines : List Outline}

theorem Outline.AllRead.ordered {text : List Char} (read : AllRead setting outlines first last)
    (on : first.cursor.On text) :
    outlines.Pairwise fun outline next => outline.span.stop ≤ next.span.start := by
  induction outlines generalizing first with
  | nil => exact .nil
  | cons outline outlines induction =>
      obtain ⟨used, start, stop, reach, head, tail⟩ := read
      obtain ⟨consumed, -, path⟩ := head.moves
      have onStop := path.on (reach.1.on on)
      refine .cons ?_ (induction tail onStop)
      intro next member
      rw [head.span_eq]
      exact Nat.le_trans onStop.previousEnd_le_offset (tail.le_child_start onStop member)

theorem Outline.Read.placed {outline : Outline} (read : outline.Read setting first last)
    (ready : first.Ready setting.source) : outline.Placed setting.source := by
  have spanEq := read.span_eq
  obtain ⟨used, moved, path⟩ := read.moves
  have onLast := path.on ready.on
  cases outline with
  | node form span source children =>
      obtain ⟨inner, all, lastEq, -⟩ := read
      have sameEnd : last.cursor.previousEnd = inner.cursor.previousEnd := by rw [lastEq]
      constructor
      · exact ⟨first.cursor.current, ready.on.current_mem, by rw [spanEq]; rfl⟩
      · obtain ⟨token, member, stopEq⟩ := path.exists_stop_eq moved
        exact ⟨token, path.mem_tokens ready.on member, by rw [stopEq, spanEq]; rfl⟩
      · rw [spanEq]
        exact path.offset_lt_previousEnd ready.on moved
      · rw [spanEq]
        exact onLast.isBoundary_previousEnd.le_byteLength
      · intro child member
        rw [spanEq]
        refine ⟨all.le_child_start ready.on member, ?_⟩
        exact Nat.le_trans (all.child_stop_le ready.on member) (Nat.le_of_eq sameEnd.symm)
      · exact all.ordered ready.on

/-- The outlines of a whole text lie on it, all their nodes included. -/
def WellPlaced (text : List Char) (outlines : List Outline) : Prop :=
  (∀ node ∈ nodesOf outlines, node.Placed text) ∧
    outlines.Pairwise fun outline next => outline.span.stop ≤ next.span.start

theorem Outline.AllRead.wellPlaced (read : AllRead setting outlines first last)
    (ready : first.Ready setting.source) : WellPlaced setting.source outlines := by
  refine ⟨?_, read.ordered ready.on⟩
  intro node member
  obtain ⟨start, stop, startReady, nodeRead, -⟩ := read.exists_read ready member
  exact nodeRead.placed startReady

/-- All spans of a parsed text or script lie where their text stands. -/
theorem spans_wellPlaced :
    (∀ options text tree, (parseNormalized options text).outcome = .ok tree →
      WellPlaced text tree.outlines) ∧
    ∀ strict source statements, parseScript strict source = .ok statements →
      WellPlaced source.toList (Statement.outlineAll statements) := by
  constructor
  · intro options text tree ok
    obtain ⟨last, read⟩ := parseNormalized_read ok
    exact read.wellPlaced (ready_ofText _)
  · intro strict source statements ok
    obtain ⟨last, read⟩ := parseScript_read ok
    exact read.wellPlaced (ready_ofText _)

theorem spans_wellPlaced_small :
    ∃ tree statements, (parseNormalized {} "A { b: c }".toList).outcome = .ok tree ∧
      WellPlaced "A { b: c }".toList tree.outlines ∧
      parseScript true "d(e);" = .ok statements ∧
      WellPlaced "d(e);".toList (Statement.outlineAll statements) := by
  have fileAccepted : (parseNormalized {} "A { b: c }".toList).outcome.isOk = true := by
    decide +kernel
  have scriptAccepted : (parseScript true "d(e);").isOk = true := by decide +kernel
  obtain ⟨tree, fileOk⟩ := exists_of_isOk fileAccepted
  obtain ⟨statements, scriptOk⟩ := exists_of_isOk scriptAccepted
  exact ⟨tree, statements, fileOk, spans_wellPlaced.1 _ _ _ fileOk, scriptOk,
    spans_wellPlaced.2 _ _ _ scriptOk⟩

end Qml
