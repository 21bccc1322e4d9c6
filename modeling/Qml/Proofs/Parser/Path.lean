import Qml.Parser.State
import Qml.Proofs.Text.Slice
import Qml.Proofs.Token.Tiling

/-! # Paths of a cursor

A parser that succeeds moves its cursor along the tokens and consumes none that
is malformed or the end. On the tokens of a text such a path goes forward in the
text, with every consumed token. -/

namespace Qml

@[simp] theorem State.cursor_ofText (text : List Char) :
    (State.ofText text).cursor = .ofText text := rfl

namespace Cursor

/-- From one place to a later one over the tokens `used`, all of them solid. -/
inductive Reads : Cursor → List Token → Cursor → Prop
  | done (cursor : Cursor) : Reads cursor [] cursor
  | step {cursor later : Cursor} {used : List Token} (solid : cursor.current.isSolid = true)
      (rest : Reads cursor.advance used later) : Reads cursor (cursor.current :: used) later

namespace Reads

theorem one {cursor : Cursor} (solid : cursor.current.isSolid = true) :
    Reads cursor [cursor.current] cursor.advance :=
  .step solid (.done _)

theorem append {first middle last : Cursor} {used more : List Token}
    (one : Reads first used middle) (two : Reads middle more last) :
    Reads first (used ++ more) last := by
  induction one with
  | done => exact two
  | step solid rest induction => exact .step solid (induction two)

end Reads

/-- A place among the tokens of a text. The remaining ones lie on the text behind
the end of the last consumed one. -/
structure On (text : List Char) (cursor : Cursor) : Prop where
  split : ∃ before, tokens text = before ++ cursor.remaining
  tiled : ∃ consumed rest, text = consumed ++ rest ∧
    cursor.previousEnd = Text.byteLength consumed ∧
    Tiled (Position.start.after consumed) rest cursor.remaining

theorem remaining_ofText (text : List Char) : (ofText text).remaining = tokens text := by
  obtain ⟨first, rest, consEq⟩ := exists_tokens_eq_cons text
  simp [ofText, ofTokens, remaining, consEq]

theorem current_ofText {text : List Char} {token : Token} {rest : List Token}
    (tokensEq : tokens text = token :: rest) : (ofText text).current = token := by
  simp [ofText, ofTokens, tokensEq]

theorem previousEnd_ofText (text : List Char) : (ofText text).previousEnd = 0 := by
  unfold ofText ofTokens
  split <;> rfl

theorem on_ofText (text : List Char) : (ofText text).On text := by
  refine ⟨⟨[], by rw [remaining_ofText]; rfl⟩, [], text, rfl, previousEnd_ofText text, ?_⟩
  rw [remaining_ofText]
  exact tokens_tiled text

namespace On

variable {text : List Char} {cursor : Cursor}

theorem current_tile (on : cursor.On text) :
    ∃ consumed gap body after, text = consumed ++ (gap ++ (body ++ after)) ∧
      cursor.previousEnd = Text.byteLength consumed ∧
      Tile (Position.start.after consumed) (gap ++ (body ++ after)) cursor.current
        gap body after ∧
      Tiled (Position.start.after (consumed ++ (gap ++ body))) after cursor.upcoming := by
  obtain ⟨consumed, rest, textEq, endEq, gap, body, after, tile, tiled⟩ := on.tiled
  refine ⟨consumed, gap, body, after, ?_, endEq, ?_, ?_⟩
  · rw [← tile.text_eq]
    exact textEq
  · rw [← tile.text_eq]
    exact tile
  · rw [Position.after_append]
    exact tiled

theorem offset_eq {consumed gap body after : List Char}
    (tile : Tile (Position.start.after consumed) (gap ++ (body ++ after)) cursor.current
      gap body after) :
    cursor.offset = Text.byteLength consumed + Text.byteLength gap ∧
      cursor.current.span.stop = cursor.offset + Text.byteLength body := by
  have offsetEq : cursor.offset = Text.byteLength consumed + Text.byteLength gap := by
    unfold offset Span.start
    rw [tile.span_eq]
    simp [Position.start]
  refine ⟨offsetEq, ?_⟩
  rw [tile.span_eq, offsetEq]
  simp [Position.start]

theorem previousEnd_le_offset (on : cursor.On text) : cursor.previousEnd ≤ cursor.offset := by
  obtain ⟨consumed, gap, body, after, -, endEq, tile, -⟩ := on.current_tile
  have offsets := offset_eq tile
  omega

theorem previousEnd_lt_offset (on : cursor.On text)
    (broken : cursor.current.afterLineBreak = true) : cursor.previousEnd < cursor.offset := by
  obtain ⟨consumed, gap, body, after, -, endEq, tile, -⟩ := on.current_tile
  have offsets := offset_eq tile
  have positive := Text.byteLength_pos (tile.gap_ne_nil broken)
  omega

theorem offset_lt_stop (on : cursor.On text) (solid : cursor.current.isSolid = true) :
    cursor.offset < cursor.current.span.stop := by
  obtain ⟨consumed, gap, body, after, -, endEq, tile, -⟩ := on.current_tile
  have offsets := offset_eq tile
  have positive := Text.byteLength_pos (tile.body_ne_nil solid)
  omega

theorem previousEnd_le_stop (on : cursor.On text) :
    cursor.previousEnd ≤ cursor.current.span.stop := by
  obtain ⟨consumed, gap, body, after, -, endEq, tile, -⟩ := on.current_tile
  have offsets := offset_eq tile
  omega

theorem isBoundary_offset (on : cursor.On text) : Text.IsBoundary text cursor.offset := by
  obtain ⟨consumed, gap, body, after, textEq, endEq, tile, -⟩ := on.current_tile
  refine ⟨consumed ++ gap, body ++ after, by simpa using textEq, ?_⟩
  rw [(offset_eq tile).1, Text.byteLength_append]

theorem isBoundary_previousEnd (on : cursor.On text) :
    Text.IsBoundary text cursor.previousEnd := by
  obtain ⟨consumed, rest, textEq, endEq, -⟩ := on.tiled
  exact ⟨consumed, rest, textEq, endEq⟩

theorem current_mem (on : cursor.On text) : cursor.current ∈ tokens text := by
  obtain ⟨before, tokensEq⟩ := on.split
  simp [tokensEq, remaining]

/-- No token that remains begins or ends before the current one begins. -/
theorem offset_le_of_mem (on : cursor.On text) {token : Token} (member : token ∈ cursor.remaining) :
    cursor.offset ≤ token.span.start ∧ cursor.offset ≤ token.span.stop := by
  obtain ⟨consumed, rest, -, -, tiled⟩ := on.tiled
  have stop := tiled.start_le_stop member
  obtain ⟨consumed, gap, body, after, -, -, tile, behind⟩ := on.current_tile
  have offsets := offset_eq tile
  have start : cursor.offset ≤ token.span.start := by
    rcases List.mem_cons.mp member with rfl | later
    · exact Nat.le_refl _
    · have beyond := behind.offset_le_start later
      simp only [Position.offset_after, Text.byteLength_append, Position.start] at beyond
      omega
  exact ⟨start, Nat.le_trans start stop⟩

theorem slice_mark (on : cursor.On text) {mark : Char}
    (isMark : cursor.current.isPunctuation mark = true) :
    Text.slice text cursor.offset cursor.current.span.stop = [mark] := by
  obtain ⟨consumed, gap, body, after, textEq, endEq, tile, -⟩ := on.current_tile
  obtain ⟨offsetEq, stopEq⟩ := offset_eq tile
  have sliced := Text.slice_append (consumed ++ gap) body after
  rw [Text.byteLength_append, List.append_assoc, ← offsetEq, ← stopEq, ← textEq] at sliced
  rw [sliced, tile.body_eq_mark mark isMark]

theorem upcoming_ne_nil_of_inside (on : cursor.On text) (inside : cursor.current.isEnd = false) :
    cursor.upcoming ≠ [] := by
  intro nothing
  obtain ⟨before, tokensEq⟩ := on.split
  obtain ⟨front, last, lastEq, isEnd, -⟩ := tokens_end text
  rw [lastEq, remaining, nothing] at tokensEq
  have same : last = cursor.current := by
    have lasts := congrArg List.getLast? tokensEq
    simpa using lasts
  simp [← same, isEnd] at inside

theorem upcoming_ne_nil (on : cursor.On text) (solid : cursor.current.isSolid = true) :
    cursor.upcoming ≠ [] :=
  on.upcoming_ne_nil_of_inside (Token.isEnd_of_isSolid solid)

theorem upcoming_eq_nil (on : cursor.On text) (atEnd : cursor.current.isEnd = true) :
    cursor.upcoming = [] := by
  obtain ⟨before, tokensEq⟩ := on.split
  obtain ⟨front, last, lastEq, -, inside⟩ := tokens_end text
  rcases List.eq_nil_or_concat cursor.upcoming with nothing | ⟨more, final, upcomingEq⟩
  · exact nothing
  · have whole : front ++ [last] = (before ++ cursor.current :: more) ++ [final] := by
      rw [← lastEq, tokensEq, remaining, upcomingEq]
      simp
    have frontEq : front = before ++ cursor.current :: more := (List.append_inj' whole rfl).1
    have within := inside cursor.current (by simp [frontEq])
    simp [atEnd] at within

theorem isEnd_advance (on : cursor.On text) (atEnd : cursor.current.isEnd = true) :
    cursor.advance.current.isEnd = true := by
  have nothing := on.upcoming_eq_nil atEnd
  simpa [Cursor.advance, peek, nothing, Token.isEnd] using atEnd

theorem advance_of_inside (on : cursor.On text) (inside : cursor.current.isEnd = false) :
    cursor.advance.On text := by
  obtain ⟨next, rest, upcomingEq⟩ :=
    List.exists_cons_of_ne_nil (on.upcoming_ne_nil_of_inside inside)
  have remainingEq : cursor.advance.remaining = cursor.upcoming := by
    simp [Cursor.advance, remaining, peek, upcomingEq]
  constructor
  · obtain ⟨before, tokensEq⟩ := on.split
    refine ⟨before ++ [cursor.current], ?_⟩
    rw [tokensEq, remainingEq, remaining]
    simp
  · obtain ⟨consumed, gap, body, after, textEq, endEq, tile, tiled⟩ := on.current_tile
    refine ⟨consumed ++ (gap ++ body), after, by simpa using textEq, ?_, ?_⟩
    · obtain ⟨offsetEq, stopEq⟩ := offset_eq tile
      simp only [Cursor.advance, Text.byteLength_append]
      omega
    · rw [remainingEq]
      exact tiled

theorem advance (on : cursor.On text) (solid : cursor.current.isSolid = true) :
    cursor.advance.On text :=
  on.advance_of_inside (Token.isEnd_of_isSolid solid)

theorem previousEnd_le_start (on : cursor.On text) {token : Token}
    (member : token ∈ cursor.remaining) : cursor.previousEnd ≤ token.span.start := by
  obtain ⟨consumed, rest, -, endEq, tiled⟩ := on.tiled
  have behind := tiled.offset_le_start member
  simp only [Position.offset_after, Position.start, Nat.zero_add] at behind
  omega

end On

/-- All tokens before a place lie before the end of the last consumed one, and
none of them is empty. -/
structure Passed (text : List Char) (cursor : Cursor) : Prop where
  exists_before : ∃ before, tokens text = before ++ cursor.remaining ∧
    ∀ token ∈ before, token.span.start < token.span.stop ∧ token.span.stop ≤ cursor.previousEnd

theorem passed_ofText (text : List Char) : (ofText text).Passed text :=
  ⟨[], by rw [remaining_ofText]; rfl, by simp⟩

theorem On.find_following {text : List Char} {cursor : Cursor} (on : cursor.On text)
    (passed : cursor.Passed text) :
    (tokens text).find? (fun token => cursor.previousEnd ≤ token.span.start) =
      some cursor.current := by
  obtain ⟨before, tokensEq, behind⟩ := passed.exists_before
  have passed : before.find? (fun token => cursor.previousEnd ≤ token.span.start) = none := by
    rw [List.find?_eq_none]
    intro token member
    obtain ⟨inhabited, stopLe⟩ := behind token member
    simp only [decide_eq_true_eq]
    omega
  have next := on.previousEnd_le_start (List.mem_cons_self (l := cursor.upcoming))
  rw [tokensEq, List.find?_append, passed, remaining, Option.none_or, List.find?_cons]
  simp [next]

/-! ## Along a path -/

namespace Reads

variable {text : List Char} {cursor later : Cursor} {used : List Token}

theorem split {front back : List Token} (reads : Reads cursor (front ++ back) later) :
    ∃ middle, Reads cursor front middle ∧ Reads middle back later := by
  induction front generalizing cursor with
  | nil => exact ⟨cursor, .done _, reads⟩
  | cons token front induction =>
      cases reads with
      | step solid rest =>
          obtain ⟨middle, one, two⟩ := induction rest
          exact ⟨middle, .step solid one, two⟩

theorem current_eq {token : Token} (reads : Reads cursor (token :: used) later) :
    cursor.current = token ∧ token.isSolid = true ∧ Reads cursor.advance used later := by
  cases reads with
  | step solid rest => exact ⟨rfl, solid, rest⟩

theorem headD_eq (reads : Reads cursor used later) : used.headD later.current = cursor.current := by
  cases reads <;> rfl

theorem remaining_eq (reads : Reads cursor used later) (on : cursor.On text) :
    cursor.remaining = used ++ later.remaining := by
  induction reads with
  | done => rfl
  | @step cursor later used solid rest induction =>
      obtain ⟨next, upcoming, upcomingEq⟩ := List.exists_cons_of_ne_nil (on.upcoming_ne_nil solid)
      have advanced : cursor.advance.remaining = cursor.upcoming := by
        simp [Cursor.advance, remaining, peek, upcomingEq]
      rw [remaining, ← advanced, induction (on.advance solid), List.cons_append]

theorem unique {later' : Cursor} (one : Reads cursor used later) (two : Reads cursor used later') :
    later = later' := by
  induction one with
  | done cursor =>
      cases two
      rfl
  | step solid rest induction => exact induction two.current_eq.2.2

/-- A cursor that reads on from a place has come as far as another one has if as
many tokens remain. -/
theorem eq_of_length_eq {used' : List Token} {later' : Cursor} (one : Reads cursor used later)
    (two : Reads cursor used' later') (on : cursor.On text)
    (same : later.upcoming.length = later'.upcoming.length) : later = later' := by
  have whole := (one.remaining_eq on).symm.trans (two.remaining_eq on)
  have lengths : later.remaining.length = later'.remaining.length := congrArg (· + 1) same
  rw [← (List.append_inj' whole lengths).1] at two
  exact one.unique two

theorem on (reads : Reads cursor used later) (on : cursor.On text) : later.On text := by
  induction reads with
  | done => exact on
  | step solid rest induction => exact induction (on.advance solid)

theorem previousEnd_le (reads : Reads cursor used later) (on : cursor.On text) :
    cursor.previousEnd ≤ later.previousEnd := by
  induction reads with
  | done => exact Nat.le_refl _
  | @step cursor later used solid rest induction =>
      have before := on.previousEnd_le_offset
      have inside := on.offset_lt_stop solid
      have after : cursor.current.span.stop ≤ later.previousEnd := induction (on.advance solid)
      omega

theorem passed (reads : Reads cursor used later) (on : cursor.On text)
    (passed : cursor.Passed text) : later.Passed text := by
  induction reads with
  | done => exact passed
  | @step cursor later used solid rest induction =>
      refine induction (on.advance solid) ⟨?_⟩
      obtain ⟨before, tokensEq, behind⟩ := passed.exists_before
      have lower := on.previousEnd_le_offset
      have upper := on.offset_lt_stop solid
      refine ⟨before ++ [cursor.current], ?_, ?_⟩
      · have path := (Reads.one solid).remaining_eq on
        rw [tokensEq, path]
        simp
      · intro token member
        rcases List.mem_append.mp member with earlier | latest
        · obtain ⟨inhabited, stopLe⟩ := behind token earlier
          refine ⟨inhabited, ?_⟩
          simp only [Cursor.advance]
          omega
        · rw [List.mem_singleton.mp latest]
          exact ⟨upper, Nat.le_refl _⟩

theorem offset_lt_previousEnd (reads : Reads cursor used later) (on : cursor.On text)
    (moved : used ≠ []) : cursor.offset < later.previousEnd := by
  cases reads with
  | done => exact absurd rfl moved
  | step solid rest =>
      have inside := on.offset_lt_stop solid
      have after : cursor.current.span.stop ≤ later.previousEnd :=
        rest.previousEnd_le (on.advance solid)
      omega

theorem offset_le (reads : Reads cursor used later) (on : cursor.On text) :
    cursor.offset ≤ later.offset := by
  cases reads with
  | done => exact Nat.le_refl _
  | step solid rest =>
      have inside := offset_lt_previousEnd (.step solid rest) on (by simp)
      have after := (Reads.on (.step solid rest) on).previousEnd_le_offset
      omega

theorem mem_tokens (reads : Reads cursor used later) (on : cursor.On text) {token : Token}
    (member : token ∈ used) : token ∈ tokens text := by
  induction reads with
  | done => cases member
  | step solid rest induction =>
      rcases List.mem_cons.mp member with rfl | behind
      · exact on.current_mem
      · exact induction (on.advance solid) behind

theorem isSolid_of_mem (reads : Reads cursor used later) {token : Token} (member : token ∈ used) :
    token.isSolid = true := by
  induction reads with
  | done => cases member
  | step solid rest induction =>
      rcases List.mem_cons.mp member with rfl | behind
      · exact solid
      · exact induction behind

theorem exists_stop_eq (reads : Reads cursor used later) (moved : used ≠ []) :
    ∃ token ∈ used, token.span.stop = later.previousEnd := by
  induction reads with
  | done => exact absurd rfl moved
  | @step cursor later used solid rest induction =>
      cases rest with
      | done => exact ⟨cursor.current, List.mem_singleton_self _, rfl⟩
      | step nextSolid more =>
          obtain ⟨token, member, stopEq⟩ := induction (List.cons_ne_nil _ _)
          exact ⟨token, List.mem_cons_of_mem _ member, stopEq⟩

end Reads

end Cursor

end Qml
