import Qml.Proofs.Outline.Document

/-! # Accepted texts are covered

What a parse returns accounts for the whole text. The outermost items, which are
the statements of a script or the imports and the root of a document, were read
one right behind the other from the first token to the end, and only solid
tokens were consumed on the way. So an accepted text has no malformed token, and
each of its tokens lies in exactly one of the items. -/

namespace Qml

def Span.holds (span : Span) (token : Token) : Bool :=
  span.start ≤ token.span.start && token.span.stop ≤ span.stop

def Tree.itemSpans : Tree → List Span
  | .document content => content.imports.map Import.span ++ [content.root.span]
  | .script statements => statements.map Statement.span

/-! ## Consecutive items -/

namespace Cursor

theorem Reads.between {text : List Char} {cursor later : Cursor} {used : List Token}
    (reads : Reads cursor used later) (on : cursor.On text) {token : Token}
    (member : token ∈ used) :
    cursor.offset ≤ token.span.start ∧ token.span.start < token.span.stop ∧
      token.span.stop ≤ later.previousEnd := by
  induction reads with
  | done => cases member
  | @step cursor later used solid rest induction =>
      have inside := on.offset_lt_stop solid
      have advanced := on.advance solid
      rcases List.mem_cons.mp member with rfl | behind
      · exact ⟨Nat.le_refl _, inside, rest.previousEnd_le advanced⟩
      · obtain ⟨lower, inhabited, upper⟩ := induction advanced behind
        have next : cursor.current.span.stop ≤ cursor.advance.offset :=
          advanced.previousEnd_le_offset
        exact ⟨by omega, inhabited, upper⟩

/-- Items with the given spans were read one right behind the other, each over at
least one token. -/
inductive Consists : Cursor → List Span → Cursor → Prop
  | done (cursor : Cursor) : Consists cursor [] cursor
  | item {cursor middle last : Cursor} {used : List Token} {spans : List Span} {span : Span}
      (moved : used ≠ []) (reads : Reads cursor used middle)
      (spanEq : span = ⟨cursor.current.span.origin, middle.previousEnd⟩)
      (rest : Consists middle spans last) : Consists cursor (span :: spans) last

namespace Consists

variable {text : List Char} {cursor middle last : Cursor} {spans more : List Span}

theorem append (one : Consists cursor spans middle) (two : Consists middle more last) :
    Consists cursor (spans ++ more) last := by
  induction one with
  | done => exact two
  | item moved reads spanEq rest induction => exact .item moved reads spanEq (induction two)

theorem offset_le_start (consists : Consists cursor spans last) (on : cursor.On text) {span : Span}
    (member : span ∈ spans) : cursor.offset ≤ span.start := by
  induction consists with
  | done => cases member
  | item moved reads spanEq rest induction =>
      rcases List.mem_cons.mp member with rfl | later
      · rw [spanEq]
        exact Nat.le_refl _
      · exact Nat.le_trans (reads.offset_le on) (induction (reads.on on) later)

theorem ordered (consists : Consists cursor spans last) (on : cursor.On text) :
    spans.Pairwise fun span next => span.stop ≤ next.start := by
  induction consists with
  | done => exact .nil
  | item moved reads spanEq rest induction =>
      have onMiddle := reads.on on
      refine .cons ?_ (induction onMiddle)
      intro next member
      rw [spanEq]
      exact Nat.le_trans onMiddle.previousEnd_le_offset (rest.offset_le_start onMiddle member)

theorem covers (consists : Consists cursor spans last) (on : cursor.On text) :
    last.On text ∧ ∃ used, cursor.remaining = used ++ last.remaining ∧
      ∀ token ∈ used, token.isSolid = true ∧ cursor.offset ≤ token.span.start ∧
        token.span.start < token.span.stop ∧ spans.countP (·.holds token) = 1 := by
  induction consists with
  | done => exact ⟨on, [], rfl, by simp⟩
  | @item cursor middle last used spans span moved reads spanEq rest induction =>
      have onMiddle := reads.on on
      have behind := onMiddle.previousEnd_le_offset
      obtain ⟨onLast, more, moreEq, covered⟩ := induction onMiddle
      have spanStart : span.start = cursor.offset := by rw [spanEq]; rfl
      have spanStop : span.stop = middle.previousEnd := by rw [spanEq]
      refine ⟨onLast, used ++ more, ?_, ?_⟩
      · rw [reads.remaining_eq on, moreEq, List.append_assoc]
      intro token member
      rw [List.countP_cons]
      rcases List.mem_append.mp member with own | later
      · -- A token of the first item ends before all later items begin.
        obtain ⟨lower, inhabited, upper⟩ := reads.between on own
        have inFirst : span.holds token = true := by
          simp only [Span.holds, Bool.and_eq_true, decide_eq_true_eq]
          omega
        have inNone : spans.countP (·.holds token) = 0 := by
          rw [List.countP_eq_zero]
          intro next isNext
          have nextStart := rest.offset_le_start onMiddle isNext
          simp only [Span.holds, Bool.and_eq_true, decide_eq_true_eq]
          omega
        exact ⟨reads.isSolid_of_mem own, lower, inhabited, by simp [inFirst, inNone]⟩
      · -- A later token begins behind the first item.
        obtain ⟨solid, lower, inhabited, once⟩ := covered token later
        have notInFirst : span.holds token = false := by
          simp only [Span.holds, Bool.and_eq_false_iff, decide_eq_false_iff_not]
          omega
        have forward := reads.offset_le on
        exact ⟨solid, by omega, inhabited, by simp [notInFirst, once]⟩

end Consists

end Cursor

/-! ## Items of parses -/

open Outline Qml.Parser

theorem Outline.Read.consists {setting : Setting} {outline : Outline} {first last : Spot}
    (read : outline.Read setting first last) :
    first.cursor.Consists [outline.span] last.cursor := by
  obtain ⟨used, moved, reads⟩ := read.moves
  exact .item moved reads read.span_eq (.done _)

@[simp] theorem Statement.outline_span (statement : Statement) :
    statement.outline.span = statement.span := by
  cases statement
  rw [Statement.outline]
  rfl

@[simp] theorem Element.outline_span (element : Element) :
    element.outline.span = element.span := by
  cases element
  rw [Element.outline]
  rfl

@[simp] theorem Import.outline_span (item : Import) : item.outline.span = item.span := rfl

namespace Grammar

variable {state after : State}

theorem collect_consists {α : Type} (setting : Setting) (outline : α → Outline)
    {step : Parser (Option α)} {values : List α}
    (last : ∀ {state after}, step state = .ok none after → after = state)
    (round : ∀ {state value after}, step state = .ok (some value) after →
      (outline value).Parsed setting state.spot after.spot)
    (ok : collect step state = .ok values after) (ready : state.spot.Ready setting.source) :
    state.cursor.Consists (values.map fun value => (outline value).span) after.cursor := by
  refine collect_induction (motive := fun state values after => state.spot.Ready setting.source →
    state.cursor.Consists (values.map fun value => (outline value).span) after.cursor)
    ?_ ?_ ok ready
  · intro state after stepped _
    rw [last stepped]
    exact .done _
  · intro state value between more after stepped rest ready
    have read := round stepped ready
    exact read.consists.append (rest (read.ready ready))

theorem importItem_eq_none (ok : importItem state = .ok none after) : after = state := by
  simp only [importItem, run_token, run_ite] at ok
  split at ok
  case isTrue =>
      simp only [run_advance, run_spanFrom, bind_eq_ok] at ok
      obtain ⟨_, _, _, _, _, _, _, _, _, _, _, _, _, _, _, ok⟩ := ok
      cases ok
  case isFalse =>
      cases ok
      rfl

theorem imports_consist (setting : Setting) {imports : List Import}
    (ok : collect importItem state = .ok imports after)
    (ready : state.spot.Ready setting.source) :
    state.cursor.Consists (imports.map Import.span) after.cursor := by
  refine collect_consists setting Import.outline importItem_eq_none ?_ ok ready
  intro state item after stepped
  exact (importItem_parsed stepped).1 item rfl

variable {grammar : Grammar}

theorem scriptItem_eq_none (ok : grammar.scriptItem state = .ok none after) :
    after = state ∧ state.cursor.current.isEnd = true := by
  simp only [scriptItem, run_atEnd, run_ite] at ok
  split at ok
  case isTrue atEnd =>
      cases ok
      exact ⟨rfl, atEnd⟩
  case isFalse =>
      obtain ⟨statement, _, -, ok⟩ := bind_eq_ok.mp ok
      cases ok

variable (outlined : grammar.deeper.Outlined grammar.toSetting)

include outlined

theorem script_consists {statements : List Statement}
    (ok : grammar.script state = .ok statements after) (ready : state.spot.Ready grammar.source) :
    state.cursor.Consists (statements.map Statement.span) after.cursor ∧
      after.cursor.current.isEnd = true := by
  constructor
  · have consists := collect_consists grammar.toSetting Statement.outline
      (fun stepped => (scriptItem_eq_none stepped).1) ?_ ok ready
    · simpa using consists
    · intro state statement after stepped
      simp only [scriptItem, run_atEnd, run_ite] at stepped
      split at stepped
      case isTrue => cases stepped
      case isFalse =>
          obtain ⟨found, _, foundOk, stepped⟩ := bind_eq_ok.mp stepped
          cases stepped
          exact (statement_ended outlined foundOk).1
  · obtain ⟨before, stepped⟩ := collect_last ok
    obtain ⟨rfl, atEnd⟩ := scriptItem_eq_none stepped
    exact atEnd

theorem document_consists [grammar.deeper.KeepsScope] {document : Document}
    (fresh : state.patches = []) (ok : grammar.document state = .ok document after)
    (ready : state.spot.Ready grammar.source) :
    state.cursor.Consists (Tree.document document).itemSpans after.cursor ∧
      after.cursor.current.isEnd = true := by
  obtain ⟨between, importsOk, rootOk, atEnd⟩ := document_eq_ok ok
  have clear := clear_after_imports fresh importsOk ready
  have importsRead := (imports_parsed grammar.toSetting importsOk).2 ready
  have rootRead := rootElement_parsed outlined clear rootOk (importsRead.ready ready)
  have rootConsists := rootRead.consists
  rw [Element.outline_span] at rootConsists
  exact ⟨(imports_consist grammar.toSetting importsOk ready).append rootConsists, atEnd⟩

end Grammar

/-! ## Whole texts -/

/-- Items with the given spans account for a text: it has no malformed token and
comes to its end, each token before the end lies in exactly one item, and the
items are in the order of the text. -/
structure Covered (text : String) (items : List Span) : Prop where
  wellFormed : ∀ token ∈ tokenize text, token.isMalformed = false
  ends : ∃ before last, tokenize text = before ++ [last] ∧ last.isEnd = true ∧
    ∀ token ∈ before, token.isEnd = false
  once : ∀ token ∈ tokenize text, token.isEnd = false → items.countP (·.holds token) = 1
  ordered : items.Pairwise fun item next => item.stop ≤ next.start

theorem tokenize_eq_tokens {text : String}
    (wellFormed : ∀ token ∈ tokens text.toList, token.isMalformed = false) :
    tokenize text = tokens text.toList := by
  have whole : (tokens text.toList).takeWhile (fun token => !token.isMalformed) =
      tokens text.toList := by
    have every : ∀ token ∈ tokens text.toList, (!token.isMalformed) = true := by
      intro token member
      simp [wellFormed token member]
    have front : (tokens text.toList ++ []).takeWhile (fun token => !token.isMalformed) =
        tokens text.toList ++ [].takeWhile fun token => !token.isMalformed :=
      List.takeWhile_append_of_pos every
    simpa using front
  simp [tokenize, whole]

theorem Cursor.Consists.tokens_eq {text : List Char} {items : List Span} {last : Cursor}
    (consists : (Cursor.ofText text).Consists items last) (atEnd : last.current.isEnd = true) :
    last.upcoming = [] ∧ ∃ used, tokens text = used ++ [last.current] ∧
      ∀ token ∈ used, token.isSolid = true ∧ items.countP (·.holds token) = 1 := by
  obtain ⟨onLast, used, remainingEq, covered⟩ := consists.covers (Cursor.on_ofText text)
  have nothing := onLast.upcoming_eq_nil atEnd
  refine ⟨nothing, used, ?_, fun token member => ?_⟩
  · rw [← Cursor.remaining_ofText, remainingEq, Cursor.remaining, nothing]
  · exact ⟨(covered token member).1, (covered token member).2.2.2⟩

theorem Cursor.Consists.covered {text : String} {items : List Span} {last : Cursor}
    (consists : (Cursor.ofText text.toList).Consists items last)
    (atEnd : last.current.isEnd = true) : Covered text items := by
  obtain ⟨-, used, tokensEq, covered⟩ := consists.tokens_eq atEnd
  have wellFormed :=
    isMalformed_of_tokens_eq tokensEq fun token member => (covered token member).1
  have tokenizeEq := tokenize_eq_tokens wellFormed
  constructor
  · rw [tokenizeEq]
    exact wellFormed
  · rw [tokenizeEq]
    exact tokens_end text.toList
  · rw [tokenizeEq, tokensEq]
    intro token member notEnd
    rw [List.mem_append, List.mem_singleton] at member
    rcases member with inside | rfl
    · exact (covered token inside).2
    · simp [atEnd] at notEnd
  · exact consists.ordered (Cursor.on_ofText _)

/-- A text that is accepted, as a file of either kind or as a plain script, is
covered by the outermost items of what it holds. -/
theorem accepted_text_is_covered :
    (∀ options (text : String) tree, (parseNormalized options text.toList).outcome = .ok tree →
      Covered text tree.itemSpans) ∧
    ∀ strict text statements, parseScript strict text = .ok statements →
      Covered text (statements.map Statement.span) := by
  constructor
  · intro options text tree ok
    have outlined :=
      Grammar.within_outlined (options.grammar text.toList).toSetting options.limit
    have ready : (State.ofText text.toList).spot.Ready (options.grammar text.toList).source :=
      ready_ofText text.toList
    obtain ⟨after, ⟨document, rfl, documentOk⟩ | ⟨statements, rfl, statementsOk⟩⟩ :=
      parseNormalized_eq_ok ok
    · obtain ⟨consists, atEnd⟩ := Grammar.document_consists outlined rfl documentOk ready
      exact consists.covered atEnd
    · obtain ⟨consists, atEnd⟩ := Grammar.script_consists outlined statementsOk ready
      exact consists.covered atEnd
  · intro strict text statements ok
    have outlined := Grammar.within_outlined ⟨text.toList, strict, .script⟩ scriptLimit
    obtain ⟨after, statementsOk⟩ := parseScript_eq_ok.mp ok
    obtain ⟨consists, atEnd⟩ := Grammar.script_consists outlined statementsOk (ready_ofText _)
    exact consists.covered atEnd

theorem accepted_text_is_covered_small :
    ∃ tree statements, (parseNormalized {} "import Q 2.0; A { , b: c }".toList).outcome = .ok tree ∧
      tree.itemSpans.length = 2 ∧ Covered "import Q 2.0; A { , b: c }" tree.itemSpans ∧
      parseScript false "d(e)\n/* f */ g" = .ok statements ∧ statements.length = 2 ∧
      Covered "d(e)\n/* f */ g" (statements.map Statement.span) := by
  have fileFound : (parseNormalized {} "import Q 2.0; A { , b: c }".toList).outcome.toOption.any
      (fun tree => tree.itemSpans.length = 2) = true := by decide +kernel
  have scriptFound : (parseScript false "d(e)\n/* f */ g").toOption.any
      (fun statements => statements.length = 2) = true := by decide +kernel
  obtain ⟨tree, file, twoItems⟩ := exists_of_any fileFound
  obtain ⟨statements, script, twoStatements⟩ := exists_of_any scriptFound
  exact ⟨tree, statements, file, of_decide_eq_true twoItems, accepted_text_is_covered.1 _ _ _ file,
    script, of_decide_eq_true twoStatements, accepted_text_is_covered.2 _ _ _ script⟩

end Qml
