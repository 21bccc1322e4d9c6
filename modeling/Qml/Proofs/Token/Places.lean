import Qml.Proofs.Failures
import Qml.Proofs.Text.Slice
import Qml.Proofs.Token.Gaps
import Qml.Proofs.Token.Relexing

/-! # Where tokens lie

However often a lexer is asked for the next token, the tokens that it returns
lie one behind the other on the text. Between two of them there is nothing but
blanks and comments, and the line and the column at which a token begins are
those that one counts in the text before it. Malformed tokens and the ends that
come after the first one are no exception. -/

namespace Qml

open Qml.Text

/-! ## What an unclosed comment is told from -/

def Token.isUnclosedComment (token : Token) : Bool :=
  token.kind = .malformed .unterminatedComment

theorem stringBody_ne_unterminatedComment (quote : Char) (mode : StringState) (text : List Char) :
    (stringBody quote mode text).result ≠ .error .unterminatedComment := by
  fun_induction stringBody quote mode text <;>
    simp_all [Reading.done, Reading.fail, Reading.skip, Reading.emit, Except.map] <;>
    split <;> simp_all

theorem regexpBody_ne_unterminatedComment (inClass escaped : Bool) (text : List Char) :
    (regexpBody inClass escaped text).result ≠ .error .unterminatedComment := by
  fun_induction regexpBody inClass escaped text <;>
    simp_all [Reading.done, Reading.fail, Reading.emit, Except.map] <;>
    split <;> simp_all

theorem hexadecimalLexeme_ne_unterminatedComment (opening rest : List Char) :
    (hexadecimalLexeme opening rest).kind ≠ .malformed .unterminatedComment := by
  simp only [hexadecimalLexeme]
  split <;> simp

theorem decimalLexeme_ne_unterminatedComment (text : List Char) :
    (decimalLexeme text).kind ≠ .malformed .unterminatedComment := by
  simp only [decimalLexeme, DecimalText.kind]
  split
  · simp
  · split <;> simp

theorem numberLexeme_ne_unterminatedComment (text : List Char) :
    (numberLexeme text).kind ≠ .malformed .unterminatedComment := by
  unfold numberLexeme
  split
  · exact hexadecimalLexeme_ne_unterminatedComment _ _
  · exact hexadecimalLexeme_ne_unterminatedComment _ _
  · exact decimalLexeme_ne_unterminatedComment _

theorem TokenKind.ofWord_ne_malformed (word : String) (fault : LexicalFault) :
    ofWord word ≠ .malformed fault := by
  unfold ofWord
  repeat' split
  all_goals simp

theorem Lexer.lexeme_ne_unterminatedComment (regexpAllowed : Bool) (text : List Char) :
    (lexeme regexpAllowed text).kind ≠ .malformed .unterminatedComment := by
  cases text with
  | nil => simp [lexeme]
  | cons c rest =>
      simp only [lexeme]
      split
      · have body := stringBody_ne_unterminatedComment c .plain rest
        simp only [stringLexeme]
        split
        · simp
        · next fault result => simpa [result] using body
      · split
        · exact numberLexeme_ne_unterminatedComment _
        · split
          · simp
          · split
            · have body := regexpBody_ne_unterminatedComment false false rest
              simp only [regexpLexeme]
              split
              · simp
              · next fault result => simpa [result] using body
            · split
              · exact TokenKind.ofWord_ne_malformed _ _
              · split <;> simp

/-! ## Places -/

/-- What is owed for the place of a token in a text if the token before it ends
at the byte offset `last`. -/
structure Token.Lies (text : List Char) (last : Nat) (token : Token) : Prop where
  start_isBoundary : IsBoundary text token.span.start
  stop_isBoundary : IsBoundary text token.span.stop
  last_le_start : last ≤ token.span.start
  start_le_stop : token.span.start ≤ token.span.stop
  line_eq : token.span.origin.line = 1 + (slice text 0 token.span.start).count '\n'
  column_eq : token.span.origin.column = 1 + lengthSinceBreak (slice text 0 token.span.start)
  gap_fills : Gap.Filling (!token.isUnclosedComment) (slice text last token.span.start)
    (slice text token.span.start (byteLength text))
  afterLineBreak_iff : token.afterLineBreak = true ↔
    '\n' ∈ slice text last token.span.start ∧ token.isUnclosedComment = false
  advances : token.isEnd = false → last < token.span.stop
  at_end : token.isEnd = true →
    token.span.start = byteLength text ∧ token.span.stop = byteLength text

def Laid (text : List Char) : (last : Nat) → List Token → Prop
  | _, [] => True
  | last, token :: more => token.Lies text last ∧ Laid text token.span.stop more

theorem Position.offset_start_after (text : List Char) :
    (Position.start.after text).offset = byteLength text := by
  rw [offset_after]
  exact Nat.zero_add _

/-- The text around a token: what was passed over before, the gap, the body of
the token, and what comes after. -/
structure Token.Cuts (text : List Char) (token : Token) (passed gap body after : List Char) :
    Prop where
  text_eq : text = passed ++ (gap ++ (body ++ after))
  span_eq : token.span = ⟨Position.start.after (passed ++ gap),
    byteLength (passed ++ gap) + byteLength body⟩
  gap_fills : Gap.Filling (!token.isUnclosedComment) gap (body ++ after)
  afterLineBreak_iff : token.afterLineBreak = true ↔ '\n' ∈ gap ∧ token.isUnclosedComment = false
  progress : token.isEnd = false → gap ++ body ≠ []
  at_end : token.isEnd = true → body ++ after = []

section

variable {text passed gap body after : List Char} {token : Token}

theorem Token.Cuts.start_eq (cuts : token.Cuts text passed gap body after) :
    token.span.start = byteLength (passed ++ gap) := by
  rw [Span.start, cuts.span_eq, Position.offset_start_after]

theorem Token.Cuts.stop_eq (cuts : token.Cuts text passed gap body after) :
    token.span.stop = byteLength (passed ++ gap) + byteLength body := by
  rw [cuts.span_eq]

theorem Token.Cuts.slices (cuts : token.Cuts text passed gap body after) :
    slice text 0 token.span.start = passed ++ gap ∧
      slice text (byteLength passed) token.span.start = gap ∧
      slice text token.span.start (byteLength text) = body ++ after := by
  have before := slice_append [] (passed ++ gap) (body ++ after)
  have between := slice_append passed gap (body ++ after)
  have behind := slice_append (passed ++ gap) (body ++ after) []
  rw [cuts.start_eq, cuts.text_eq]
  simp only [byteLength_nil, byteLength_append, List.nil_append, List.append_nil, List.append_assoc,
    Nat.zero_add, Nat.add_assoc] at before between behind ⊢
  exact ⟨before, between, behind⟩

theorem Token.Cuts.lies (cuts : token.Cuts text passed gap body after) :
    token.Lies text (byteLength passed) := by
  obtain ⟨before, between, behind⟩ := cuts.slices
  have textLength : byteLength text =
      byteLength passed + byteLength gap + byteLength (body ++ after) := by
    rw [cuts.text_eq, byteLength_append, byteLength_append, Nat.add_assoc]
  constructor
  case start_isBoundary =>
    refine ⟨passed ++ gap, body ++ after, ?_, cuts.start_eq⟩
    rw [cuts.text_eq, List.append_assoc]
  case stop_isBoundary =>
    refine ⟨passed ++ gap ++ body, after, ?_, ?_⟩
    · rw [cuts.text_eq, List.append_assoc, List.append_assoc]
    · rw [cuts.stop_eq, byteLength_append (passed ++ gap)]
  case last_le_start =>
    rw [cuts.start_eq, byteLength_append]
    exact Nat.le_add_right _ _
  case start_le_stop =>
    rw [cuts.start_eq, cuts.stop_eq]
    exact Nat.le_add_right _ _
  case line_eq => rw [before, cuts.span_eq, Position.line_after]; rfl
  case column_eq => rw [before, cuts.span_eq, Position.column_start_after]
  case gap_fills =>
    rw [between, behind]
    exact cuts.gap_fills
  case afterLineBreak_iff =>
    rw [between]
    exact cuts.afterLineBreak_iff
  case advances =>
    intro inside
    have positive := byteLength_pos (cuts.progress inside)
    rw [byteLength_append] at positive
    rw [cuts.stop_eq, byteLength_append]
    omega
  case at_end =>
    intro isEnd
    have nothing := cuts.at_end isEnd
    rw [nothing, byteLength_nil] at textLength
    rw [(List.append_eq_nil_iff.mp nothing).1] at cuts
    rw [cuts.stop_eq, cuts.start_eq, byteLength_append, byteLength_nil, textLength]
    exact ⟨rfl, rfl⟩

end

namespace Lexer

/-- The next token cuts the text behind what was passed over, and the lexer goes
on behind it. -/
theorem next_cuts {text passed : List Char} {lexer : Lexer} (textEq : text = passed ++ lexer.rest)
    (positionEq : lexer.position = Position.start.after passed) :
    ∃ gap body, lexer.next.1.Cuts text passed gap body lexer.next.2.rest ∧
      lexer.next.2.position = Position.start.after (passed ++ gap ++ body) := by
  obtain ⟨fills, lineBreak⟩ := Gap.ofText_fills lexer.rest
  have gapSplit := lexer.skip_rest (Gap.ofText lexer.rest).length
  have afterGapEq : lexer.afterGap.position =
      Position.start.after (passed ++ lexer.rest.take (Gap.ofText lexer.rest).length) := by
    rw [Position.after_append, ← positionEq]
    rfl
  refine ⟨lexer.rest.take (Gap.ofText lexer.rest).length, ?_⟩
  cases closed : (Gap.ofText lexer.rest).closed with
  | true =>
      obtain ⟨tokenEq, restEq, nextEq⟩ := next_of_closed closed
      have isComment : lexer.next.1.isUnclosedComment = false := by
        rw [tokenEq]
        exact decide_eq_false (lexeme_ne_unterminatedComment _ _)
      have foundSplit := lexer.afterGap.skip_rest lexer.found.length
      refine ⟨lexer.afterGap.rest.take lexer.found.length, ⟨?_, ?_, ?_, ?_, ?_, ?_⟩, ?_⟩
      · rw [restEq, ← foundSplit]
        exact textEq.trans (congrArg _ gapSplit)
      · rw [tokenEq, afterGapEq, ← Position.offset_start_after, ← afterGapEq,
          ← Position.offset_after]
        rfl
      · rw [isComment, restEq, ← foundSplit]
        rw [closed] at fills
        exact fills
      · rw [isComment, tokenEq]
        exact lineBreak.trans (and_iff_left rfl).symm
      · intro inside
        rw [tokenEq] at inside
        exact List.append_ne_nil_of_right_ne_nil _
          (found_body_ne_nil (of_decide_eq_false inside))
      · intro isEnd
        rw [restEq, ← foundSplit]
        exact (rest_eq_nil_of_isEnd isEnd).1
      · rw [nextEq, Position.after_append, ← afterGapEq]
        rfl
  | false =>
      have nextEq := next_of_unclosed closed
      rw [nextEq]
      refine ⟨[], ⟨?_, ?_, ?_, ?_, ?_, nofun⟩, ?_⟩
      · exact textEq.trans (congrArg _ gapSplit)
      · rw [← Position.offset_start_after, ← afterGapEq]
        rfl
      · rw [closed] at fills
        exact fills
      · simp [Token.isUnclosedComment]
      · intro _
        rw [List.append_nil]
        exact gap_ne_nil (Gap.length_pos_of_unclosed rfl closed)
      · rw [List.append_nil]
        exact afterGapEq

theorem take_succ (count : Nat) (lexer : Lexer) :
    take (count + 1) lexer = lexer.next.1 :: take count lexer.next.2 := rfl

theorem take_laid {text passed : List Char} (count : Nat) {lexer : Lexer}
    (textEq : text = passed ++ lexer.rest)
    (positionEq : lexer.position = Position.start.after passed) :
    Laid text (byteLength passed) (take count lexer) := by
  induction count generalizing passed lexer with
  | zero => trivial
  | succ count induction =>
      obtain ⟨gap, body, cuts, nextEq⟩ := next_cuts textEq positionEq
      rw [take_succ]
      refine ⟨cuts.lies, ?_⟩
      rw [cuts.stop_eq, ← byteLength_append]
      apply induction _ nextEq
      rw [cuts.text_eq]
      simp

/-- A lexer returns something else at most as often as there are characters left,
and then the end for ever. -/
theorem take_isEnd (lexer : Lexer) :
    ∃ few ≤ lexer.rest.length, ∀ count, (take count lexer).map Token.isEnd =
      List.replicate (min few count) false ++ List.replicate (count - few) true := by
  induction size : lexer.rest.length using Nat.strong_induction_on generalizing lexer with
  | _ size induction =>
      cases isEnd : lexer.next.1.isEnd with
      | true =>
          refine ⟨0, Nat.zero_le _, fun count => ?_⟩
          rw [Nat.zero_min, Nat.sub_zero, List.replicate_zero, List.nil_append]
          clear size induction
          induction count generalizing lexer with
          | zero => rfl
          | succ count onwards =>
              have isEnd' : lexer.next.2.next.1.isEnd = true :=
                decide_eq_true (next_nil (rest_eq_nil_of_isEnd isEnd).2.1)
              rw [take_succ, List.map_cons, isEnd, onwards _ isEnd', List.replicate_succ]
      | false =>
          obtain ⟨few, atMost, ends⟩ :=
            induction _ (size ▸ next_rest_lt isEnd) lexer.next.2 rfl
          have shorter := next_rest_lt isEnd
          refine ⟨few + 1, by omega, fun count => ?_⟩
          cases count with
          | zero => simp [take]
          | succ count =>
              rw [take_succ, List.map_cons, isEnd, ends, Nat.succ_min_succ, List.replicate_succ,
                Nat.succ_sub_succ]
              rfl

end Lexer

/-- However many tokens are asked for, they lie one behind the other on the text,
with the places that one counts there. Each but the end takes something, so that
the end is reached after at most as many other tokens as the text has
characters, and from then on the end is all there is. -/
theorem tokens_lie_in_order (text : List Char) :
    (∀ count, Laid text 0 ((Lexer.ofText text).take count)) ∧
      ∃ few ≤ text.length, ∀ count, ((Lexer.ofText text).take count).map Token.isEnd =
        List.replicate (min few count) false ++ List.replicate (count - few) true :=
  ⟨fun count => @Lexer.take_laid text [] count (.ofText text) rfl rfl,
    Lexer.take_isEnd (.ofText text)⟩

end Qml
