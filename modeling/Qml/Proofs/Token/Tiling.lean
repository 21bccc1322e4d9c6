import Qml.Token.Lexer

/-! # Tokens tile a text

The lexer takes a gap and a lexeme off the front of what is left of a text, and
goes on behind them. The spans of the tokens therefore lie one behind the other
on the text, and only the end of the text and an unclosed comment have an empty
one. -/

namespace Qml

/-- Whether a token stands for some text that the grammar can use: it is neither
malformed nor the end. -/
def Token.isSolid (token : Token) : Bool := !token.isEnd && !token.isMalformed

theorem Token.isEnd_of_isSolid {token : Token} (solid : token.isSolid = true) :
    token.isEnd = false := by
  simp only [isSolid, Bool.and_eq_true, Bool.not_eq_true'] at solid
  exact solid.1

theorem Token.isMalformed_of_isSolid {token : Token} (solid : token.isSolid = true) :
    token.isMalformed = false := by
  simp only [isSolid, Bool.and_eq_true, Bool.not_eq_true'] at solid
  exact solid.2

theorem Token.exists_value_of_isNumber {token : Token} (number : token.isNumber = true) :
    ∃ value, token.kind = .number value := by
  simp only [isNumber] at number
  split at number
  case h_1 value kind => exact ⟨value, kind⟩
  case h_2 => cases number

theorem Token.isMalformed_of_isEnd {token : Token} (isEnd : token.isEnd = true) :
    token.isMalformed = false := by
  have kind : token.kind = .endOfInput := of_decide_eq_true isEnd
  simp [isMalformed, kind]

/-! ## Gaps -/

namespace Gap

theorem prependComment_length (gap : Gap) (c : Char) :
    (gap.prependComment c).length = gap.length + 1 := by
  unfold prependComment
  split <;> rfl

theorem prependComment_closed (gap : Gap) (c : Char) :
    (gap.prependComment c).closed = gap.closed := by
  unfold prependComment
  split <;> rfl

theorem length_pos_of_lineBreak {mode : Mode} {text : List Char}
    (broken : (measure mode text).lineBreak = true) : 0 < (measure mode text).length := by
  fun_induction measure mode text
  case case12 => rw [prependComment_length]; exact Nat.succ_pos _
  all_goals simp_all [prepend, prependLineBreak, empty, unclosed]

theorem length_pos_of_unclosed {mode : Mode} {text : List Char} (blank : mode = .blank)
    (unclosed : (measure mode text).closed = false) : 0 < (measure mode text).length := by
  fun_induction measure mode text <;> simp_all [prepend, prependLineBreak, empty]

end Gap

/-! ## Lexemes -/

def TokenKind.isLexical : TokenKind → Bool
  | .punctuation _ | .endOfInput => false
  | _ => true

theorem TokenKind.isLexical_ofWord (word : String) : (ofWord word).isLexical = true := by
  unfold ofWord
  repeat' split
  all_goals rfl

def Lexeme.Proper (lexeme : Lexeme) : Prop := 0 < lexeme.length ∧ lexeme.kind.isLexical = true

theorem stringLexeme_proper (quote : Char) (rest : List Char) :
    (stringLexeme quote rest).Proper := by
  simp only [stringLexeme]
  split <;> exact ⟨Nat.succ_pos _, rfl⟩

theorem regexpLexeme_proper (rest : List Char) : (regexpLexeme rest).Proper := by
  simp only [regexpLexeme]
  split <;> exact ⟨Nat.succ_pos _, rfl⟩

theorem hexadecimalLexeme_proper (c : Char) (opening rest : List Char) :
    (hexadecimalLexeme (c :: opening) rest).Proper := by
  simp only [hexadecimalLexeme]
  split <;> exact ⟨by simp, rfl⟩

def startsNumber (c : Char) (rest : List Char) : Bool :=
  c.isDigit || (c = '.' && rest.head?.any Char.isDigit)

theorem DecimalText.length_pos {c : Char} {rest : List Char} (starts : startsNumber c rest = true) :
    0 < (DecimalText.ofText (c :: rest)).length := by
  simp only [startsNumber, Bool.or_eq_true, Bool.and_eq_true, decide_eq_true_eq] at starts
  rcases starts with digit | ⟨rfl, -⟩
  · simp only [DecimalText.length, ofText, List.takeWhile_cons, digit]
    simp only [if_true, List.length_cons]
    omega
  · have point : ¬ '.'.isDigit = true := by decide
    simp only [DecimalText.length, ofText, List.takeWhile_cons, if_neg point, List.length_nil,
      List.drop_zero, fraction?, partLength]
    omega

theorem DecimalText.isLexical_kind (decimal : DecimalText) (spelling : List Char) :
    (decimal.kind spelling).isLexical = true := by
  unfold DecimalText.kind
  split <;> rfl

theorem numberLexeme_proper {c : Char} {rest : List Char} (starts : startsNumber c rest = true) :
    (numberLexeme (c :: rest)).Proper := by
  unfold numberLexeme
  split
  · exact hexadecimalLexeme_proper ..
  · exact hexadecimalLexeme_proper ..
  · simp only [decimalLexeme]
    split
    · exact ⟨Nat.succ_pos _, rfl⟩
    · exact ⟨DecimalText.length_pos starts, DecimalText.isLexical_kind ..⟩

theorem Operator.text_length_pos (operator : Operator) : 0 < operator.text.length := by
  cases operator <;> decide

namespace Lexer

theorem lexeme_cons (regexpAllowed : Bool) (c : Char) (rest : List Char) :
    (lexeme regexpAllowed (c :: rest) = ⟨.punctuation c, 1⟩) ∨
      (lexeme regexpAllowed (c :: rest)).Proper := by
  simp only [lexeme]
  split
  · exact .inr (stringLexeme_proper ..)
  · split
    · next starts => exact .inr (numberLexeme_proper starts)
    · split
      · exact .inl rfl
      · split
        · exact .inr (regexpLexeme_proper _)
        · split
          · next starts =>
              refine .inr ⟨?_, TokenKind.isLexical_ofWord _⟩
              simp [isNamePart, starts]
          · split
            · exact .inr ⟨Operator.text_length_pos _, rfl⟩
            · exact .inr ⟨Nat.one_pos, rfl⟩

end Lexer

/-! ## Tiles -/

/-- A token covers the `body` of a text, after a `gap`. The text begins at
`position`, and `after` is what follows the token. -/
structure Tile (position : Position) (text : List Char) (token : Token)
    (gap body after : List Char) : Prop where
  text_eq : text = gap ++ (body ++ after)
  span_eq : token.span = ⟨position.after gap, (position.after gap).offset + Text.byteLength body⟩
  spelling : token.text = String.ofList body
  gap_ne_nil : token.afterLineBreak = true → gap ≠ []
  body_ne_nil : token.isSolid = true → body ≠ []
  body_eq_mark : ∀ mark, token.isPunctuation mark = true → body = [mark]
  progress : token.isEnd = false → gap ++ body ≠ []

/-- The tokens lie one behind the other on a text that begins at `position`. -/
def Tiled (position : Position) (text : List Char) : List Token → Prop
  | [] => True
  | token :: more => ∃ gap body after, Tile position text token gap body after ∧
      Tiled (position.after (gap ++ body)) after more

theorem Tiled.offset_le_start {position : Position} {text : List Char} {tokens : List Token}
    (tiled : Tiled position text tokens) {token : Token} (member : token ∈ tokens) :
    position.offset ≤ token.span.start := by
  induction tokens generalizing position text with
  | nil => cases member
  | cons first more induction =>
      obtain ⟨gap, body, after, tile, rest⟩ := tiled
      rcases List.mem_cons.mp member with rfl | later
      · rw [Span.start, tile.span_eq, Position.offset_after]
        exact Nat.le_add_right _ _
      · have behind := induction rest later
        rw [Position.offset_after] at behind
        omega

theorem Tiled.start_le_stop {position : Position} {text : List Char} {tokens : List Token}
    (tiled : Tiled position text tokens) {token : Token} (member : token ∈ tokens) :
    token.span.start ≤ token.span.stop := by
  induction tokens generalizing position text with
  | nil => cases member
  | cons first more induction =>
      obtain ⟨gap, body, after, tile, rest⟩ := tiled
      rcases List.mem_cons.mp member with rfl | later
      · rw [Span.start, tile.span_eq]
        exact Nat.le_add_right _ _
      · exact induction rest later

namespace Lexer

theorem skip_rest (lexer : Lexer) (count : Nat) :
    lexer.rest = lexer.rest.take count ++ (lexer.skip count).rest :=
  (List.take_append_drop count lexer.rest).symm

def afterGap (lexer : Lexer) : Lexer := lexer.skip (Gap.ofText lexer.rest).length

def found (lexer : Lexer) : Lexeme := lexeme lexer.regexpAllowed lexer.afterGap.rest

theorem next_of_closed {lexer : Lexer} (closed : (Gap.ofText lexer.rest).closed = true) :
    lexer.next.1 = ⟨lexer.found.kind,
        ⟨lexer.afterGap.position, (lexer.afterGap.skip lexer.found.length).position.offset⟩,
        (Gap.ofText lexer.rest).lineBreak,
        String.ofList (lexer.afterGap.rest.take lexer.found.length)⟩ ∧
      lexer.next.2.rest = (lexer.afterGap.skip lexer.found.length).rest ∧
      lexer.next.2.position = (lexer.afterGap.skip lexer.found.length).position := by
  simp only [next, closed, if_true]
  split <;> exact ⟨rfl, rfl, rfl⟩

theorem next_of_unclosed {lexer : Lexer} (unclosed : (Gap.ofText lexer.rest).closed = false) :
    lexer.next = (⟨.malformed .unterminatedComment,
      ⟨lexer.afterGap.position, lexer.afterGap.position.offset⟩, false, ""⟩, lexer.afterGap) := by
  simp only [next, unclosed]
  rfl

theorem afterGap_rest (lexer : Lexer) :
    lexer.afterGap.rest = lexer.next.1.text.toList ++ lexer.next.2.rest := by
  cases closed : (Gap.ofText lexer.rest).closed with
  | false =>
      rw [next_of_unclosed closed]
      rfl
  | true =>
      obtain ⟨tokenEq, restEq, -⟩ := next_of_closed closed
      rw [restEq, tokenEq, String.toList_ofList]
      exact skip_rest _ _

theorem found_cons {lexer : Lexer} (left : lexer.afterGap.rest ≠ []) :
    (∃ mark rest, lexer.afterGap.rest = mark :: rest ∧ lexer.found = ⟨.punctuation mark, 1⟩) ∨
      lexer.found.Proper := by
  obtain ⟨c, rest, restEq⟩ := List.exists_cons_of_ne_nil left
  unfold found
  rw [restEq]
  rcases lexeme_cons lexer.regexpAllowed c rest with mark | proper
  · exact .inl ⟨c, rest, rfl, mark⟩
  · exact .inr proper

theorem found_nil {lexer : Lexer} (left : lexer.afterGap.rest = []) :
    lexer.found = ⟨.endOfInput, 0⟩ := by
  unfold found
  rw [left]
  rfl

theorem rest_eq_nil_of_isEnd {lexer : Lexer} (isEnd : lexer.next.1.isEnd = true) :
    lexer.afterGap.rest = [] ∧ lexer.next.2.rest = [] ∧ lexer.next.1.text = "" := by
  cases closed : (Gap.ofText lexer.rest).closed with
  | false =>
      rw [next_of_unclosed closed] at isEnd
      cases isEnd
  | true =>
      obtain ⟨tokenEq, restEq, -⟩ := next_of_closed closed
      have kind : lexer.found.kind = .endOfInput := by
        rw [tokenEq] at isEnd
        exact of_decide_eq_true isEnd
      have nothing : lexer.afterGap.rest = [] := by
        apply Decidable.byContradiction
        intro left
        rcases found_cons left with ⟨mark, rest, -, foundEq⟩ | proper
        · rw [foundEq] at kind
          cases kind
        · have lexical := proper.2
          rw [kind] at lexical
          cases lexical
      rw [restEq, tokenEq]
      unfold Lexer.skip
      rw [nothing, List.drop_nil, List.take_nil]
      exact ⟨rfl, rfl, rfl⟩

theorem found_body_ne_nil {lexer : Lexer} (inside : lexer.found.kind ≠ .endOfInput) :
    lexer.afterGap.rest.take lexer.found.length ≠ [] := by
  have left : lexer.afterGap.rest ≠ [] := by
    intro nothing
    rw [found_nil nothing] at inside
    exact inside rfl
  have positive : 0 < lexer.found.length := by
    rcases found_cons left with ⟨mark, rest, -, foundEq⟩ | proper
    · rw [foundEq]
      exact Nat.one_pos
    · exact proper.1
  rw [Ne, List.take_eq_nil_iff, not_or]
  exact ⟨Nat.ne_of_gt positive, left⟩

theorem found_body_eq_mark {lexer : Lexer} {mark : Char}
    (isMark : lexer.found.kind = .punctuation mark) :
    lexer.afterGap.rest.take lexer.found.length = [mark] := by
  have left : lexer.afterGap.rest ≠ [] := by
    intro nothing
    rw [found_nil nothing] at isMark
    cases isMark
  rcases found_cons left with ⟨first, rest, restEq, foundEq⟩ | proper
  · rw [foundEq] at isMark ⊢
    cases isMark
    rw [restEq]
    rfl
  · have lexical := proper.2
    rw [isMark] at lexical
    cases lexical

theorem gap_ne_nil {lexer : Lexer} (positive : 0 < (Gap.ofText lexer.rest).length) :
    lexer.rest.take (Gap.ofText lexer.rest).length ≠ [] := by
  rw [Ne, List.take_eq_nil_iff, not_or]
  refine ⟨Nat.ne_of_gt positive, ?_⟩
  intro nothing
  rw [nothing] at positive
  exact absurd positive (by decide)

theorem next_tile (lexer : Lexer) :
    ∃ gap body, Tile lexer.position lexer.rest lexer.next.1 gap body lexer.next.2.rest ∧
      lexer.next.2.position = lexer.position.after (gap ++ body) := by
  have gapSplit := lexer.skip_rest (Gap.ofText lexer.rest).length
  cases closed : (Gap.ofText lexer.rest).closed with
  | true =>
      obtain ⟨tokenEq, restEq, positionEq⟩ := next_of_closed closed
      have foundSplit := lexer.afterGap.skip_rest lexer.found.length
      refine ⟨lexer.rest.take (Gap.ofText lexer.rest).length,
        lexer.afterGap.rest.take lexer.found.length, ⟨?_, ?_, ?_, ?_, ?_, ?_, ?_⟩, ?_⟩
      · rw [restEq, ← foundSplit]
        exact gapSplit
      · rw [tokenEq]
        exact congrArg (Span.mk _) (Position.offset_after _ _)
      · rw [tokenEq]
      · rw [tokenEq]
        intro broken
        exact gap_ne_nil (Gap.length_pos_of_lineBreak broken)
      · rw [tokenEq]
        intro solid
        apply found_body_ne_nil
        intro atEnd
        simp [Token.isSolid, Token.isEnd, atEnd] at solid
      · rw [tokenEq]
        intro mark isMark
        exact found_body_eq_mark (of_decide_eq_true isMark)
      · rw [tokenEq]
        intro inside
        exact List.append_ne_nil_of_right_ne_nil _
          (found_body_ne_nil (of_decide_eq_false inside))
      · rw [positionEq, Position.after_append]
        rfl
  | false =>
      rw [next_of_unclosed closed]
      refine ⟨lexer.rest.take (Gap.ofText lexer.rest).length, [], ⟨?_, rfl, rfl, ?_, ?_, ?_, ?_⟩,
        ?_⟩
      · exact gapSplit
      · simp
      · simp [Token.isSolid, Token.isMalformed]
      · simp [Token.isPunctuation]
      · intro _
        rw [List.append_nil]
        exact gap_ne_nil (Gap.length_pos_of_unclosed rfl closed)
      · rw [List.append_nil]
        rfl

theorem takeToEnd_tiled (bound : Nat) (lexer : Lexer) :
    Tiled lexer.position lexer.rest (takeToEnd bound lexer) := by
  induction bound generalizing lexer with
  | zero => trivial
  | succ bound induction =>
      obtain ⟨gap, body, tile, positionEq⟩ := lexer.next_tile
      simp only [takeToEnd]
      split
      · exact ⟨gap, body, _, tile, trivial⟩
      · refine ⟨gap, body, _, tile, ?_⟩
        rw [← positionEq]
        exact induction _

theorem next_rest_lt {lexer : Lexer} (inside : lexer.next.1.isEnd = false) :
    lexer.next.2.rest.length < lexer.rest.length := by
  obtain ⟨gap, body, tile, -⟩ := lexer.next_tile
  have lengthEq := congrArg List.length tile.text_eq
  have taken := List.length_pos_iff.mpr (tile.progress inside)
  simp only [List.length_append] at lengthEq taken
  omega

/-- Enough tokens reach the end of the text, and no token before the last one is
the end. -/
theorem takeToEnd_ends (bound : Nat) (lexer : Lexer) (enough : lexer.rest.length < bound) :
    ∃ before last, takeToEnd bound lexer = before ++ [last] ∧ last.isEnd = true ∧
      ∀ token ∈ before, token.isEnd = false := by
  induction bound generalizing lexer with
  | zero => exact absurd enough (Nat.not_lt_zero _)
  | succ bound induction =>
      simp only [takeToEnd]
      split
      · next isEnd => exact ⟨[], _, rfl, isEnd, by simp⟩
      · next notEnd =>
          have notEnd := Bool.eq_false_iff.mpr notEnd
          have shorter := next_rest_lt notEnd
          obtain ⟨before, last, tokensEq, lastEnd, beforeEnd⟩ := induction lexer.next.2 (by omega)
          refine ⟨lexer.next.1 :: before, last, by rw [tokensEq]; rfl, lastEnd, ?_⟩
          simpa [notEnd] using beforeEnd

end Lexer

theorem tokens_tiled (text : List Char) : Tiled .start text (tokens text) :=
  Lexer.takeToEnd_tiled _ (.ofText text)

theorem tokens_end (text : List Char) :
    ∃ before last, tokens text = before ++ [last] ∧ last.isEnd = true ∧
      ∀ token ∈ before, token.isEnd = false :=
  Lexer.takeToEnd_ends _ (.ofText text) (Nat.lt_succ_self _)

theorem exists_tokens_eq_cons (text : List Char) : ∃ token rest, tokens text = token :: rest := by
  obtain ⟨before, last, tokensEq, -⟩ := tokens_end text
  exact List.exists_cons_of_ne_nil (by simp [tokensEq])

theorem isEnd_of_tokens_eq {text : List Char} {before : List Token} {last : Token}
    (tokensEq : tokens text = before ++ [last]) : last.isEnd = true := by
  obtain ⟨before', ending, endingEq, isEnd, -⟩ := tokens_end text
  rw [← List.singleton_inj.mp (List.append_inj' (endingEq.symm.trans tokensEq) rfl).2, isEnd]

theorem isMalformed_of_tokens_eq {text : List Char} {before : List Token} {last : Token}
    (tokensEq : tokens text = before ++ [last]) (solid : ∀ token ∈ before, token.isSolid = true) :
    ∀ token ∈ tokens text, token.isMalformed = false := by
  intro token member
  rw [tokensEq, List.mem_append, List.mem_singleton] at member
  rcases member with inside | rfl
  · exact Token.isMalformed_of_isSolid (solid token inside)
  · exact Token.isMalformed_of_isEnd (isEnd_of_tokens_eq tokensEq)

end Qml
