import Qml.Proofs.Failures
import Qml.Proofs.Token.Relexing

/-! # Tokens of joined texts

Behind a token after which a regular expression may stand, the lexer is as fresh as
at the start of a text. Two texts joined by a line feed therefore have the tokens of
both if the first is in order and ends with such a token: those of the second stand
on later lines, the first of them at the beginning of a line. -/

namespace Qml

open Qml.Text

/-! ## Places in the second text -/

def Position.behind (before : List Char) (position : Position) : Position :=
  ⟨position.line + before.count '\n' + 1, position.column,
    position.offset + byteLength before + 1⟩

def Relabeling.behind (before : List Char) : Relabeling :=
  ⟨Position.behind before, (· + byteLength before + 1), id, id⟩

def Token.behind (before : List Char) (token : Token) : Token :=
  { token with span := token.span.relabel (.behind before) }

def Lexer.behind (before : List Char) (lexer : Lexer) : Lexer :=
  { lexer with position := lexer.position.behind before }

section

variable (before : List Char)

theorem Position.behind_step (position : Position) (c : Char) :
    (position.step c).behind before = (position.behind before).step c := by
  by_cases feed : c = '\n' <;> simp [step, behind, feed] <;> omega

theorem Position.behind_after (position : Position) (text : List Char) :
    (position.after text).behind before = (position.behind before).after text := by
  induction text generalizing position with
  | nil => rfl
  | cons c rest induction => rw [after_cons, after_cons, induction, behind_step]

theorem Position.behind_start : start.behind before = (start.after before).step '\n' := by
  have feed : '\n'.utf8Size = 1 := by decide
  unfold step
  rw [if_pos rfl, line_after, offset_after, feed]
  simp only [behind, start]

namespace Lexer

theorem skip_behind (lexer : Lexer) (count : Nat) :
    (lexer.behind before).skip count = (lexer.skip count).behind before := by
  simp only [behind, skip, Position.behind_after]

theorem reach_behind (lexer : Lexer) (lineBreak : Bool) :
    (lexer.behind before).reach lineBreak =
      ((lexer.reach lineBreak).1.behind before, (lexer.reach lineBreak).2.behind before) := by
  have found : lexeme (lexer.behind before).regexpAllowed (lexer.behind before).rest =
      lexeme lexer.regexpAllowed lexer.rest := rfl
  simp only [reach, found, skip_behind]
  split <;> rfl

theorem next_behind (lexer : Lexer) :
    (lexer.behind before).next = (lexer.next.1.behind before, lexer.next.2.behind before) := by
  have gap : Gap.ofText (lexer.behind before).rest = Gap.ofText lexer.rest := rfl
  have afterGap : (lexer.behind before).afterGap = lexer.afterGap.behind before :=
    lexer.skip_behind before _
  cases closed : (Gap.ofText lexer.rest).closed with
  | true =>
      rw [next_eq_reach (gap ▸ closed), next_eq_reach closed, gap, afterGap, reach_behind]
  | false =>
      rw [next_of_unclosed (gap ▸ closed), next_of_unclosed closed, afterGap]
      rfl

theorem takeToEnd_behind (bound : Nat) (lexer : Lexer) :
    (lexer.behind before).takeToEnd bound = (lexer.takeToEnd bound).map (Token.behind before) := by
  induction bound generalizing lexer with
  | zero => rfl
  | succ bound induction =>
      have isEnd : (lexer.next.1.behind before).isEnd = lexer.next.1.isEnd := rfl
      simp only [takeToEnd, next_behind, isEnd, induction]
      split <;> rfl

end Lexer

end

/-! ## The gap between the texts -/

namespace Gap

/-- A gap at the end of a text goes on behind a line feed. -/
theorem measure_append_lineBreak {mode : Mode} {gap : List Char}
    (whole : gap.length ≤ (measure mode gap).length) (closed : (measure mode gap).closed = true)
    (rest : List Char) :
    measure mode (gap ++ '\n' :: rest) =
      ⟨gap.length + 1 + (ofText rest).length, true, (ofText rest).closed⟩ := by
  fun_induction measure mode gap with
  | case1 => simp [measure, prependLineBreak, ofText, Nat.add_comm]
  | case2 front induction =>
      simp only [prepend, List.length_cons] at whole
      rw [List.cons_append, List.cons_append, measure, induction (by omega) closed]
      simp [prepend]
      omega
  | case3 front induction =>
      simp only [prepend, List.length_cons] at whole
      rw [List.cons_append, List.cons_append, measure, induction (by omega) closed]
      simp [prepend]
      omega
  | case4 front noLine noBlock induction =>
      simp only [prependLineBreak, List.length_cons] at whole
      rw [List.cons_append, measure_blank_cons (by simp), if_pos rfl, induction (by omega) closed]
      simp [prependLineBreak]
      omega
  | case5 c front noLine noBlock notBreak blank induction =>
      have notSlash : c ≠ '/' := by
        rintro rfl
        exact absurd blank (by decide)
      simp only [prepend, List.length_cons] at whole
      rw [List.cons_append, measure_blank_cons (fun slash => absurd slash notSlash),
        if_neg notBreak, if_pos blank, induction (by omega) closed]
      simp [prepend]
      omega
  | case6 c front noLine noBlock notBreak notBlank => simp [empty] at whole
  | case7 => simp [measure, prependLineBreak, ofText, Nat.add_comm]
  | case8 front induction =>
      simp only [prependLineBreak, List.length_cons] at whole
      rw [List.cons_append, measure, if_pos rfl, induction (by omega) closed]
      simp [prependLineBreak]
      omega
  | case9 c front notBreak induction =>
      simp only [prepend, List.length_cons] at whole
      rw [List.cons_append, measure, if_neg notBreak, induction (by omega) closed]
      simp [prepend]
      omega
  | case10 => cases closed
  | case11 front induction =>
      simp only [prepend, List.length_cons] at whole
      rw [List.cons_append, List.cons_append, measure, induction (by omega) closed]
      simp [prepend]
      omega
  | case12 c front apart induction =>
      rw [prependComment_length, List.length_cons] at whole
      rw [prependComment_closed] at closed
      have inside : c = '*' → (front ++ '\n' :: rest).head? ≠ some '/' := by
        rintro rfl
        cases front with
        | nil => simp
        | cons next front =>
            rw [List.cons_append, List.head?_cons, Ne, Option.some.injEq]
            rintro rfl
            exact apart front rfl rfl
      rw [List.cons_append, measure_blockComment_cons inside, induction (by omega) closed]
      unfold prependComment
      split <;> simp [prepend, prependLineBreak] <;> omega

end Gap

namespace Lexer

theorem takeToEnd_eq_takeToEnd {lexer : Lexer} {bound bound' : Nat}
    (enough : lexer.rest.length < bound) (enough' : lexer.rest.length < bound') :
    lexer.takeToEnd bound = lexer.takeToEnd bound' := by
  induction bound generalizing lexer bound' with
  | zero => exact absurd enough (Nat.not_lt_zero _)
  | succ bound induction =>
      obtain ⟨bound', rfl⟩ := Nat.exists_eq_succ_of_ne_zero (Nat.ne_zero_of_lt enough')
      simp only [takeToEnd]
      split
      · rfl
      · next notEnd =>
          have shorter := next_rest_lt (Bool.eq_false_iff.mpr notEnd)
          exact congrArg (lexer.next.1 :: ·) (induction (by omega) (by omega))

/-- Two lexers that differ in how they come to the next token read the same tokens,
up to the line break before the first. -/
theorem takeToEnd_eq_modifyHead {lexer other : Lexer} {lineBreak : Bool} {bound bound' : Nat}
    (next : other.next = ({ lexer.next.1 with afterLineBreak := lineBreak }, lexer.next.2))
    (enough : lexer.rest.length < bound) (enough' : other.rest.length < bound') :
    other.takeToEnd bound' =
      (lexer.takeToEnd bound).modifyHead ({ · with afterLineBreak := lineBreak }) := by
  obtain ⟨bound, rfl⟩ := Nat.exists_eq_succ_of_ne_zero (Nat.ne_zero_of_lt enough)
  obtain ⟨bound', rfl⟩ := Nat.exists_eq_succ_of_ne_zero (Nat.ne_zero_of_lt enough')
  have sameEnd : other.next.1.isEnd = lexer.next.1.isEnd := by rw [next]; rfl
  simp only [takeToEnd, sameEnd]
  split
  · rw [next]
    rfl
  · next notEnd =>
      have shorter := next_rest_lt (Bool.eq_false_iff.mpr notEnd)
      have shorter' := next_rest_lt (sameEnd.trans (Bool.eq_false_iff.mpr notEnd))
      have later : other.next.2 = lexer.next.2 := by rw [next]
      rw [later] at shorter'
      have more : takeToEnd bound' lexer.next.2 = takeToEnd bound lexer.next.2 :=
        takeToEnd_eq_takeToEnd (by omega) (by omega)
      rw [next, more]
      rfl

theorem next_of_takeToEnd {lexer : Lexer} {bound : Nat} {token : Token} {rest : List Token}
    (tokensEq : lexer.takeToEnd bound = token :: rest) : lexer.next.1 = token := by
  cases bound with
  | zero => cases tokensEq
  | succ bound =>
      simp only [takeToEnd] at tokensEq
      split at tokensEq
      · exact (List.cons.inj tokensEq).1
      · exact (List.cons.inj tokensEq).1

def followedBy (lexer : Lexer) (rest : List Char) : Lexer :=
  { lexer with rest := lexer.rest ++ '\n' :: rest }

theorem cut_lineBreak (text rest : List Char) : Cut text (text ++ '\n' :: rest) := by
  have cut : Cut (text ++ []) (text ++ '\n' :: rest) :=
    .append text (.here (by decide) [] rest)
  rwa [List.append_nil] at cut

theorem next_followedBy {lexer : Lexer} (solid : lexer.next.1.isSolid = true) (rest : List Char) :
    (lexer.followedBy rest).next = (lexer.next.1, lexer.next.2.followedBy rest) := by
  obtain ⟨gap, body, tile, -⟩ := lexer.next_tile
  have restEq : lexer.rest = (gap ++ body) ++ lexer.next.2.rest := by
    rw [tile.text_eq]
    simp
  have otherEq : (lexer.followedBy rest).rest =
      (gap ++ body) ++ (lexer.next.2.rest ++ '\n' :: rest) := by
    rw [followedBy, restEq]
    simp
  have here := next_eq_readAt solid
  have stop := congrArg (fun read : Token × Lexer => read.2.position) here
  rw [next_cut solid restEq (cut_lineBreak _ rest) otherEq rfl]
  exact Prod.ext (congrArg Prod.fst here).symm
    (congrArg (Lexer.mk _ · lexer.next.2.regexpAllowed) stop.symm)

theorem Passes.followedBy {lexer later : Lexer} {used : List Token}
    (passes : Passes lexer used later) (solid : ∀ token ∈ used, token.isSolid = true)
    (rest : List Char) : Passes (lexer.followedBy rest) used (later.followedBy rest) := by
  induction passes with
  | done lexer => exact .done _
  | @step lexer later used passes induction =>
      have next := next_followedBy (solid _ (List.mem_cons_self ..)) rest
      have more := induction fun token member => solid token (List.mem_cons_of_mem _ member)
      have step : Passes (lexer.followedBy rest) ((lexer.followedBy rest).next.1 :: used)
          (later.followedBy rest) := by
        refine .step ?_
        rw [next]
        exact more
      rwa [next] at step

/-- A gap at the end of the first text goes on up to the first token of the second. -/
theorem afterGap_followedBy {lexer : Lexer} (allowed : lexer.regexpAllowed = true)
    (isEnd : lexer.next.1.isEnd = true) (rest : List Char) :
    Gap.ofText (lexer.followedBy rest).rest =
        ⟨lexer.rest.length + 1 + (Gap.ofText rest).length, true, (Gap.ofText rest).closed⟩ ∧
      (lexer.followedBy rest).afterGap =
        (Lexer.mk rest ((lexer.position.after lexer.rest).step '\n') true).afterGap := by
  have nothing := (rest_eq_nil_of_isEnd isEnd).1
  have whole : lexer.rest.length ≤ (Gap.ofText lexer.rest).length := by
    simpa [afterGap, skip, List.drop_eq_nil_iff] using nothing
  have closed : (Gap.ofText lexer.rest).closed = true := by
    cases closed : (Gap.ofText lexer.rest).closed with
    | true => rfl
    | false =>
        rw [next_of_unclosed closed] at isEnd
        cases isEnd
  have gapEq : Gap.ofText (lexer.followedBy rest).rest = _ :=
    Gap.measure_append_lineBreak whole closed rest
  refine ⟨gapEq, ?_⟩
  unfold afterGap
  rw [gapEq]
  have split : lexer.rest ++ '\n' :: rest = (lexer.rest ++ ['\n']) ++ rest := by simp
  have length : lexer.rest.length + 1 = (lexer.rest ++ ['\n']).length := by simp
  simp only [skip, followedBy, allowed, Lexer.mk.injEq, and_true]
  rw [split, length, List.drop_length_add_append, List.take_length_add_append,
    Position.after_append, Position.after_append]
  exact ⟨rfl, rfl⟩

theorem Passes.regexpAllowed_eq {lexer later : Lexer} {used : List Token} {mark : Token}
    (passes : Passes lexer (used ++ [mark]) later) (solid : mark.isSolid = true) :
    later.regexpAllowed = mark.kind.allowsRegexpAfter := by
  generalize allEq : used ++ [mark] = all at passes
  induction passes generalizing used with
  | done lexer => simp at allEq
  | @step lexer later all rest induction =>
      cases used with
      | nil =>
          obtain ⟨rfl, rfl⟩ := List.cons.inj allEq
          cases rest
          rw [next_of_inside (closed_of_solid solid) (found_of_solid solid).1]
      | cons first used => exact induction (List.cons.inj allEq).2

end Lexer

/-- The tokens of a text as they come behind another text and a line feed. -/
def tokensBehind (before text : List Char) : List Token :=
  ((tokens text).map (Token.behind before)).modifyHead ({ · with afterLineBreak := true })

theorem tokensBehind_eq (before : List Char) {text : List Char} {token : Token} {rest : List Token}
    (tokensEq : tokens text = token :: rest) : tokensBehind before text =
      { token.behind before with afterLineBreak := true } :: rest.map (Token.behind before) := by
  rw [tokensBehind, tokensEq]
  rfl

/-- Behind a text that ends with a token after which a regular expression may stand,
the tokens of another one come as they are. -/
theorem tokens_append_lineBreak {first second : List Char} {front rest : List Token}
    {mark last token : Token} (firstEq : tokens first = front ++ [mark, last])
    (solid : ∀ token ∈ front ++ [mark], token.isSolid = true)
    (allows : mark.kind.allowsRegexpAfter = true) (secondEq : tokens second = token :: rest)
    (wellFormed : token.isMalformed = false) :
    tokens (first ++ '\n' :: second) = front ++ mark :: tokensBehind first second := by
  have firstEq' : (Lexer.ofText first).takeToEnd (first.length + 1) =
      (front ++ [mark]) ++ [last] := by
    rw [List.append_assoc]
    exact firstEq
  obtain ⟨later, left, passes, leftEq⟩ := Lexer.Passes.of_takeToEnd firstEq' (List.cons_ne_nil _ _)
  have lastEnd : later.next.1.isEnd = true := by
    rw [Lexer.next_of_takeToEnd leftEq, isEnd_of_tokens_eq firstEq']
  have allowed : later.regexpAllowed = true :=
    (passes.regexpAllowed_eq (solid mark (by simp))).trans allows
  have position : (later.position.after later.rest).step '\n' = Position.start.behind first := by
    obtain ⟨taken, takenEq, positionEq⟩ := passes.exists_taken
    have firstText : first = taken ++ later.rest := takenEq
    rw [positionEq, ← Position.after_append, ← firstText, Position.behind_start]
    rfl
  have closed : (Gap.ofText second).closed = true := by
    cases closed : (Gap.ofText second).closed with
    | true => rfl
    | false =>
        have unclosed : (Gap.ofText (Lexer.ofText second).rest).closed = false := closed
        have malformed := Lexer.next_of_takeToEnd secondEq
        rw [Lexer.next_of_unclosed unclosed] at malformed
        rw [← malformed] at wellFormed
        cases wellFormed
  -- Behind the line feed, the lexer comes to the first token of the second text.
  obtain ⟨gapEq, afterGapEq⟩ := Lexer.afterGap_followedBy allowed lastEnd second
  rw [position] at afterGapEq
  have same : (later.followedBy second).afterGap = ((Lexer.ofText second).behind first).afterGap :=
    afterGapEq
  have next := Lexer.next_of_afterGap_eq same closed (by rw [gapEq]; exact closed)
  rw [gapEq] at next
  obtain ⟨left', enough, wholeEq⟩ := (passes.followedBy solid second).takeToEnd_eq
    (fun token member => Token.isEnd_of_isSolid (solid token member)) (Nat.lt_succ_self _)
  rw [Lexer.takeToEnd_eq_modifyHead next (Nat.lt_succ_self _) enough,
    Lexer.takeToEnd_behind] at wholeEq
  have wholeEq' : tokens (first ++ '\n' :: second) = _ := wholeEq
  rw [wholeEq', List.append_assoc]
  rfl

end Qml
