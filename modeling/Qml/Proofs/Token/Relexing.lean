import Qml.Proofs.Relabeling
import Qml.Proofs.Token.Locality

/-! # Reading tokens again

A stretch of a text that the lexer has cut into solid tokens is cut into the same
tokens in any other text, as long as a separator follows it there. -/

namespace Qml.Lexer

open Qml.Text

inductive Passes : Lexer → List Token → Lexer → Prop
  | done (lexer : Lexer) : Passes lexer [] lexer
  | step {lexer later : Lexer} {used : List Token} (rest : Passes lexer.next.2 used later) :
      Passes lexer (lexer.next.1 :: used) later

namespace Passes

variable {lexer middle later : Lexer} {used more : List Token}

theorem append (one : Passes lexer used middle) (two : Passes middle more later) :
    Passes lexer (used ++ more) later := by
  induction one with
  | done => exact two
  | step rest induction => exact .step (induction two)

theorem cons_inv {token : Token} (passes : Passes lexer (token :: used) later) :
    token = lexer.next.1 ∧ Passes lexer.next.2 used later := by
  cases passes with
  | step rest => exact ⟨rfl, rest⟩

theorem exists_taken (passes : Passes lexer used later) :
    ∃ taken, lexer.rest = taken ++ later.rest ∧
      later.position = lexer.position.after taken := by
  induction passes with
  | done lexer => exact ⟨[], rfl, rfl⟩
  | @step lexer later used rest induction =>
      obtain ⟨gap, body, tile, positionEq⟩ := lexer.next_tile
      obtain ⟨taken, restEq, laterEq⟩ := induction
      refine ⟨gap ++ body ++ taken, ?_, ?_⟩
      · rw [tile.text_eq, restEq]
        simp
      · rw [laterEq, positionEq, ← Position.after_append]

theorem takeToEnd_eq (passes : Passes lexer used later)
    (inside : ∀ token ∈ used, token.isEnd = false) {bound : Nat}
    (enough : lexer.rest.length < bound) :
    ∃ left, later.rest.length < left ∧ takeToEnd bound lexer = used ++ takeToEnd left later := by
  induction passes generalizing bound with
  | done lexer => exact ⟨bound, enough, rfl⟩
  | @step lexer later used rest induction =>
      cases bound with
      | zero => exact absurd enough (Nat.not_lt_zero _)
      | succ bound =>
          have notEnd := inside _ (List.mem_cons_self ..)
          have shorter := next_rest_lt notEnd
          obtain ⟨left, enough', tokensEq⟩ := induction
            (fun token member => inside token (List.mem_cons_of_mem _ member))
            (Nat.lt_of_lt_of_le shorter (Nat.le_of_lt_succ enough))
          refine ⟨left, enough', ?_⟩
          simp only [takeToEnd, notEnd]
          rw [tokensEq]
          rfl

theorem of_takeToEnd {bound : Nat} {lexer : Lexer} {used rest : List Token}
    (tokensEq : takeToEnd bound lexer = used ++ rest) (more : rest ≠ []) :
    ∃ later left, Passes lexer used later ∧ takeToEnd left later = rest := by
  induction used generalizing bound lexer with
  | nil => exact ⟨lexer, bound, .done lexer, tokensEq⟩
  | cons token used induction =>
      cases bound with
      | zero => cases tokensEq
      | succ bound =>
          simp only [takeToEnd] at tokensEq
          split at tokensEq
          · have nothing : used ++ rest = [] := by
              obtain ⟨-, nothing⟩ := List.cons.inj tokensEq
              exact nothing.symm
            exact absurd (List.append_eq_nil_iff.mp nothing).2 more
          · obtain ⟨first, restEq⟩ := List.cons.inj tokensEq
            obtain ⟨later, left, passes, leftEq⟩ := induction restEq
            rw [← first]
            exact ⟨later, left, .step passes, leftEq⟩

end Passes

/-! ## One token -/

theorem closed_of_solid {lexer : Lexer} (solid : lexer.next.1.isSolid = true) :
    (Gap.ofText lexer.rest).closed = true := by
  cases closed : (Gap.ofText lexer.rest).closed with
  | true => rfl
  | false =>
      rw [next_of_unclosed closed] at solid
      cases solid

theorem found_of_solid {lexer : Lexer} (solid : lexer.next.1.isSolid = true) :
    lexer.found.kind ≠ .endOfInput ∧ ∀ fault, lexer.found.kind ≠ .malformed fault := by
  rw [(next_of_closed (closed_of_solid solid)).1] at solid
  refine ⟨?_, fun fault => ?_⟩
  · intro atEnd
    simp [Token.isSolid, Token.isEnd, atEnd] at solid
  · intro malformed
    simp [Token.isSolid, Token.isMalformed, malformed] at solid

theorem next_of_inside {lexer : Lexer} (closed : (Gap.ofText lexer.rest).closed = true)
    (inside : lexer.found.kind ≠ .endOfInput) :
    lexer.next = (⟨lexer.found.kind,
        ⟨lexer.afterGap.position, (lexer.afterGap.skip lexer.found.length).position.offset⟩,
        (Gap.ofText lexer.rest).lineBreak,
        String.ofList (lexer.afterGap.rest.take lexer.found.length)⟩,
      ⟨lexer.afterGap.rest.drop lexer.found.length,
        (lexer.afterGap.skip lexer.found.length).position,
        lexer.found.kind.allowsRegexpAfter⟩) := by
  simp only [next, closed, if_true]
  split
  · next isEnd => exact absurd (of_decide_eq_true isEnd) inside
  · rfl

theorem length_taken {lexer : Lexer} {taken : List Char} (solid : lexer.next.1.isSolid = true)
    (restEq : lexer.rest = taken ++ lexer.next.2.rest) :
    (Gap.ofText lexer.rest).length + lexer.found.length = taken.length ∧
      0 < lexer.found.length := by
  obtain ⟨inside, whole⟩ := found_of_solid solid
  have body := found_body_ne_nil inside
  have within : lexer.found.length ≤ lexer.afterGap.rest.length := lexeme_length_le whole
  have positive : 0 < lexer.found.length := Nat.pos_of_ne_zero fun none => body (by simp [none])
  refine ⟨?_, positive⟩
  rw [next_of_inside (closed_of_solid solid) inside] at restEq
  have lengthEq := congrArg List.length restEq
  unfold Lexer.afterGap Lexer.skip at within lengthEq
  simp only [List.length_append, List.length_drop] at within lengthEq
  omega

theorem found_cut {lexer other : Lexer} {taken rest' : List Char}
    (solid : lexer.next.1.isSolid = true) (restEq : lexer.rest = taken ++ lexer.next.2.rest)
    (cut : Cut lexer.next.2.rest rest') (otherEq : other.rest = taken ++ rest')
    (allowed : other.regexpAllowed = lexer.regexpAllowed) :
    Gap.ofText other.rest = Gap.ofText lexer.rest ∧ other.found = lexer.found ∧
      other.rest.take (Gap.ofText lexer.rest).length =
        lexer.rest.take (Gap.ofText lexer.rest).length ∧
      other.afterGap.rest = lexer.afterGap.rest.take lexer.found.length ++ rest' := by
  have closed := closed_of_solid solid
  obtain ⟨inside, whole⟩ := found_of_solid solid
  obtain ⟨lengthEq, positive⟩ := length_taken solid restEq
  have agree : Agree taken.length lexer.rest other.rest := by
    rw [restEq, otherEq]
    exact .append taken cut
  have shorter : (Gap.ofText lexer.rest).length < taken.length := by omega
  have gapEq : Gap.ofText other.rest = Gap.ofText lexer.rest :=
    Gap.measure_agree agree closed shorter
  have afterGap : Agree lexer.found.length lexer.afterGap.rest other.afterGap.rest := by
    have dropped := agree.drop (Gap.ofText lexer.rest).length (by omega)
    have countEq : taken.length - (Gap.ofText lexer.rest).length = lexer.found.length := by omega
    rw [countEq] at dropped
    unfold Lexer.afterGap
    rw [gapEq]
    exact dropped
  have foundEq : other.found = lexer.found := by
    obtain ⟨c, rest, front⟩ := List.exists_cons_of_ne_nil (afterGap.ne_nil positive)
    obtain ⟨rest'', front', tails⟩ := afterGap.cons_inv front positive
    unfold Lexer.found at whole tails ⊢
    rw [front] at whole tails ⊢
    rw [allowed, front']
    exact lexeme_agree tails whole (by omega)
  have left : other.afterGap.rest.drop lexer.found.length = rest' := by
    unfold Lexer.afterGap Lexer.skip
    rw [gapEq]
    simp only [List.drop_drop]
    rw [lengthEq, otherEq, List.drop_left]
  refine ⟨gapEq, foundEq, agree.take (Nat.le_of_lt shorter), ?_⟩
  rw [← afterGap.take (Nat.le_refl _), ← left, List.take_append_drop]

/-- What a lexer makes of its next token at another place. -/
def readAt (lexer : Lexer) (position : Position) (rest : List Char) : Token × Lexer :=
  let start := position.after (lexer.rest.take (Gap.ofText lexer.rest).length)
  let stop := start.after (lexer.afterGap.rest.take lexer.found.length)
  ({ lexer.next.1 with span := ⟨start, stop.offset⟩ },
    ⟨rest, stop, lexer.next.2.regexpAllowed⟩)

theorem next_eq_readAt {lexer : Lexer} (solid : lexer.next.1.isSolid = true) :
    lexer.next = lexer.readAt lexer.position lexer.next.2.rest := by
  have next := next_of_inside (closed_of_solid solid) (found_of_solid solid).1
  unfold readAt
  rw [next]
  rfl

/-- A token is read again where its characters stand again, with the same gap
before it. -/
theorem next_cut {lexer other : Lexer} {taken rest' : List Char}
    (solid : lexer.next.1.isSolid = true) (restEq : lexer.rest = taken ++ lexer.next.2.rest)
    (cut : Cut lexer.next.2.rest rest') (otherEq : other.rest = taken ++ rest')
    (allowed : other.regexpAllowed = lexer.regexpAllowed) :
    other.next = lexer.readAt other.position rest' := by
  have closed := closed_of_solid solid
  obtain ⟨inside, -⟩ := found_of_solid solid
  obtain ⟨gapEq, foundEq, gapTaken, afterGapEq⟩ := found_cut solid restEq cut otherEq allowed
  have bodyLength : (lexer.afterGap.rest.take lexer.found.length).length = lexer.found.length := by
    obtain ⟨-, whole⟩ := found_of_solid solid
    exact List.length_take_of_le (lexeme_length_le whole)
  have bodyTaken : other.afterGap.rest.take lexer.found.length =
      lexer.afterGap.rest.take lexer.found.length := by
    rw [afterGapEq, List.take_left' bodyLength]
  have left : other.afterGap.rest.drop lexer.found.length = rest' := by
    rw [afterGapEq, List.drop_left' bodyLength]
  have start : other.afterGap.position =
      other.position.after (lexer.rest.take (Gap.ofText lexer.rest).length) := by
    rw [← gapTaken, ← gapEq]
    rfl
  have stop : (other.afterGap.skip lexer.found.length).position =
      other.afterGap.position.after (lexer.afterGap.rest.take lexer.found.length) := by
    rw [← bodyTaken]
    rfl
  unfold readAt
  rw [next_of_inside (by rw [gapEq]; exact closed) (by rw [foundEq]; exact inside),
    next_of_inside closed inside, foundEq, gapEq, bodyTaken, left, stop, start]

/-! ## Without what stood before -/

/-- The lexer right before the next token, where that may be a regular
expression. -/
def fresh (lexer : Lexer) : Lexer := { lexer.afterGap with regexpAllowed := true }

theorem exists_gap (lexer : Lexer) : ∃ gap, lexer.rest = gap ++ lexer.fresh.rest ∧
    lexer.fresh.position = lexer.position.after gap :=
  ⟨_, lexer.skip_rest _, rfl⟩

/-- A token is read again right behind the gap before it if what the lexer knows
there of the token before makes no difference. -/
theorem next_afterGap {lexer : Lexer} (solid : lexer.next.1.isSolid = true)
    {regexpAllowed : Bool}
    (same : lexeme regexpAllowed lexer.afterGap.rest =
      lexeme lexer.regexpAllowed lexer.afterGap.rest) :
    Lexer.next { lexer.afterGap with regexpAllowed } =
      ({ lexer.next.1 with afterLineBreak := false }, lexer.next.2) := by
  let behind : Lexer := { lexer.afterGap with regexpAllowed }
  have closed := closed_of_solid solid
  obtain ⟨inside, -⟩ := found_of_solid solid
  have noGap : Gap.ofText behind.rest = .empty := Gap.measure_drop closed
  have stays : behind.afterGap = behind := by
    unfold Lexer.afterGap
    rw [noGap]
    rfl
  have foundEq : behind.found = lexer.found := by
    unfold Lexer.found
    rw [stays]
    exact same
  change behind.next = _
  rw [next_of_inside (by rw [noGap]; rfl) (by rw [foundEq]; exact inside),
    next_of_inside closed inside, foundEq, noGap, stays]
  rfl

theorem next_fresh {lexer : Lexer} (solid : lexer.next.1.isSolid = true)
    (other : lexer.next.1.kind.isDivision = false) :
    lexer.fresh.next = ({ lexer.next.1 with afterLineBreak := false }, lexer.next.2) := by
  apply next_afterGap solid
  rw [next_of_inside (closed_of_solid solid) (found_of_solid solid).1] at other
  exact lexeme_true other

/-! ## Many tokens -/

/-- Solid tokens are read again where their characters stand again. -/
theorem Passes.relex {lexer later other : Lexer} {used : List Token} {taken rest' : List Char}
    (passes : Passes lexer used later) (solid : ∀ token ∈ used, token.isSolid = true)
    (restEq : lexer.rest = taken ++ later.rest) (cut : Cut later.rest rest')
    (otherEq : other.rest = taken ++ rest')
    (allowed : other.regexpAllowed = lexer.regexpAllowed) :
    ∃ used' later', Passes other used' later' ∧ Relabeling.bare.Same used used' ∧
      later'.rest = rest' ∧ later'.regexpAllowed = later.regexpAllowed := by
  induction passes generalizing taken other with
  | done lexer =>
      have nothing : taken = [] := by simpa using restEq
      subst nothing
      exact ⟨[], other, .done other, rfl, otherEq, allowed⟩
  | @step lexer later used rest induction =>
      obtain ⟨gap, body, tile, -⟩ := lexer.next_tile
      obtain ⟨more, moreEq, -⟩ := rest.exists_taken
      have takenEq : taken = gap ++ body ++ more := by
        have whole : taken ++ later.rest = (gap ++ body ++ more) ++ later.rest := by
          rw [← restEq, tile.text_eq, moreEq]
          simp
        exact List.append_cancel_right whole
      have first := solid _ (List.mem_cons_self ..)
      have firstEq : lexer.rest = (gap ++ body) ++ lexer.next.2.rest := by
        rw [tile.text_eq]
        simp
      have cut' : Cut lexer.next.2.rest (more ++ rest') := by
        rw [moreEq]
        exact .append more cut
      have next := next_cut first firstEq cut' (by rw [otherEq, takenEq, List.append_assoc]) allowed
      have restEq' : other.next.2.rest = more ++ rest' := by rw [next]; rfl
      have allowed' : other.next.2.regexpAllowed = lexer.next.2.regexpAllowed := by rw [next]; rfl
      have same : Relabeling.bare.Same lexer.next.1 other.next.1 := by rw [next]; rfl
      obtain ⟨used', later', passes', sameUsed, laterEq, laterAllowed⟩ := induction
        (fun token member => solid token (List.mem_cons_of_mem _ member)) moreEq cut restEq'
        allowed'
      refine ⟨other.next.1 :: used', later', .step passes', ?_, laterEq, laterAllowed⟩
      simp_all

theorem Passes.fresh {lexer later : Lexer} {token : Token} {used : List Token}
    (passes : Passes lexer (token :: used) later) (solid : token.isSolid = true)
    (other : token.kind.isDivision = false) :
    Passes lexer.fresh ({ token with afterLineBreak := false } :: used) later := by
  cases passes with
  | step rest =>
      have next := next_fresh solid other
      have first : lexer.fresh.next.1 = { lexer.next.1 with afterLineBreak := false } := by
        rw [next]
      rw [← first]
      refine .step ?_
      rw [next]
      exact rest

/-! ## Marks and strings -/

theorem ofText_eq_empty {c : Char} {rest : List Char} (notBreak : c ≠ '\n') (notSlash : c ≠ '/')
    (notBlank : Gap.isSpace c = false) : Gap.ofText (c :: rest) = .empty := by
  unfold Gap.ofText
  rw [Gap.measure_blank_cons (fun slash => absurd slash notSlash), if_neg notBreak,
    if_neg (by simp [notBlank])]

theorem next_of_empty {lexer : Lexer} {found : Lexeme} (noGap : Gap.ofText lexer.rest = .empty)
    (foundEq : lexeme lexer.regexpAllowed lexer.rest = found) (inside : found.kind ≠ .endOfInput) :
    lexer.next.1.kind = found.kind ∧ lexer.next.1.afterLineBreak = false ∧
      lexer.next.2.rest = lexer.rest.drop found.length ∧
      lexer.next.2.regexpAllowed = found.kind.allowsRegexpAfter := by
  have stays : lexer.afterGap = lexer := by
    unfold Lexer.afterGap
    rw [noGap]
    rfl
  have here : lexer.found = found := by
    unfold Lexer.found
    rw [stays]
    exact foundEq
  rw [next_of_inside (by rw [noGap]; rfl) (by rw [here]; exact inside), here, stays, noGap]
  exact ⟨rfl, rfl, rfl, rfl⟩

theorem lexeme_separator {mark : Char} (separates : mark ∈ separatingMarks) (regexpAllowed : Bool)
    (rest : List Char) : lexeme regexpAllowed (mark :: rest) = ⟨.punctuation mark, 1⟩ := by
  simp only [separatingMarks, List.mem_cons, List.not_mem_nil, or_false] at separates
  rcases separates with rfl | rfl | rfl <;> rfl

theorem next_separator {lexer : Lexer} {mark : Char} {rest : List Char}
    (separates : mark ∈ separatingMarks) (restEq : lexer.rest = mark :: rest) :
    lexer.next.1.kind = .punctuation mark ∧ lexer.next.2.rest = rest ∧
      lexer.next.2.regexpAllowed = (mark != ')') := by
  obtain ⟨notBreak, notSlash, notBlank, allows⟩ : mark ≠ '\n' ∧ mark ≠ '/' ∧
      Gap.isSpace mark = false ∧
      (TokenKind.punctuation mark).allowsRegexpAfter = (mark != ')') := by
    simp only [separatingMarks, List.mem_cons, List.not_mem_nil, or_false] at separates
    rcases separates with rfl | rfl | rfl <;> decide
  have noGap : Gap.ofText lexer.rest = .empty := by
    rw [restEq]
    exact ofText_eq_empty notBreak notSlash notBlank
  have found : lexeme lexer.regexpAllowed lexer.rest = ⟨.punctuation mark, 1⟩ := by
    rw [restEq]
    exact lexeme_separator separates _ _
  obtain ⟨kind, -, rest, regexpAllowed⟩ := next_of_empty noGap found (by simp)
  refine ⟨kind, ?_, regexpAllowed.trans allows⟩
  rw [rest, restEq]
  rfl

theorem next_nil {lexer : Lexer} (nothing : lexer.rest = []) :
    lexer.next.1.kind = .endOfInput := by
  have closed : (Gap.ofText lexer.rest).closed = true := by
    rw [nothing]
    rfl
  have found : lexer.found = ⟨.endOfInput, 0⟩ := by
    apply found_nil
    unfold afterGap skip
    rw [nothing]
    simp
  rw [(next_of_closed closed).1, found]

theorem takeToEnd_of_isEnd {lexer : Lexer} (bound : Nat) (atEnd : lexer.next.1.isEnd = true) :
    lexer.takeToEnd (bound + 1) = [lexer.next.1] := by
  simp [takeToEnd, atEnd]

theorem next_space {lexer : Lexer} {rest : List Char} (restEq : lexer.rest = ' ' :: rest) :
    lexer.next = Lexer.next ⟨rest, lexer.position.step ' ', lexer.regexpAllowed⟩ := by
  obtain ⟨_, position, regexpAllowed⟩ := lexer
  subst restEq
  have gapEq : Gap.ofText (' ' :: rest) = (Gap.ofText rest).prepend 1 :=
    Gap.measure_blank_cons fun slash => absurd slash (by decide)
  simp only [next, gapEq]
  rfl

def reach (start : Lexer) (lineBreak : Bool) : Token × Lexer :=
  let found := lexeme start.regexpAllowed start.rest
  let stop := start.skip found.length
  (⟨found.kind, ⟨start.position, stop.position.offset⟩, lineBreak,
      String.ofList (start.rest.take found.length)⟩,
    if found.kind = .endOfInput then stop
    else { stop with regexpAllowed := found.kind.allowsRegexpAfter })

theorem next_eq_reach {lexer : Lexer} (closed : (Gap.ofText lexer.rest).closed = true) :
    lexer.next = lexer.afterGap.reach (Gap.ofText lexer.rest).lineBreak := by
  simp only [next, closed, if_true, Token.isEnd, decide_eq_true_eq, reach]
  split
  case isTrue isEnd => exact congrArg (Prod.mk _) (if_pos isEnd).symm
  case isFalse notEnd => exact congrArg (Prod.mk _) (if_neg notEnd).symm

/-- Of a closed gap, a token keeps only whether there is a line break in it. -/
theorem next_of_afterGap_eq {lexer other : Lexer} (same : other.afterGap = lexer.afterGap)
    (closed : (Gap.ofText lexer.rest).closed = true)
    (otherClosed : (Gap.ofText other.rest).closed = true) :
    other.next = ({ lexer.next.1 with afterLineBreak := (Gap.ofText other.rest).lineBreak },
      lexer.next.2) := by
  rw [next_eq_reach closed, next_eq_reach otherClosed, same]
  rfl

/-! ## Words -/

theorem ofWord_eq_name {word name : String} (isName : TokenKind.ofWord word = .name name) :
    word = name := by
  unfold TokenKind.ofWord at isName
  split at isName
  · cases isName
  split at isName
  · cases isName
  split at isName
  · cases isName
  · exact TokenKind.name.inj isName

theorem numberLexeme_ne_name {c : Char} {rest : List Char} {name : String} :
    (numberLexeme (c :: rest)).kind ≠ .name name := by
  intro isName
  rw [numberLexeme_eq] at isName
  split at isName
  · simp only [hexadecimalLexeme] at isName
    split at isName <;> cases isName
  · simp only [decimalLexeme] at isName
    split at isName
    · cases isName
    · unfold DecimalText.kind at isName
      split at isName <;> cases isName

theorem take_of_name {regexpAllowed : Bool} {text : List Char} {name : String}
    (isName : (lexeme regexpAllowed text).kind = .name name) :
    text.take (lexeme regexpAllowed text).length = name.toList := by
  cases text with
  | nil => cases isName
  | cons c rest =>
      revert isName
      simp only [lexeme]
      split
      · intro isName
        simp only [stringLexeme] at isName
        split at isName <;> cases isName
      split
      · exact fun isName => absurd isName numberLexeme_ne_name
      split
      · intro isName
        cases isName
      split
      · intro isName
        simp only [regexpLexeme] at isName
        split at isName <;> cases isName
      split
      · intro isName
        rw [← ofWord_eq_name isName, String.toList_ofList]
        exact (List.prefix_iff_eq_take.mp (List.takeWhile_prefix isNamePart)).symm
      · split <;> intro isName <;> cases isName

theorem Passes.of_name {word : String}
    (isName : (tokens word.toList).map Token.kind = [.name word, .endOfInput]) :
    ∃ token later, Passes (ofText word.toList) [token] later ∧ token.kind = .name word ∧
      later.rest = [] := by
  obtain ⟨token, rest, tokensEq, kind, restEq⟩ := List.map_eq_cons_iff.mp isName
  obtain ⟨last, _, rfl, -, -⟩ := List.map_eq_cons_iff.mp restEq
  obtain ⟨later, left, passes, -⟩ := Passes.of_takeToEnd
    (show takeToEnd _ (ofText word.toList) = [token] ++ last :: _ from tokensEq) (by simp)
  refine ⟨token, later, passes, kind, ?_⟩
  cases passes with
  | step rest =>
      cases rest
      have solid : (ofText word.toList).next.1.isSolid = true := by
        simp [Token.isSolid, Token.isEnd, Token.isMalformed, kind]
      obtain ⟨inside, -⟩ := found_of_solid solid
      rw [next_of_inside (closed_of_solid solid) inside] at kind ⊢
      have spelled := congrArg List.length (take_of_name kind)
      have shorter : (ofText word.toList).afterGap.rest.length ≤ word.toList.length := by
        unfold Lexer.afterGap Lexer.skip
        rw [List.length_drop]
        exact Nat.sub_le _ _
      rw [List.length_take] at spelled
      rw [List.drop_eq_nil_iff]
      exact Nat.le_trans shorter (spelled ▸ Nat.min_le_left _ _)

end Qml.Lexer
