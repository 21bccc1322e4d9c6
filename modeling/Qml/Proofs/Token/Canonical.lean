import Qml.Proofs.Token.Relexing

/-! # Canonical layout

The tokens of a text can be written down again with a single blank before each
of them, a line feed where a line break stood. The lexer reads the same tokens
from that: nothing in a token depends on how far away the next one is, and what
the lexer knows of the token before is passed on in the same way. -/

namespace Qml

open Qml.Text

/-- What a token is wherever it stands: its kind, whether a line break comes
before it, and its spelling. -/
def Token.content (token : Token) : TokenKind × Bool × String :=
  (token.kind, token.afterLineBreak, token.text)

def Token.blank (token : Token) : Char := if token.afterLineBreak then '\n' else ' '

def Token.spaced (token : Token) : List Char := token.blank :: token.text.toList

/-- The text of some tokens in the canonical layout. -/
def canonicalText (tokens : List Token) : List Char := tokens.flatMap Token.spaced

namespace Lexer

variable {lexer other : Lexer}

def behindBlank (lexer : Lexer) (blank : Char) (rest : List Char) : Lexer :=
  ⟨rest, lexer.position.step blank, lexer.regexpAllowed⟩

/-- The blank of a token is all the gap that a text without one gets, and makes a
line break where there was one. -/
theorem ofText_blank (token : Token) {rest : List Char} (noGap : Gap.ofText rest = .empty) :
    Gap.ofText (token.blank :: rest) = ⟨1, token.afterLineBreak, true⟩ := by
  have notSlash : token.blank ≠ '/' := by
    unfold Token.blank
    split <;> decide
  unfold Gap.ofText at noGap ⊢
  rw [Gap.measure_blank_cons fun slash => absurd slash notSlash, noGap]
  unfold Token.blank
  cases token.afterLineBreak <;> rfl

theorem next_blank {token : Token} {rest : List Char} (otherEq : other.rest = token.blank :: rest)
    (noGap : Gap.ofText rest = .empty) :
    other.next =
      ({ (other.behindBlank token.blank rest).next.1 with afterLineBreak := token.afterLineBreak },
        (other.behindBlank token.blank rest).next.2) := by
  have gapEq : Gap.ofText other.rest = ⟨1, token.afterLineBreak, true⟩ := by
    rw [otherEq]
    exact ofText_blank token noGap
  have same : other.afterGap = (other.behindBlank token.blank rest).afterGap := by
    have stays : (other.behindBlank token.blank rest).afterGap =
        other.behindBlank token.blank rest := by
      unfold afterGap behindBlank
      rw [noGap]
      rfl
    rw [stays]
    unfold afterGap skip
    rw [gapEq, otherEq]
    rfl
  rw [next_of_afterGap_eq same (by unfold behindBlank; rw [noGap]; rfl) (by rw [gapEq]), gapEq]

theorem next_canonical {rest' : List Char} (solid : lexer.next.1.isSolid = true)
    (cut : Cut lexer.next.2.rest rest')
    (otherEq : other.rest = lexer.next.1.blank :: (lexer.next.1.text.toList ++ rest'))
    (allowed : other.regexpAllowed = lexer.regexpAllowed) :
    other.next.1.content = lexer.next.1.content ∧ other.next.2.rest = rest' ∧
      other.next.2.regexpAllowed = lexer.next.2.regexpAllowed := by
  let inner := other.behindBlank lexer.next.1.blank (lexer.next.1.text.toList ++ rest')
  have behind :
      lexer.afterGap.next = ({ lexer.next.1 with afterLineBreak := false }, lexer.next.2) :=
    next_afterGap solid rfl
  have solid' : lexer.afterGap.next.1.isSolid = true := by
    rw [behind]
    exact solid
  have restEq : lexer.afterGap.rest = lexer.next.1.text.toList ++ lexer.afterGap.next.2.rest := by
    rw [behind]
    exact afterGap_rest lexer
  have cut' : Cut lexer.afterGap.next.2.rest rest' := by
    rw [behind]
    exact cut
  have innerEq : inner.rest = lexer.next.1.text.toList ++ rest' := rfl
  have noGap : Gap.ofText inner.rest = .empty := by
    obtain ⟨gapEq, -⟩ := found_cut solid' restEq cut' innerEq allowed
    exact gapEq.trans (Gap.measure_drop (closed_of_solid solid))
  rw [next_blank otherEq noGap, next_cut solid' restEq cut' innerEq allowed, readAt,
    behind]
  exact ⟨rfl, rfl, rfl⟩

theorem next_canonical_end (isEnd : lexer.next.1.isEnd = true)
    (otherEq : other.rest = [lexer.next.1.blank]) :
    other.next.1.content = lexer.next.1.content := by
  have kind : lexer.next.1.kind = .endOfInput := of_decide_eq_true isEnd
  have inner := @next_nil (other.behindBlank lexer.next.1.blank []) rfl
  obtain ⟨-, -, text⟩ := rest_eq_nil_of_isEnd (decide_eq_true inner)
  obtain ⟨-, -, empty⟩ := rest_eq_nil_of_isEnd isEnd
  rw [next_blank otherEq rfl, Token.content, Token.content, inner, text, kind, empty]

theorem takeToEnd_succ_of_not_isEnd (bound : Nat) (notEnd : lexer.next.1.isEnd = false) :
    takeToEnd (bound + 1) lexer = lexer.next.1 :: takeToEnd bound lexer.next.2 := by
  simp [takeToEnd, notEnd]

/-- The canonical layout of what is left begins with a blank, which ends the token
before it. -/
theorem cut_canonicalText (rest : List Char) {bound : Nat} (more : lexer.rest.length < bound) :
    Cut rest (canonicalText (takeToEnd bound lexer)) := by
  obtain ⟨before, last, tokensEq, -⟩ := takeToEnd_ends bound lexer more
  obtain ⟨first, tokens, firstEq⟩ := List.exists_cons_of_ne_nil
    (show takeToEnd bound lexer ≠ [] by simp [tokensEq])
  rw [firstEq]
  refine .here ?_ _ _
  unfold Token.blank
  split <;> decide

theorem takeToEnd_canonical {bound bound' : Nat} (enough : lexer.rest.length < bound)
    (enough' : other.rest.length < bound')
    (whole : ∀ token ∈ takeToEnd bound lexer, token.isMalformed = false)
    (otherEq : other.rest = canonicalText (takeToEnd bound lexer))
    (allowed : other.regexpAllowed = lexer.regexpAllowed) :
    (takeToEnd bound' other).map Token.content = (takeToEnd bound lexer).map Token.content := by
  induction bound generalizing lexer other bound' with
  | zero => exact absurd enough (Nat.not_lt_zero _)
  | succ bound induction =>
      obtain ⟨bound', rfl⟩ := Nat.exists_eq_add_one_of_ne_zero (Nat.ne_zero_of_lt enough')
      cases isEnd : lexer.next.1.isEnd with
      | true =>
          obtain ⟨-, -, text⟩ := rest_eq_nil_of_isEnd isEnd
          rw [takeToEnd_of_isEnd bound isEnd] at otherEq ⊢
          have content : other.next.1.content = lexer.next.1.content :=
            next_canonical_end isEnd (by simpa [canonicalText, Token.spaced, text] using otherEq)
          have isEnd' : other.next.1.isEnd = true := by
            have kind : other.next.1.kind = lexer.next.1.kind := congrArg Prod.fst content
            rw [Token.isEnd, kind]
            exact isEnd
          rw [takeToEnd_of_isEnd bound' isEnd', List.map_singleton, List.map_singleton, content]
      | false =>
          have shorter := next_rest_lt isEnd
          have enoughLater : lexer.next.2.rest.length < bound := by omega
          rw [takeToEnd_succ_of_not_isEnd bound isEnd] at whole otherEq ⊢
          have solid : lexer.next.1.isSolid = true := by
            simp [Token.isSolid, isEnd, whole _ (List.mem_cons_self ..)]
          obtain ⟨content, restEq, allowed'⟩ := next_canonical solid
            (cut_canonicalText lexer.next.2.rest enoughLater) otherEq allowed
          have isEnd' : other.next.1.isEnd = false := by
            have kind : other.next.1.kind = lexer.next.1.kind := congrArg Prod.fst content
            rw [Token.isEnd, kind]
            exact isEnd
          have shorter' := next_rest_lt isEnd'
          rw [takeToEnd_succ_of_not_isEnd bound' isEnd', List.map_cons, List.map_cons, content]
          congr 1
          exact induction enoughLater (by omega)
            (fun token member => whole token (List.mem_cons_of_mem _ member)) restEq allowed'

end Lexer

/-- The tokens of a text are read again from their canonical layout, with the same
kinds and values, line breaks and spellings, unless some of them are malformed. -/
theorem canonical_layout_keeps_tokens {text : List Char}
    (whole : ∀ token ∈ tokens text, token.isMalformed = false) :
    (tokens (canonicalText (tokens text))).map Token.content = (tokens text).map Token.content :=
  Lexer.takeToEnd_canonical (Nat.lt_succ_self _) (Nat.lt_succ_self _) whole rfl rfl

theorem canonical_layout_keeps_tokens_regexp :
    (∀ token ∈ tokens "a/* \n */= /[/]+/g.b\n\n/.5-0x1F+\x27c\\\nd\x27//e".toList,
        token.isMalformed = false) ∧
      canonicalText (tokens "a/* \n */= /[/]+/g.b\n\n/.5-0x1F+\x27c\\\nd\x27//e".toList) =
        " a\n= /[/]+/g . b\n/ .5 - 0x1F + \x27c\\\nd\x27 ".toList ∧
      (tokens (canonicalText
          (tokens "a/* \n */= /[/]+/g.b\n\n/.5-0x1F+\x27c\\\nd\x27//e".toList))).map Token.content =
        (tokens "a/* \n */= /[/]+/g.b\n\n/.5-0x1F+\x27c\\\nd\x27//e".toList).map Token.content := by
  have whole : ∀ token ∈ tokens "a/* \n */= /[/]+/g.b\n\n/.5-0x1F+\x27c\\\nd\x27//e".toList,
      token.isMalformed = false := by
    decide +kernel
  exact ⟨whole, by decide +kernel, canonical_layout_keeps_tokens whole⟩

end Qml
