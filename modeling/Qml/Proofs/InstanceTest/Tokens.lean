import Qml.Grammar.Expression
import Qml.Proofs.Token.StringLiterals

/-! # The tokens of a test's replacement

A test with `instanceof` is read as a call with three arguments: the left operand
as it is written, the right one as a string, and the component. Where the helper
and the component are names, the text of this call is cut into the tokens of its
parts. -/

namespace Qml

open Qml.Text

/-- A word that is read as one name. -/
def IsName (word : String) : Prop :=
  (tokens word.toList).map Token.kind = [.name word, .endOfInput]

instance (word : String) : Decidable (IsName word) :=
  inferInstanceAs (Decidable (_ = _))

/-- The tokens of a call with three arguments, of which the second is a string
and the third a name, up to the end of the text. -/
structure CallTokens (helper value component : String) where
  name : Token
  opening : Token
  operand : List Token
  comma : Token
  literal : Token
  secondComma : Token
  word : Token
  closing : Token
  last : Token
  name_kind : name.kind = .name helper
  opening_kind : opening.kind = .punctuation '('
  comma_kind : comma.kind = .punctuation ','
  literal_kind : literal.kind = .string value
  secondComma_kind : secondComma.kind = .punctuation ','
  word_kind : word.kind = .name component
  closing_kind : closing.kind = .punctuation ')'
  last_kind : last.kind = .endOfInput

namespace CallTokens

variable {helper value component : String} (call : CallTokens helper value component)

def rest : List Token :=
  [call.comma, call.literal, call.secondComma, call.word, call.closing, call.last]

def all : List Token := call.name :: call.opening :: (call.operand ++ call.rest)

def front : List Token :=
  call.name :: call.opening :: (call.operand ++
    [call.comma, call.literal, call.secondComma, call.word, call.closing])

theorem front_append_last : call.front ++ [call.last] = call.all := by
  simp [front, all, rest]

theorem isEnd_of_mem_front (operand : ∀ token ∈ call.operand, token.isEnd = false) :
    ∀ token ∈ call.front, token.isEnd = false := by
  simp only [front, List.mem_cons, List.mem_append, List.not_mem_nil, or_false]
  rintro token (rfl | rfl | member | rfl | rfl | rfl | rfl | rfl)
  · simp [Token.isEnd, call.name_kind]
  · simp [Token.isEnd, call.opening_kind]
  · exact operand token member
  · simp [Token.isEnd, call.comma_kind]
  · simp [Token.isEnd, call.literal_kind]
  · simp [Token.isEnd, call.secondComma_kind]
  · simp [Token.isEnd, call.word_kind]
  · simp [Token.isEnd, call.closing_kind]

end CallTokens

namespace Lexer

theorem next_name {word : String} (isName : IsName word) {lexer : Lexer} {mark : Char}
    {rest : List Char} (separates : mark ∈ separators)
    (restEq : lexer.rest = word.toList ++ mark :: rest) (allowed : lexer.regexpAllowed = true) :
    lexer.next.1.kind = .name word ∧ lexer.next.2.rest = mark :: rest := by
  obtain ⟨token, later, passes, kind, nothing⟩ := Passes.of_name isName
  have solid : ∀ found ∈ [token], found.isSolid = true := by
    simp [Token.isSolid, Token.isEnd, Token.isMalformed, kind]
  obtain ⟨used', later', passes', same, laterEq, -⟩ := passes.relex solid
    (show (ofText word.toList).rest = word.toList ++ later.rest by rw [nothing]; simp [ofText])
    (show Cut later.rest (mark :: rest) from .here separates _ _) restEq allowed
  cases passes' with
  | done => cases same
  | @step _ _ used'' more =>
      obtain ⟨head, tail⟩ := List.cons.inj same.both.relabel_eq
      have nothing' : used'' = [] := by simpa using tail.symm
      subst nothing'
      cases more
      have sameToken : Relabeling.bare.Same token lexer.next.1 := head
      exact ⟨sameToken.both.kind_eq.symm.trans kind, laterEq⟩

theorem next_spaced_name {word : String} (isName : IsName word) {lexer : Lexer} {mark : Char}
    {rest : List Char} (separates : mark ∈ separators)
    (restEq : lexer.rest = ' ' :: (word.toList ++ mark :: rest))
    (allowed : lexer.regexpAllowed = true) :
    lexer.next.1.kind = .name word ∧ lexer.next.2.rest = mark :: rest := by
  rw [next_space restEq]
  exact next_name isName separates rfl allowed

theorem next_spaced_literal {lexer : Lexer} {value rest : List Char}
    (restEq : lexer.rest = ' ' :: (literal value ++ rest)) :
    lexer.next.1.kind = .string (String.ofList value) ∧ lexer.next.2.rest = rest := by
  rw [next_space restEq, next_between (by decide) (flatMap_literalCharacter_spelled value) rfl]
  exact ⟨rfl, rfl⟩

end Lexer

theorem Relabeling.Same.isEnd_eq_false {labels : Relabeling} {used others : List Token}
    (same : labels.Same used others) (solid : ∀ token ∈ used, token.isSolid = true) :
    ∀ token ∈ others, token.isEnd = false := by
  have kinds : used.map Token.kind = others.map Token.kind := by
    simpa [Function.comp_def, Labeled.relabel, Token.relabel] using
      congrArg (List.map Token.kind) same.both.relabel_eq
  intro token member
  have among : token.kind ∈ used.map Token.kind := by
    rw [kinds]
    exact List.mem_map_of_mem member
  obtain ⟨original, originalMember, kindEq⟩ := List.mem_map.mp among
  have originalSolid := solid original originalMember
  simp only [Token.isSolid, Token.isEnd, kindEq] at originalSolid ⊢
  simp_all

/-- The replacement of a test is cut into the tokens of a call, and the text of
the left operand into the tokens that it was made of. -/
theorem tokens_instanceTest {helper component : String} (helperName : IsName helper)
    (componentName : IsName component) {lexer later : Lexer} {used : List Token}
    {left : List Char} (right : List Char) (passes : lexer.Passes used later)
    (solid : ∀ token ∈ used, token.isSolid = true) (restEq : lexer.rest = left ++ later.rest)
    (allowed : lexer.regexpAllowed = true) :
    ∃ call : CallTokens helper (String.ofList right) component,
      tokens (Grammar.instanceTest helper component left right) = call.all ∧
      Relabeling.bare.Same used call.operand := by
  have comma : ',' ∈ separatingMarks := by decide
  let first := Lexer.ofText (Grammar.instanceTest helper component left right)
  have firstEq : first.rest = helper.toList ++ '(' :: (left ++ ',' :: ' ' :: (literal right ++
      ',' :: ' ' :: (component.toList ++ [')']))) := by
    simp [first, Lexer.ofText, Grammar.instanceTest]
  obtain ⟨nameKind, afterName⟩ := Lexer.next_name helperName (by decide) firstEq rfl
  obtain ⟨openingKind, afterOpening, openingAllows⟩ :=
    Lexer.next_separator (by decide) afterName
  obtain ⟨operand, behind, operandPasses, same, afterOperand, -⟩ := passes.relex solid restEq
    (.here (by decide) _ _) afterOpening (openingAllows.trans allowed.symm)
  obtain ⟨commaKind, afterComma, -⟩ := Lexer.next_separator comma afterOperand
  obtain ⟨literalKind, afterLiteral⟩ := Lexer.next_spaced_literal afterComma
  obtain ⟨secondKind, afterSecond, secondAllows⟩ := Lexer.next_separator comma afterLiteral
  obtain ⟨wordKind, afterWord⟩ := Lexer.next_spaced_name componentName (by decide) afterSecond
    secondAllows
  obtain ⟨closingKind, afterClosing, -⟩ := Lexer.next_separator (by decide) afterWord
  have lastKind := Lexer.next_nil afterClosing
  let call : CallTokens helper (String.ofList right) component :=
    ⟨_, _, operand, _, _, _, _, _, _, nameKind, openingKind, commaKind, literalKind, secondKind,
      wordKind, closingKind, lastKind⟩
  refine ⟨call, ?_, same⟩
  have path : first.Passes call.front behind.next.2.next.2.next.2.next.2.next.2 := by
    dsimp only [CallTokens.front, call]
    exact .step (.step (operandPasses.append (.step (.step (.step (.step (.step (.done _))))))))
  obtain ⟨bound, enough, tokensEq⟩ := path.takeToEnd_eq
    (call.isEnd_of_mem_front (same.isEnd_eq_false solid)) (Nat.lt_succ_self _)
  obtain ⟨bound, rfl⟩ : ∃ fewer, bound = fewer + 1 := ⟨bound - 1, by omega⟩
  have atEnd : call.last.isEnd = true := by simp [Token.isEnd, call.last_kind]
  rw [Lexer.takeToEnd_of_isEnd bound atEnd] at tokensEq
  exact tokensEq.trans call.front_append_last

end Qml
