import Qml.Proofs.Height.Brackets
import Qml.Proofs.Height.Member
import Qml.Proofs.Options

/-! # The limit and the height of trees

The limit on nesting bounds how high a tree is without the steps along links. With
any of these steps counted nothing bounds it. -/

namespace Qml

open Qml.Parser Qml.Grammar

/-! ## Under one limit -/

/-- The words of a chain: a name, the same words behind it again and again, and a
semicolon. -/
def chainWords (n : Nat) (tail : List Word) : List Word :=
  .a :: ((List.replicate n tail).flatten ++ [.mark ';'])

theorem kinds_chainWords (n : Nat) (tail : List Word) :
    (chainWords n tail).map Word.kind ++ [.endOfInput] = .name "a" ::
      ((List.replicate n (tail.map Word.kind)).flatten ++ [.punctuation ';', .endOfInput]) := by
  simp [chainWords, List.map_flatten]

def aliasWords (n : Nat) : List Word :=
  [.typeA, .mark '{', .propertyWord, .aliasWord, .a, .mark ':', .a] ++
    ((List.replicate n [.mark '[', .a]).flatten ++
      ((List.replicate n [.mark ']']).flatten ++ [.mark '}']))

theorem kinds_aliasWords (n : Nat) :
    (aliasWords n).map Word.kind ++ [.endOfInput] = documentOfAlias n := by
  simp [aliasWords, documentOfAlias, bracketed, List.map_flatten]

section

variable {counts : Link → Bool} {n : Nat}

/-- Some text has a tree of at least this height under a limit. -/
def Attains (counts : Link → Bool) (limit n : Nat) : Prop :=
  ∃ options source tree, options.limit = limit ∧ (parse options source).outcome = .ok tree ∧
    n ≤ tree.height counts

theorem attains_of_reaches (kind : FileKind) (words : List Word)
    (reaches : Reaches (Options.tree { kind, limit := 3 } (spaced words)) (.ofText (spaced words))
      [.endOfInput] (n ≤ Tree.height counts ·)) : Attains counts 3 n := by
  obtain ⟨tree, after, ok, -, high⟩ := reaches
  refine ⟨{ kind, limit := 3 }, String.ofList (spaced words), tree, rfl, ?_, high⟩
  simp only [parse, normalize_spaced, parseNormalized, ok]

theorem attains_of_chain (first : Word) (tail : List Word)
    (unlabeled : first.kind ≠ .punctuation ':')
    (chain : LongChain counts n (.name "a" :: ((List.replicate n
      ((first :: tail).map Word.kind)).flatten ++ [.punctuation ';', .endOfInput]))) :
    Attains counts 3 n := by
  have faces := State.Faces.ofText (chainWords n (first :: tail))
  obtain ⟨kind, more, following, next⟩ := TokenKind.repeated_eq_cons n first.kind
    (.punctuation ';') (tail.map Word.kind) [.endOfInput]
  rw [List.map_cons, following] at chain
  rw [kinds_chainWords, List.map_cons, following] at faces
  have noColon : kind ≠ .punctuation ':' := by
    rcases next with rfl | rfl
    · exact unlabeled
    · decide
  refine attains_of_reaches .script (chainWords n (first :: tail)) ?_
  exact (script_reaches chain noColon faces).bind fun statements state high faces =>
    .pure faces high

/-- Along each link a tree can be as high as one likes under one limit. -/
theorem attains_of_counted {link : Link} (counted : counts link = true) (n : Nat) :
    Attains counts 3 n := by
  cases link with
  | operand => exact attains_of_chain .add [.a] (by decide) (operators_reach counted)
  | object =>
      refine attains_of_chain (.mark '.') [.a] (by decide) (subscripts_reach ?_)
      exact property_reaches counted
  | indexed =>
      refine attains_of_chain (.mark '[') [.a, .mark ']'] (by decide) (subscripts_reach ?_)
      exact index_reaches counted
  | callee =>
      refine attains_of_chain (.mark '(') [.mark ')'] (by decide) (subscripts_reach ?_)
      exact call_reaches counted
  | bracket =>
      have faces := State.Faces.ofText (aliasWords n)
      rw [kinds_aliasWords] at faces
      refine attains_of_reaches .document (aliasWords n) ?_
      exact (document_reaches counted rfl faces).bind fun document state high faces =>
        .pure faces high

end

theorem no_height_bound {counts : Link → Bool} (link : Link) (counted : counts link = true) :
    ¬ ∃ bound : Nat → Nat, ∀ options source tree, (parse options source).outcome = .ok tree →
      tree.height counts ≤ bound options.limit := by
  rintro ⟨bound, bounded⟩
  obtain ⟨options, source, tree, limit, parsed, high⟩ := attains_of_counted counted (bound 3 + 1)
  have low := bounded options source tree parsed
  rw [limit] at low
  omega

/-! ## Without the links -/

theorem height_le_of_parse {options : Options} {source : String} {tree : Tree}
    (parsed : (parse options source).outcome = .ok tree) :
    tree.height Link.ignored ≤ heightLimit options.limit := by
  unfold parse parseNormalized at parsed
  split at parsed
  case h_1 found after ok =>
      cases parsed
      exact (options.tree_low _).of_ok ok
  case h_2 => cases parsed

def Link.only (link other : Link) : Bool := other = link

/-- The limit bounds how high a tree is without the steps along links, and a text
that is accepted under a higher limit with a higher tree is refused since its
nesting is too deep. Of the links, none can be counted: for each there are trees
of any height under one limit. -/
theorem limit_bounds_height :
    (∀ options source tree, (parse options source).outcome = .ok tree →
      tree.height Link.ignored ≤ heightLimit options.limit) ∧
    (∀ options source limit tree, options.limit ≤ limit →
      (parse { options with limit } source).outcome = .ok tree →
      heightLimit options.limit < tree.height Link.ignored →
      ∃ error, (parse options source).outcome = .error error ∧
        error.cause = .broken .nestingTooDeep) ∧
    ∀ link, ¬ ∃ bound : Nat → Nat, ∀ options source tree,
      (parse options source).outcome = .ok tree →
        tree.height (Link.only link) ≤ bound options.limit := by
  refine ⟨fun options source tree => height_le_of_parse, ?_,
    fun link => no_height_bound link (decide_eq_true rfl)⟩
  intro options source limit tree higher parsed high
  rcases parse_eq_or_tooDeep options source higher with same | tooDeep
  · rw [same] at parsed
    have low := height_le_of_parse parsed
    omega
  · exact tooDeep

theorem limit_bounds_height_array :
    ∃ tree, (parse { limit := 5 } "A { b: -c + [1, (2)] }").outcome = .ok tree ∧
      tree.height Link.ignored ≤ heightLimit 5 ∧ heightLimit 0 < tree.height Link.ignored ∧
      ∃ error, (parse { limit := 0 } "A { b: -c + [1, (2)] }").outcome = .error error ∧
        error.cause = .broken .nestingTooDeep := by
  obtain ⟨low, tooDeep, -⟩ := limit_bounds_height
  have found : ((parse { limit := 5 } "A { b: -c + [1, (2)] }").outcome.toOption.any
      fun tree => heightLimit 0 < tree.height Link.ignored) = true := by
    decide +kernel
  obtain ⟨tree, parsed, isHigh⟩ := exists_of_any found
  have high : heightLimit 0 < tree.height Link.ignored := of_decide_eq_true isHigh
  exact ⟨tree, parsed, low _ _ _ parsed, high,
    tooDeep { limit := 0 } _ 5 tree (by decide) parsed high⟩

theorem height_exceeds_every_bound :
    ¬ ∃ bound : Nat → Nat, ∀ options source tree, (parse options source).outcome = .ok tree →
      tree.height (fun _ => true) ≤ bound options.limit :=
  no_height_bound .callee rfl

end Qml
