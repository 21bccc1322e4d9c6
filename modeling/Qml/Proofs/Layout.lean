import Qml.Proofs.Comparison.Document

/-! # Layout

What a file holds depends on its tokens alone: on their kinds, on the line
breaks before them and, for numbers, on how they are spelled. Two files with the
same tokens are both accepted, with the same tree up to spans and kept sources,
or both refused for the same reason, and the same tokens are passed over. Blanks
and comments therefore do not matter, except for the line breaks among them. -/

namespace Qml

open Qml.Parser

/-- What the grammar may read of a token: what it is, whether it begins a line,
and how it is spelled if it is a number. -/
def Token.essence (token : Token) : TokenKind × Bool × Option String :=
  (token.kind, token.afterLineBreak, if token.isNumber then some token.text else none)

/-- Two texts whose tokens agree in all that the grammar may read. -/
def SameTokens (text other : List Char) : Prop :=
  (tokens text).map Token.essence = (tokens other).map Token.essence

instance (text other : List Char) : Decidable (SameTokens text other) :=
  inferInstanceAs (Decidable (_ = _))

def Comparison.layout (options : Options) (text other : List Char) : Comparison where
  first := (options.grammar text).toSetting
  second := (options.grammar other).toSetting
  labels := .both .bare
  firstTail := []
  secondTail := []
  excused _ := False
  closed := False
  inside _ := True
  samePatches _ _ := True
  sameSkipped skipped others :=
    skipped.map SkippedToken.description = others.map SkippedToken.description
  strict_of_strict strict := strict
  script_of_script script := script
  arraySource_eq := nofun
  excused_of_script := nofun
  excused_of_strict strict relaxed := nomatch strict.symm.trans relaxed
  excused_of_tail remains _ := Token.false_of_nil remains
  secondTail_eq_nil same := same
  secondTail_ne_nil absurd := absurd
  looksLike absent _ := Token.looksLike_of_nil absent
  samePatches_append _ _ _ := trivial
  source_eq _ _ _ _ _ _ _ _ _ _ _ _ := rfl
  arraySource_some_eq _ _ _ _ _ _ _ _ _ _ _ _ := rfl
  sameSkipped_append _ same _ := by simp [same]

variable {options : Options} {text other : List Char}

def Token.ofEssence : TokenKind × Bool × Option String → Token
  | (kind, afterLineBreak, spelling) =>
    ⟨kind, Span.startOfInput, afterLineBreak, spelling.getD ""⟩

theorem Token.relabel_bare (token : Token) : token.relabel .bare = ofEssence token.essence := by
  by_cases number : token.isNumber = true <;>
    simp [relabel, essence, ofEssence, Span.relabel, Span.startOfInput, Relabeling.bare, number]

theorem SameTokens.same_bare (same : SameTokens text other) :
    Relabeling.bare.Same (tokens text) (tokens other) := by
  have relabeled := congrArg (List.map Token.ofEssence) same
  rw [List.map_map, List.map_map] at relabeled
  have factors : Labeled.relabel .bare = Token.ofEssence ∘ Token.essence :=
    funext Token.relabel_bare
  change List.map (Labeled.relabel .bare) _ = List.map (Labeled.relabel .bare) _
  rw [factors]
  exact relabeled

theorem alike_of_sameTokens (same : SameTokens text other) :
    (Comparison.layout options text other).Alike (.ofText text) (.ofText other) := by
  have remaining : Relabeling.bare.Same (Cursor.ofText text).remaining
      (Cursor.ofText other).remaining := by
    rw [Cursor.remaining_ofText, Cursor.remaining_ofText]
    exact same.same_bare
  obtain ⟨currents, upcomings⟩ := List.cons.inj remaining.both.relabel_eq
  refine ⟨currents, ⟨_, _, (List.append_nil _).symm, (List.append_nil _).symm, upcomings⟩, rfl,
    .refl _, trivial, rfl, ?_⟩
  exact .of_declarative (Dialect.declarative_ne_script _ _) rfl _

/-- How the outcomes of two parses agree: both hold the same tree, up to spans
and kept sources, or both were refused for the same reason. -/
inductive SameOutcome : Except Error Tree → Except Error Tree → Prop
  | accepted {tree tree' : Tree} (same : tree.relabel .bare = tree'.relabel .bare) :
      SameOutcome (.ok tree) (.ok tree')
  | refused {error error' : Error} (same : error.cause = error'.cause) :
      SameOutcome (.error error) (.error error')

/-- Files with the same tokens have the same outcome under the same options, and
the same tokens are passed over in them. -/
theorem layout_is_irrelevant (options : Options) {text other : List Char}
    (same : SameTokens text other) :
    SameOutcome (parseNormalized options text).outcome (parseNormalized options other).outcome ∧
      (parseNormalized options text).skipped.map SkippedToken.description =
        (parseNormalized options other).skipped.map SkippedToken.description := by
  have related : (Comparison.layout options text other).Related (options.tree text)
      (options.tree other) := Comparison.tree_related rfl rfl rfl (.inl rfl)
  have agrees := related.agrees (alike_of_sameTokens same)
  unfold parseNormalized
  generalize options.tree text (.ofText text) = outcome at agrees
  generalize options.tree other (.ofText other) = outcome' at agrees
  cases agrees with
  | ok trees alike => exact ⟨.accepted trees, alike.skipped⟩
  | lost lost => exact absurd lost (Nat.not_lt_zero _)
  | atBrace isLoose => exact isLoose.elim
  | error causes positions skipped => exact ⟨.refused causes, skipped⟩
  | excused excused => exact excused.elim

theorem layout_is_irrelevant_comment :
    SameTokens "A \x7b\n  ) b: 1.50 \x7d".toList "A\x7b/* c\n */)b:1.50\x7d".toList ∧
      (parseNormalized {} "A \x7b\n  ) b: 1.50 \x7d".toList).outcome.isOk = true ∧
      SameOutcome (parseNormalized {} "A \x7b\n  ) b: 1.50 \x7d".toList).outcome
        (parseNormalized {} "A\x7b/* c\n */)b:1.50\x7d".toList).outcome ∧
      (parseNormalized {} "A \x7b\n  ) b: 1.50 \x7d".toList).skipped.map SkippedToken.description =
        (parseNormalized {} "A\x7b/* c\n */)b:1.50\x7d".toList).skipped.map
          SkippedToken.description := by
  have same : SameTokens "A \x7b\n  ) b: 1.50 \x7d".toList "A\x7b/* c\n */)b:1.50\x7d".toList := by
    decide +kernel
  exact ⟨same, by decide +kernel, layout_is_irrelevant {} same⟩

end Qml
