import Mathlib.Data.List.Chain
import Qml.Proofs.Operators
import Qml.Proofs.Relabeling

/-! # Comparing two parses

Two texts are parsed side by side, in two settings. As long as both parses see
the same tokens, up to labels, they make the same choices and return the same
values, up to labels. Five things may be different:

- The first text may be plain script and the second declarative. They then go
  apart where a name stands before a brace, which in declarative text begins an
  element. After that the first parse fails unless the brace is consumed by what
  surrounds the expression; productions that end with an expression are
  therefore compared only as long as they do not end before a brace.
- The tokens may be the same only up to some place. Nothing is said about parses
  that consume all of the shared tokens. Behind these the tokens look alike, as
  far as a parse looks ahead, or the last of them is a semicolon, at which no
  parse does.
- The second parse may have more levels of nesting left. Failures of the first
  parse that are due to that are excused.
- The first parse may be strict and the second relaxed. A relaxed parse goes its
  own way only where the strict one fails, provided that no line break comes
  after a word that begins a jump.
- Labels may be forgotten on both sides, or those of the first text moved to where
  they stand in the second. Sources and patches are compared as far as the labels
  keep them, and as far as the places are known where tokens of the first text begin and
  end. -/

namespace Qml

open Qml.Parser

/-- Whether one token may be taken for another before it is the current one. -/
def Token.LooksLike (token other : Token) : Prop :=
  (∀ text, token.isName text = other.isName text) ∧
    token.isPunctuation ':' = other.isPunctuation ':' ∧ token.isString = other.isString

theorem Token.LooksLike.refl (token : Token) : token.LooksLike token := ⟨fun _ => rfl, rfl, rfl⟩

theorem Token.looksLike_of_nil {closed : Prop} {token other : Token} {rest : List Token}
    (absent : [] = token :: rest) : closed ∨ token.LooksLike other := by
  cases absent

theorem Token.false_of_nil (remains : ([] : List Token) ≠ []) : False := remains rfl

/-- Whether a line break may stand for a semicolon behind a word. -/
def Keyword.isJump : Keyword → Bool
  | return_ | break_ | continue_ => true
  | _ => false

def Token.isJump (token : Token) : Bool :=
  match token.kind with
  | .keyword keyword => keyword.isJump
  | _ => false

/-- Nothing but the end of the text comes after a line break directly behind
`return`, `break` or `continue`. -/
def JumpsOnSameLine (ahead : List Token) : Prop :=
  ahead.IsChain fun token next =>
    token.isJump = true → next.afterLineBreak = true → next.isEnd = true

instance (ahead : List Token) : Decidable (JumpsOnSameLine ahead) :=
  inferInstanceAs (Decidable (List.IsChain _ ahead))

/-- Two settings, how far the tokens are shared, and what is compared. -/
structure Comparison where
  first : Setting
  second : Setting
  labels : Labels
  firstTail : List Token
  secondTail : List Token
  excused : Cause → Prop
  closed : Prop
  inside : Nat → Prop
  samePatches : List Patch → List Patch → Prop
  sameSkipped : List SkippedToken → List SkippedToken → Prop
  strict_of_strict : second.strict = true → first.strict = true
  script_of_script : second.dialect = .script → first.dialect = .script
  arraySource_eq : first.dialect = .script → second.dialect ≠ .script →
    ∀ source other, labels.first.arraySource source = labels.second.arraySource other
  excused_of_script : first.dialect = .script → second.dialect ≠ .script →
    ∀ cause, excused cause
  excused_of_strict : first.strict = true → second.strict = false →
    ∀ cause, excused cause
  excused_of_tail : firstTail ≠ [] → ∀ cause, excused cause
  secondTail_eq_nil : firstTail = [] → secondTail = []
  looksLike : ∀ {token other rest more}, firstTail = token :: rest →
    secondTail = other :: more → closed ∨ token.LooksLike other
  secondTail_ne_nil : firstTail ≠ [] → secondTail ≠ []
  samePatches_append : ∀ {patches others} {left left' right right' : Span},
    samePatches patches others → labels.Same left left' → labels.Same right right' →
      samePatches (patches ++ first.testPatches left right)
        (others ++ second.testPatches left' right')
  source_eq : first.dialect ≠ .script → ∀ {patches others} {start start' stop stop' : Position},
    samePatches patches others → inside start.offset → inside stop.offset →
      labels.first.position start = labels.second.position start' →
      labels.first.position stop = labels.second.position stop' →
        labels.first.source (String.ofList
          (Patch.effectiveText first.source patches start.offset stop.offset)) =
        labels.second.source (String.ofList
          (Patch.effectiveText second.source others start'.offset stop'.offset))
  arraySource_some_eq : first.dialect ≠ .script →
    ∀ {patches others} {start start' : Nat} {stop stop' : Position},
    samePatches patches others → inside start → inside stop.offset →
      labels.first.stop start = labels.second.stop start' →
      labels.first.position stop = labels.second.position stop' →
        labels.first.arraySource (some (String.ofList
          ('[' :: Patch.effectiveText first.source patches start stop.offset))) =
        labels.second.arraySource (some (String.ofList
          ('[' :: Patch.effectiveText second.source others start' stop'.offset)))
  sameSkipped_append : ∀ {skipped others} {place place' : Span} (description : String),
    sameSkipped skipped others → labels.Same place place' →
      sameSkipped
        (skipped ++ [⟨description, place.origin.line, place.origin.column⟩])
        (others ++ [⟨description, place'.origin.line, place'.origin.column⟩])

/-- Two contexts that allow the same statements. Their depth may differ. -/
structure Scope.Agrees (scope other : Scope) : Prop where
  functions_eq : scope.functions = other.functions
  loops_eq : scope.loops = other.loops
  labels_eq : scope.labels = other.labels
  stringKeys_eq : scope.stringKeys = other.stringKeys

/-- A change of context that does not depend on the depth, nor does the way back. -/
structure Visit.Uniform (visit : Visit) : Prop where
  enter : ∀ {scope other}, scope.Agrees other → (visit.enter scope).Agrees (visit.enter other)
  leave : ∀ {before before' after after'}, before.Agrees before' → after.Agrees after' →
    (visit.leave before after).Agrees (visit.leave before' after')

namespace Scope

theorem Agrees.refl (scope : Scope) : scope.Agrees scope := ⟨rfl, rfl, rfl, rfl⟩

theorem Agrees.withStringKeys {scope other : Scope} (agrees : scope.Agrees other) :
    scope.withStringKeys.Agrees other.withStringKeys :=
  ⟨agrees.functions_eq, agrees.loops_eq, agrees.labels_eq, rfl⟩

theorem uniform_deeper : deeper.Uniform where
  enter agrees :=
    ⟨agrees.functions_eq, agrees.loops_eq, agrees.labels_eq, agrees.stringKeys_eq⟩
  leave _ agrees :=
    ⟨agrees.functions_eq, agrees.loops_eq, agrees.labels_eq, agrees.stringKeys_eq⟩

theorem uniform_inBlock : inBlock.Uniform where
  enter agrees :=
    ⟨agrees.functions_eq, agrees.loops_eq, agrees.labels_eq, agrees.stringKeys_eq⟩
  leave outer agrees :=
    ⟨agrees.functions_eq, agrees.loops_eq, agrees.labels_eq, outer.stringKeys_eq⟩

theorem uniform_inLoop : inLoop.Uniform where
  enter agrees :=
    ⟨agrees.functions_eq, congrArg (· + 1) agrees.loops_eq, agrees.labels_eq,
      agrees.stringKeys_eq⟩
  leave _ agrees :=
    ⟨agrees.functions_eq, congrArg (· - 1) agrees.loops_eq, agrees.labels_eq,
      agrees.stringKeys_eq⟩

theorem uniform_inLabel (label : String) : (inLabel label).Uniform where
  enter agrees :=
    ⟨agrees.functions_eq, agrees.loops_eq, congrArg (· ++ [label]) agrees.labels_eq,
      agrees.stringKeys_eq⟩
  leave _ agrees :=
    ⟨agrees.functions_eq, agrees.loops_eq, congrArg List.dropLast agrees.labels_eq,
      agrees.stringKeys_eq⟩

theorem uniform_inFunction : inFunction.Uniform where
  enter agrees := ⟨congrArg (· + 1) agrees.functions_eq, rfl, rfl, agrees.stringKeys_eq⟩
  leave outer agrees :=
    ⟨congrArg (· - 1) agrees.functions_eq, outer.loops_eq, outer.labels_eq,
      agrees.stringKeys_eq⟩

theorem uniform_inValue : inValue.Uniform where
  enter agrees :=
    ⟨congrArg (· + 1) agrees.functions_eq, agrees.loops_eq, agrees.labels_eq,
      agrees.stringKeys_eq⟩
  leave _ agrees :=
    ⟨congrArg (· - 1) agrees.functions_eq, agrees.loops_eq, agrees.labels_eq,
      agrees.stringKeys_eq⟩

end Scope

theorem Dialect.declarative_ne_script (helper component : String) :
    Dialect.declarative helper component ≠ .script := by
  rintro ⟨⟩

namespace Comparison

variable (comparison : Comparison)

/-- The first text is plain script and the second declarative. -/
def Crossing : Prop := comparison.first.dialect = .script ∧ comparison.second.dialect ≠ .script

/-- The first parse is strict and the second relaxed. -/
def Relaxing : Prop := comparison.first.strict = true ∧ comparison.second.strict = false

/-- What is known of the tokens ahead in the first text. Where a line break stands
for a semicolon, none may stand before a brace: in a declarative text that brace
could begin the members of an element. And where it only does so in the second
text, none may stand behind a word that begins a jump. -/
structure Fits (ahead : List Token) : Prop where
  braces : comparison.Crossing → comparison.first.strict = false →
    ∀ token ∈ ahead, token.isPunctuation '{' → token.afterLineBreak = false
  jumps : comparison.Relaxing → JumpsOnSameLine ahead
  semicolon : comparison.closed → ∀ {front last token rest},
    ahead = front ++ last :: token :: rest → comparison.firstTail = token :: rest →
      last.isPunctuation ';' = true
  places : ∀ token ∈ ahead, comparison.inside token.span.start ∧ comparison.inside token.span.stop

theorem not_relaxing {comparison : Comparison}
    (strict : comparison.first.strict = comparison.second.strict) :
    ¬ comparison.Relaxing := by
  rintro ⟨isStrict, isRelaxed⟩
  rw [strict, isRelaxed] at isStrict
  cases isStrict

theorem Fits.of_declarative {comparison : Comparison}
    (declarative : comparison.first.dialect ≠ .script)
    (strict : comparison.first.strict = comparison.second.strict) (ahead : List Token)
    (notClosed : ¬ comparison.closed := by exact id)
    (anywhere : ∀ place, comparison.inside place := by exact fun _ => trivial) :
    comparison.Fits ahead :=
  ⟨fun crossing => absurd crossing.1 declarative,
    fun relaxing => absurd relaxing (not_relaxing strict), fun closed => absurd closed notClosed,
    fun _ _ => ⟨anywhere _, anywhere _⟩⟩

/-- Two states from which both parses go on in the same way. -/
structure Alike (state other : State) : Prop where
  current : comparison.labels.Same state.cursor.current other.cursor.current
  upcoming : ∃ shared shared', state.cursor.upcoming = shared ++ comparison.firstTail ∧
    other.cursor.upcoming = shared' ++ comparison.secondTail ∧
    comparison.labels.Same shared shared'
  previousEnd : comparison.labels.first.stop state.cursor.previousEnd =
    comparison.labels.second.stop other.cursor.previousEnd
  scope : state.scope.Agrees other.scope
  patches : comparison.samePatches state.patches other.patches
  skipped : comparison.sameSkipped state.skipped other.skipped
  fits : comparison.Fits state.cursor.remaining

def Lost (state : State) : Prop := state.ahead < comparison.firstTail.length

/-- The first parse has come to a brace that begins an element in the second. -/
structure AtBrace (state : State) : Prop where
  crossing : comparison.Crossing
  brace : state.cursor.current.isPunctuation '{' = true
  sameLine : comparison.first.strict = false → state.cursor.current.afterLineBreak = false

/-- How the outcomes of two parses compare. A value that is `loose` may leave the
first parse before a brace without anything being said about the second. -/
inductive Agrees {α : Type} [Labeled α] (loose : α → Prop) :
    EStateM.Result Fault State α → EStateM.Result Fault State α → Prop
  | ok {value other state state'} : comparison.labels.Same value other →
      comparison.Alike state state' → Agrees loose (.ok value state) (.ok other state')
  | lost {value state outcome} : comparison.Lost state →
      Agrees loose (.ok value state) outcome
  | atBrace {value state outcome} : loose value → comparison.AtBrace state →
      Agrees loose (.ok value state) outcome
  | error {fault fault' state state'} : fault.cause = fault'.cause →
      comparison.labels.first.position fault.position =
        comparison.labels.second.position fault'.position →
      comparison.sameSkipped state.skipped state'.skipped →
      Agrees loose (.error fault state) (.error fault' state')
  | excused {fault state outcome} : comparison.excused fault.cause →
      Agrees loose (.error fault state) outcome

/-- Two parsers that make the same of the same tokens, up to loose values. -/
structure RelatedUpTo {α : Type} [Labeled α] (loose : α → Prop) (parser other : Parser α) :
    Prop where
  onward : Follows State.Onward parser
  agrees : ∀ {state state'}, comparison.Alike state state' →
    comparison.Agrees loose (parser state) (other state')

abbrev Related {α : Type} [Labeled α] (parser other : Parser α) : Prop :=
  comparison.RelatedUpTo (fun _ => False) parser other

/-- Two parsers that make the same of the same tokens, unless the first ends
before a brace. -/
abbrev Loosely {α : Type} [Labeled α] (parser other : Parser α) : Prop :=
  comparison.RelatedUpTo (fun _ => True) parser other

end Comparison

end Qml
