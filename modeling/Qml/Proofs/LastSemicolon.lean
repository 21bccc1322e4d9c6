import Qml.Proofs.TextEnd

/-! # Texts that end with a semicolon

Where a semicolon is the last token of a text, only a statement can consume it:
expressions, blocks and lists end before the end of such a text, since the last
token that they consume is another one. -/

namespace Qml

open Qml.Parser

/-- What is left of a text that ends with a semicolon: the semicolon is still
ahead, or the end of the text is current. -/
def Cursor.ClosesText (cursor : Cursor) : Prop :=
  (∃ front mark last, cursor.remaining = front ++ [mark, last] ∧
    mark.isPunctuation ';' = true ∧ last.isEnd = true) ∨ cursor.AtEnd

def Cursor.Inside (cursor : Cursor) : Prop := cursor.upcoming ≠ []

namespace Cursor.ClosesText

variable {cursor : Cursor} (closes : cursor.ClosesText)

include closes

theorem advance : cursor.advance.ClosesText := by
  rcases closes with ⟨front, mark, last, remaining, isSemicolon, isEnd⟩ | atEnd
  · cases front with
    | nil =>
        obtain ⟨-, upcoming⟩ := List.cons.inj remaining
        exact .inr ⟨by simp [Cursor.advance, upcoming],
          by simpa [Cursor.advance, Cursor.peek, upcoming] using isEnd⟩
    | cons first front =>
        obtain ⟨-, upcoming⟩ := List.cons.inj remaining
        left
        refine ⟨front, mark, last, ?_, isSemicolon, isEnd⟩
        cases front <;> simp [Cursor.remaining, Cursor.advance, Cursor.peek, upcoming]
  · exact .inr atEnd.advance

theorem inside_advance_of_inside (inside : cursor.Inside)
    (notSemicolon : cursor.current.isPunctuation ';' = false) : cursor.advance.Inside := by
  rcases closes with ⟨front, mark, last, remaining, isSemicolon, -⟩ | atEnd
  · cases front with
    | nil =>
        obtain ⟨current, -⟩ := List.cons.inj remaining
        rw [current, isSemicolon] at notSemicolon
        cases notSemicolon
    | cons first front =>
        obtain ⟨-, upcoming⟩ := List.cons.inj remaining
        unfold Inside
        cases front <;> simp [Cursor.advance, upcoming]
  · exact absurd atEnd.upcoming_eq inside

theorem inside_of_not_end (notEnd : cursor.current.isEnd = false) : cursor.Inside := by
  rcases closes with ⟨front, mark, last, remaining, -⟩ | atEnd
  · have lengths := congrArg List.length remaining
    simp only [Cursor.remaining, List.length_cons, List.length_append, List.length_nil] at lengths
    exact List.ne_nil_of_length_pos (by omega)
  · have isEnd := atEnd.isEnd
    rw [notEnd] at isEnd
    cases isEnd

theorem inside_advance (notSemicolon : cursor.current.isPunctuation ';' = false)
    (notEnd : cursor.current.isEnd = false) : cursor.advance.Inside :=
  closes.inside_advance_of_inside (closes.inside_of_not_end notEnd) notSemicolon

end Cursor.ClosesText

def State.KeepsClosing (before after : State) : Prop :=
  before.cursor.ClosesText → after.cursor.ClosesText

instance : Flow (Steps State.KeepsClosing) where
  refl _ := id
  trans one two := two ∘ one
  advance _ closes := closes.advance
  skipped _ _ := id
  settled _ := id
  visited _ _ _ _ kept := kept
  current _ _ _ held := held ⟨fun _ => id⟩

instance : Patched (Steps State.KeepsClosing) := ⟨fun _ _ => id⟩

instance : Keyed (Steps State.KeepsClosing) := ⟨fun _ => id⟩

namespace Parser

variable {α β : Type}

/-- A parser that does not get to the end of a text which ends with a semicolon. -/
class StaysInside (parser : Parser α) : Prop where
  inside : ∀ {state value after}, state.cursor.ClosesText → state.cursor.Inside →
    parser state = .ok value after → after.cursor.Inside

/-- A parser that ends before the end of a text which ends with a semicolon, wherever
it begins: the last token that it consumes is no semicolon. -/
class EndsInside (parser : Parser α) : Prop where
  inside : ∀ {state value after}, state.cursor.ClosesText → parser state = .ok value after →
    after.cursor.Inside

instance (priority := low) {parser : Parser α} [ends : EndsInside parser] : StaysInside parser :=
  ⟨fun closes _ ok => ends.inside closes ok⟩

/-! ## Sequences and choices -/

namespace EndsInside

theorem of_ne_ok {parser : Parser α}
    (fails : ∀ {state value after}, parser state ≠ .ok value after) : EndsInside parser :=
  ⟨fun _ ok => absurd ok fails⟩

theorem bind_later {first : Parser β} {next : β → Parser α}
    (one : Follows State.KeepsClosing first) (two : ∀ value, EndsInside (next value)) :
    EndsInside (first >>= next) := by
  constructor
  intro state value after closes ok
  obtain ⟨middle, between, firstOk, nextOk⟩ := bind_eq_ok.mp ok
  exact (two middle).inside (one.of_ok firstOk closes) nextOk

instance {first : Parser β} {next : β → Parser α} [one : Follows State.KeepsClosing first]
    [two : ∀ value, EndsInside (next value)] : EndsInside (first >>= next) :=
  bind_later one two

theorem bind_first {first : Parser β} {next : β → Parser α}
    (kept : Follows State.KeepsClosing first) (one : EndsInside first)
    (two : ∀ value, StaysInside (next value)) : EndsInside (first >>= next) := by
  constructor
  intro state value after closes ok
  obtain ⟨middle, between, firstOk, nextOk⟩ := bind_eq_ok.mp ok
  exact (two middle).inside (kept.of_ok firstOk closes) (one.inside closes firstOk) nextOk

instance (priority := high) {first : Parser β} {next : β → Parser α}
    [kept : Follows State.KeepsClosing first] [one : EndsInside first]
    [two : ∀ value, StaysInside (next value)] : EndsInside (first >>= next) :=
  bind_first kept one two

instance {condition : Prop} [Decidable condition] {left right : Parser α} [EndsInside left]
    [EndsInside right] : EndsInside (if condition then left else right) := by
  split <;> infer_instance

end EndsInside

namespace StaysInside

theorem bind {first : Parser β} {next : β → Parser α} (kept : Follows State.KeepsClosing first)
    (one : StaysInside first) (two : ∀ value, StaysInside (next value)) :
    StaysInside (first >>= next) := by
  constructor
  intro state value after closes inside ok
  obtain ⟨middle, between, firstOk, nextOk⟩ := bind_eq_ok.mp ok
  exact (two middle).inside (kept.of_ok firstOk closes) (one.inside closes inside firstOk) nextOk

instance {first : Parser β} {next : β → Parser α} [kept : Follows State.KeepsClosing first]
    [one : StaysInside first] [two : ∀ value, StaysInside (next value)] :
    StaysInside (first >>= next) :=
  bind kept one two

instance {condition : Prop} [Decidable condition] {left right : Parser α} [StaysInside left]
    [StaysInside right] : StaysInside (if condition then left else right) := by
  split <;> infer_instance

/-! ## Steps -/

theorem of_stays {parser : Parser α}
    (stays : ∀ {state value after}, parser state = .ok value after → after.cursor = state.cursor) :
    StaysInside parser := by
  constructor
  intro state value after _ inside ok
  rw [stays ok]
  exact inside

instance (value : α) : StaysInside (pure value : Parser α) := of_stays fun ok => by cases ok; rfl

instance : StaysInside token := of_stays fun ok => by cases ok; rfl

instance : StaysInside offset := of_stays fun ok => by cases ok; rfl

instance (start : Span) : StaysInside (spanFrom start) := of_stays fun ok => by cases ok; rfl

instance : StaysInside scope := of_stays fun ok => by cases ok; rfl

instance (source : List Char) (start stop : Nat) :
    StaysInside (effectiveText source start stop) := of_stays fun ok => by cases ok; rfl

instance (patch : Patch) : StaysInside (recordPatch patch) := of_stays fun ok => by cases ok; rfl

instance (mark : Char) : StaysInside (atPunctuation mark) := of_stays fun ok => by cases ok; rfl

instance (operator : Operator) : StaysInside (atOperator operator) :=
  of_stays fun ok => by cases ok; rfl

instance (keyword : Keyword) : StaysInside (atKeyword keyword) :=
  of_stays fun ok => by cases ok; rfl

end StaysInside

namespace EndsInside

instance : EndsInside (unexpected : Parser α) := of_ne_ok unexpected_ne_ok

instance (place : Span) (rule : BrokenRule) : EndsInside (refuseAt place rule : Parser α) :=
  of_ne_ok refuseAt_ne_ok

instance (rule : BrokenRule) : EndsInside (refuse rule : Parser α) := of_ne_ok refuse_ne_ok

instance (visit : Visit) (parser : Parser α) [ends : EndsInside parser] :
    EndsInside (inScope visit parser) := by
  constructor
  intro state value after closes ok
  obtain ⟨inner, innerOk, rfl⟩ := inScope_eq_ok.mp ok
  have entered : ({ state with scope := visit.enter state.scope } : State).cursor.ClosesText :=
    closes
  have inside := ends.inside entered innerOk
  exact inside

theorem expectPunctuation {mark : Char} (other : mark ≠ ';') :
    EndsInside (expectPunctuation mark) := by
  constructor
  intro state found after closes ok
  obtain ⟨isMark, -, rfl⟩ := expectPunctuation_eq_ok.mp ok
  have kind : state.cursor.current.kind = .punctuation mark := of_decide_eq_true isMark
  refine closes.inside_advance ?_ ?_
  · simp [Token.isPunctuation, kind, other]
  · simp [Token.isEnd, kind]

instance : EndsInside (Parser.expectPunctuation '{') := expectPunctuation (by decide)

instance : EndsInside (Parser.expectPunctuation '}') := expectPunctuation (by decide)

instance : EndsInside (Parser.expectPunctuation '(') := expectPunctuation (by decide)

instance : EndsInside (Parser.expectPunctuation ')') := expectPunctuation (by decide)

instance : EndsInside (Parser.expectPunctuation ']') := expectPunctuation (by decide)

instance (keyword : Keyword) : EndsInside (expectKeyword keyword) := by
  constructor
  intro state found after closes ok
  obtain ⟨isKeyword, -, rfl⟩ := expectKeyword_eq_ok.mp ok
  have kind : state.cursor.current.kind = .keyword keyword := of_decide_eq_true isKeyword
  exact closes.inside_advance (by simp [Token.isPunctuation, kind]) (by simp [Token.isEnd, kind])

instance : EndsInside expectName := by
  constructor
  intro state name after closes ok
  obtain ⟨isName, rfl⟩ := expectName_eq_ok.mp ok
  refine closes.inside_advance ?_ ?_
  all_goals
    simp only [Token.isPunctuation, Token.isEnd]
    cases kind : state.cursor.current.kind <;> simp_all [TokenKind.name?]

instance : EndsInside expectWord := by
  constructor
  intro state word after closes ok
  obtain ⟨isWord, rfl⟩ := expectWord_eq_ok.mp ok
  refine closes.inside_advance ?_ ?_
  all_goals
    simp only [Token.isPunctuation, Token.isEnd]
    cases kind : state.cursor.current.kind <;> simp_all [TokenKind.word?]

/-! ## Repetition -/

theorem advance_at {first : Parser β} {next : β → Parser α}
    [kept : Follows State.KeepsClosing first] [two : ∀ value, StaysInside (next value)]
    (ends : ∀ {state value after}, first state = .ok value after →
      ∃ mark, mark ≠ ';' ∧ after.cursor.current.kind = .punctuation mark) :
    EndsInside (first >>= fun value => advance >>= fun _ => next value) := by
  constructor
  intro state value after closes ok
  obtain ⟨middle, between, firstOk, ok⟩ := bind_eq_ok.mp ok
  have closes' := kept.of_ok firstOk closes
  obtain ⟨mark, other, kind⟩ := ends firstOk
  have inside : between.advanced.cursor.Inside := by
    refine closes'.inside_advance ?_ ?_
    · simp [Token.isPunctuation, kind, other]
    · simp [Token.isEnd, kind]
  exact (two middle).inside closes'.advance inside ok

theorem listItem_eq_none {closing : Char} {trailing : Bool} {item : Parser α}
    {state after : State} (ok : listItem closing trailing item state = .ok none after) :
    after.cursor.current.kind = .punctuation closing := by
  simp only [listItem, run_atPunctuation, run_ite] at ok
  split at ok
  case isTrue closes =>
      cases ok
      exact of_decide_eq_true closes
  case isFalse =>
      obtain ⟨comma, between, -, ok⟩ := bind_eq_ok.mp ok
      simp only [run_atPunctuation, run_ite] at ok
      split at ok
      case isTrue closes =>
          cases ok
          exact of_decide_eq_true (Bool.and_eq_true_iff.mp closes).2
      case isFalse =>
          obtain ⟨value, last, -, ok⟩ := bind_eq_ok.mp ok
          cases ok

theorem listUntil {closing : Char} (other : closing ≠ ';') (trailing : Bool) (item : Parser α)
    [Follows State.KeepsClosing item] : EndsInside (listUntil closing trailing item) := by
  constructor
  intro state values after closes ok
  simp only [Parser.listUntil, run_atPunctuation, run_ite] at ok
  split at ok
  case isTrue isMark =>
      cases ok
      have kind : state.cursor.current.kind = .punctuation closing := of_decide_eq_true isMark
      refine closes.inside_advance ?_ ?_
      · simp [Token.isPunctuation, kind, other]
      · simp [Token.isEnd, kind]
  case isFalse =>
      have rest : ∀ first, EndsInside (collect (listItem closing trailing item) >>= fun more =>
          advance >>= fun _ => pure (first :: more)) := fun first =>
        advance_at fun collected =>
          (collect_last collected).elim fun _ last => ⟨closing, other, listItem_eq_none last⟩
      have whole : EndsInside (item >>= fun first => collect (listItem closing trailing item) >>=
          fun more => advance >>= fun _ => pure (first :: more)) :=
        bind_later inferInstance rest
      exact whole.inside closes ok

end EndsInside

namespace StaysInside

theorem collectWithin {step : Parser (Option α)} (kept : Follows State.KeepsClosing step)
    (one : StaysInside step) (clock : List Token) : StaysInside (collectWithin step clock) := by
  induction clock with
  | nil => exact inferInstanceAs (StaysInside unexpected)
  | cons tick clock induction =>
      have more : Follows State.KeepsClosing (Parser.collectWithin step clock) :=
        kept.collectWithin clock
      refine bind kept one fun result => ?_
      split <;> infer_instance

instance {step : Parser (Option α)} [kept : Follows State.KeepsClosing step]
    [one : StaysInside step] : StaysInside (collect step) :=
  ⟨fun closes inside ok => (collectWithin kept one _).inside closes inside ok⟩

theorem iterateWithin {step : α → Parser (Option α)}
    (kept : ∀ value, Follows State.KeepsClosing (step value))
    (one : ∀ value, StaysInside (step value)) (clock : List Token) (start : α) :
    StaysInside (iterateWithin step clock start) := by
  induction clock generalizing start with
  | nil => exact inferInstanceAs (StaysInside unexpected)
  | cons tick clock induction =>
      refine bind (kept start) (one start) fun result => ?_
      split
      · infer_instance
      · exact induction _

instance {step : α → Parser (Option α)} [kept : ∀ value, Follows State.KeepsClosing (step value)]
    [one : ∀ value, StaysInside (step value)] (start : α) : StaysInside (iterate step start) :=
  ⟨fun closes inside ok => (iterateWithin kept one _ start).inside closes inside ok⟩

end StaysInside

end Parser

/-! ## Productions -/

class Deeper.EndsInside (deeper : Deeper) : Prop where
  assignment : ∀ noIn, Parser.EndsInside (deeper.assignment noIn)
  unary : ∀ calls, Parser.EndsInside (deeper.unary calls)
  atom : ∀ calls, Parser.EndsInside (deeper.atom calls)

attribute [instance] Deeper.EndsInside.assignment Deeper.EndsInside.unary Deeper.EndsInside.atom

namespace Grammar

-- As for what every step respects, one search goes through a whole production.
set_option synthInstance.maxSize 512

variable (grammar : Grammar) [grammar.deeper.Follows State.KeepsClosing]

/-! ## Semicolons -/

omit [grammar.deeper.Follows State.KeepsClosing] in
instance : StaysInside grammar.canOmitSemicolon := by unfold canOmitSemicolon; infer_instance

/-! ## Blocks and functions -/

omit [grammar.deeper.Follows State.KeepsClosing] in
theorem blockItem_eq_none {state after : State} (ok : grammar.blockItem state = .ok none after) :
    after.cursor.current.kind = .punctuation '}' := by
  simp only [blockItem, run_atPunctuation, run_ite] at ok
  split at ok
  case isTrue closes =>
      cases ok
      exact of_decide_eq_true closes
  case isFalse =>
      simp only [run_atEnd, run_ite] at ok
      split at ok
      · exact absurd ok unexpected_ne_ok
      · obtain ⟨value, between, -, ok⟩ := bind_eq_ok.mp ok
        cases ok

instance : EndsInside grammar.block :=
  EndsInside.bind_later inferInstance fun _ => EndsInside.advance_at fun collected =>
    (collect_last collected).elim fun _ last => ⟨'}', by decide, grammar.blockItem_eq_none last⟩

instance (required : Bool) : StaysInside (functionName required) := by
  constructor
  intro state value after closes inside ok
  simp only [functionName, run_token] at ok
  cases name : state.cursor.current.kind.name? with
  | some word =>
      have named : expectName state = .ok word state.advanced := expectName_eq_ok.mpr ⟨name, rfl⟩
      have ends : EndsInside expectName := inferInstance
      simp only [name] at ok
      cases ok
      exact ends.inside closes named
  | none =>
      simp only [name, run_ite] at ok
      split at ok
      · exact absurd ok expected_ne_ok
      · cases ok
        exact inside

instance (named : Bool) (start : Span) : EndsInside (grammar.function named start) := by
  unfold function; infer_instance

instance : EndsInside grammar.memberBlock := by unfold memberBlock; infer_instance

/-! ## Lists and literals -/

instance : EndsInside grammar.arguments :=
  EndsInside.bind_first inferInstance (EndsInside.listUntil (by decide) _ _) inferInstance

instance (opening : Span) : EndsInside (grammar.scriptArray opening) :=
  EndsInside.bind_first inferInstance (EndsInside.listUntil (by decide) _ _) inferInstance

instance (opening : Span) : EndsInside (grammar.array opening) := by
  refine EndsInside.bind_first inferInstance inferInstance fun expr => ?_
  split <;> infer_instance

instance (opening : Span) : EndsInside (grammar.object opening) :=
  EndsInside.bind_first inferInstance (EndsInside.listUntil (by decide) _ _) inferInstance

instance (start : Span) : EndsInside (grammar.parenthesizedAtom start) := by
  unfold parenthesizedAtom; infer_instance

instance (start : Span) : EndsInside (grammar.functionAtom start) := by
  unfold functionAtom; infer_instance

instance : EndsInside grammar.parenthesized := by unfold parenthesized; infer_instance

section

variable [grammar.deeper.EndsInside]

/-! ## Sequences -/

instance (start : Span) (expr : Expr) : StaysInside (grammar.elementOr start expr) := by
  refine StaysInside.bind inferInstance inferInstance fun brace => ?_
  split <;> infer_instance

instance (noIn : Bool) : EndsInside (grammar.sequenceItem noIn) := by
  refine EndsInside.bind_later inferInstance fun start =>
    EndsInside.bind_first inferInstance inferInstance fun expr => ?_
  split <;> infer_instance

instance (noIn : Bool) : StaysInside (grammar.sequenceStep noIn) := by
  unfold sequenceStep; infer_instance

instance (commas noIn : Bool) (first : Expr) :
    StaysInside (grammar.sequenceTail commas noIn first) := by
  unfold sequenceTail; infer_instance

instance (commas noIn : Bool) : EndsInside (grammar.expression commas noIn) := by
  unfold expression; infer_instance

/-! ## Atoms and what follows them -/

instance (calls : Bool) (expr : Expr) : StaysInside (grammar.subscript calls expr) := by
  refine StaysInside.bind inferInstance inferInstance fun atDot => ?_
  split
  · infer_instance
  · refine StaysInside.bind inferInstance inferInstance fun atBracket => ?_
    split <;> infer_instance

instance (start : Span) : EndsInside (grammar.construction start) := by
  unfold construction; infer_instance

instance : EndsInside grammar.bareAtom := by
  constructor
  intro state value after closes ok
  have inside : ∀ {parser : Parser Expr} [EndsInside parser], parser state = .ok value after →
      after.cursor.Inside := fun {_} ends => ends.inside closes
  simp only [bareAtom, run_token] at ok
  generalize kindEq : state.cursor.current.kind = kind at ok
  split at ok
  case h_6 =>
      cases simple : simpleAtom? kind with
      | none =>
          simp only [simple] at ok
          exact absurd ok unexpected_ne_ok
      | some atom =>
          simp only [simple] at ok
          cases ok
          refine closes.inside_advance ?_ ?_
          all_goals
            simp only [Token.isPunctuation, Token.isEnd, kindEq]
            cases kind <;> simp_all [simpleAtom?]
  all_goals exact inside ok

instance (calls : Bool) : EndsInside (grammar.atom calls) := by
  unfold Grammar.atom subscripts; infer_instance

/-! ## Operators -/

instance (operator : Operator) (fixity : Fixity) (operand : Expr) (start : Span) :
    StaysInside (applyUnary operator fixity operand start) := by
  unfold applyUnary; infer_instance

instance (expr : Expr) : StaysInside (stepAfter expr) := by
  constructor
  intro state value after closes inside ok
  simp only [stepAfter, run_token] at ok
  cases kind : state.cursor.current.kind with
  | operator operator =>
      have advanced : state.advanced.cursor.Inside :=
        closes.inside_advance (by simp [Token.isPunctuation, kind]) (by simp [Token.isEnd, kind])
      simp only [kind, run_ite] at ok
      split at ok
      · have rest : StaysInside (spanFrom expr.span >>= fun span =>
            applyUnary operator .after expr span >>= fun result => pure (some result)) :=
          inferInstance
        exact rest.inside closes.advance advanced ok
      · cases ok
        exact inside
  | _ =>
      simp only [kind] at ok
      cases ok
      exact inside

instance (calls : Bool) : EndsInside (grammar.stepped calls) := by unfold stepped; infer_instance

instance (calls : Bool) : EndsInside (grammar.unary calls) := by
  refine EndsInside.bind_later inferInstance fun current => ?_
  split <;> infer_instance

instance (operator : Operator) (left right : Expr) :
    StaysInside (grammar.applyBinary operator left right) := by
  unfold applyBinary
  split <;> infer_instance

instance (noIn : Bool) (least : Nat) (tighter : Nat → Expr → Parser Expr) (left : Expr)
    [∀ precedence operand, Follows State.KeepsClosing (tighter precedence operand)]
    [∀ precedence operand, StaysInside (tighter precedence operand)] :
    StaysInside (grammar.operatorRound noIn least tighter left) := by
  refine StaysInside.bind inferInstance inferInstance fun found => ?_
  split <;> infer_instance

instance (noIn : Bool) (room least : Nat) (left : Expr) :
    StaysInside (grammar.climb noIn room least left) := by
  induction room generalizing least left with
  | zero => exact inferInstanceAs (StaysInside (pure left))
  | succ room induction =>
      have kept : ∀ precedence operand, Follows State.KeepsClosing
          (grammar.climb noIn room precedence operand) :=
        fun precedence operand => climb_obeys grammar noIn room precedence operand
      exact inferInstanceAs (StaysInside (iterate (grammar.operatorRound noIn least
        fun precedence operand => grammar.climb noIn room precedence operand) left))

instance (noIn : Bool) : EndsInside (grammar.operation noIn) := by
  unfold operation operators; infer_instance

instance (noIn : Bool) : EndsInside (grammar.conditional noIn) := by
  unfold conditional; infer_instance

instance (noIn : Bool) : EndsInside (grammar.assignment noIn) := by
  refine EndsInside.bind_later inferInstance fun start =>
    EndsInside.bind_first inferInstance inferInstance fun left =>
      StaysInside.bind inferInstance inferInstance fun found => ?_
  split <;> infer_instance

/-! ## Parts of statements -/

instance (noIn : Bool) : EndsInside (grammar.declarator noIn) := by
  unfold declarator; infer_instance

instance (noIn : Bool) : StaysInside (grammar.declaratorStep noIn) := by
  unfold declaratorStep; infer_instance

instance (noIn : Bool) : EndsInside (grammar.declarators noIn) := by
  unfold declarators; infer_instance

instance : EndsInside grammar.forInit := by unfold forInit; infer_instance

instance (mark : Char) : StaysInside (grammar.optionalExpression mark) := by
  unfold optionalExpression; infer_instance

end

omit [grammar.deeper.Follows State.KeepsClosing] in
theorem switchCase_eq_none {state after : State} (ok : grammar.switchCase state = .ok none after) :
    after.cursor.current.kind = .punctuation '}' := by
  obtain ⟨label, between, labelOk, ok⟩ := bind_eq_ok.mp ok
  cases label with
  | some test =>
      obtain ⟨body, last, -, ok⟩ := bind_eq_ok.mp ok
      cases ok
  | none =>
      cases ok
      simp only [caseLabel, run_token, run_ite] at labelOk
      split at labelOk
      case isTrue closes =>
          cases labelOk
          exact of_decide_eq_true closes
      case isFalse =>
          split at labelOk
          · obtain ⟨found, next, -, labelOk⟩ := bind_eq_ok.mp labelOk
            obtain ⟨test, next, -, labelOk⟩ := bind_eq_ok.mp labelOk
            obtain ⟨colon, next, -, labelOk⟩ := bind_eq_ok.mp labelOk
            cases labelOk
          · split at labelOk
            · obtain ⟨found, next, -, labelOk⟩ := bind_eq_ok.mp labelOk
              obtain ⟨colon, next, -, labelOk⟩ := bind_eq_ok.mp labelOk
              cases labelOk
            · exact absurd labelOk unexpected_ne_ok

instance : EndsInside grammar.switchBlock := by
  refine EndsInside.bind_later inferInstance fun _ => EndsInside.advance_at fun ok => ?_
  obtain ⟨inner, collected, rfl⟩ := inScope_eq_ok.mp ok
  obtain ⟨before, last⟩ := collect_last collected
  have kind := grammar.switchCase_eq_none last
  exact ⟨'}', by decide, kind⟩

omit [grammar.deeper.Follows State.KeepsClosing] in
instance (keyword : Keyword) (label : Option String) : StaysInside (checkJump keyword label) := by
  refine StaysInside.bind inferInstance inferInstance fun scope => ?_
  split <;> infer_instance

instance : StaysInside grammar.jumpLabel := by
  refine StaysInside.bind inferInstance inferInstance fun omitted => ?_
  split
  · infer_instance
  · exact inferInstanceAs (StaysInside (functionName false))

instance : EndsInside grammar.switchTail := by unfold switchTail; infer_instance

instance : StaysInside grammar.catchClause := by unfold catchClause; infer_instance

instance : StaysInside grammar.finallyClause := by unfold finallyClause; infer_instance

instance : StaysInside grammar.tryTail := by unfold tryTail; infer_instance

end Grammar

instance Deeper.within_endsInside (setting : Setting) (room : Nat) :
    (Deeper.within setting room).EndsInside := by
  induction room with
  | zero =>
      exact ⟨fun _ => inferInstanceAs (Parser.EndsInside (refuse _)),
        fun _ => inferInstanceAs (Parser.EndsInside (refuse _)),
        fun _ => inferInstanceAs (Parser.EndsInside (refuse _))⟩
  | succ room induction =>
      have level : (Grammar.deeper ⟨setting, within setting room⟩).EndsInside := induction
      have kept : (Grammar.deeper ⟨setting, within setting room⟩).Follows State.KeepsClosing :=
        within_obeys setting room
      exact ⟨fun _ => inferInstanceAs (Parser.EndsInside (inScope _ (Grammar.assignment _ _))),
        fun _ => inferInstanceAs (Parser.EndsInside (inScope _ (Grammar.unary _ _))),
        fun _ => inferInstanceAs (Parser.EndsInside (inScope _ (Grammar.atom _ _)))⟩

/-- Nesting productions of which it is known where they can begin and end in a text
that ends with a semicolon. -/
class Deeper.Bounded (deeper : Deeper) : Prop where
  keepsEnd : deeper.Follows State.KeepsEnd
  keepsClosing : deeper.Follows State.KeepsClosing
  beginsInside : deeper.BeginsInside
  endsInside : deeper.EndsInside

attribute [instance] Deeper.Bounded.keepsEnd Deeper.Bounded.keepsClosing
  Deeper.Bounded.beginsInside Deeper.Bounded.endsInside

instance Deeper.within_bounded (setting : Setting) (room : Nat) :
    (Deeper.within setting room).Bounded :=
  ⟨within_obeys setting room, within_obeys setting room, inferInstance, inferInstance⟩

end Qml
