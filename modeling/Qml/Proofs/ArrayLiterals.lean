import Qml.Proofs.LoneExpressions
import Qml.Proofs.Parser.Repetition

/-! # Array literals

The entries of an array literal stand between commas, and an entry may be a hole, for
which nothing stands. A comma behind the last entry does not begin another one, so that a
hole at the end has a comma of its own. A strict parser refuses such a comma, and
otherwise reads the same entries. -/

namespace Qml

open Qml.Parser Qml.Grammar

namespace Grammar

/-! ## How arrays are written -/

/-- What stands for an entry in front of a token: nothing for a hole, which only a comma
can follow, or the tokens of an expression. -/
inductive ReadsEntry (grammar : Grammar) (scope : Scope) (next : Token) :
    (used : List Token) → (entry : Option Expr) → Prop
  | hole (separates : next.kind = .punctuation ',') : ReadsEntry grammar scope next [] none
  | present {used : List Token} {expr : Expr}
      (whole : grammar.ReadsWhole scope used next.span.origin expr) :
      ReadsEntry grammar scope next used (some expr)

/-- The tokens of an array literal behind an entry, up to the closing bracket: more
entries, each behind a comma, and maybe one comma more. -/
inductive WritesRest (grammar : Grammar) (scope : Scope) :
    (entries : List (Option Expr)) → (comma : Bool) → List Token → Prop
  | closing {closing : Token} (closes : closing.kind = .punctuation ']') :
      WritesRest grammar scope [] false [closing]
  | comma {mark closing : Token} (separates : mark.kind = .punctuation ',')
      (closes : closing.kind = .punctuation ']') :
      WritesRest grammar scope [] true [mark, closing]
  | more {mark next : Token} {used rest : List Token} {entry : Option Expr}
      {entries : List (Option Expr)} {comma : Bool} (separates : mark.kind = .punctuation ',')
      (reads : ReadsEntry grammar scope next used entry)
      (behind : WritesRest grammar scope entries comma (next :: rest)) :
      WritesRest grammar scope (entry :: entries) comma (mark :: (used ++ next :: rest))

/-- The tokens of an array literal behind its opening bracket. Whether a comma stands
directly before the closing one is told by `comma`. -/
inductive WritesArray (grammar : Grammar) (scope : Scope) :
    (entries : List (Option Expr)) → (comma : Bool) → List Token → Prop
  | empty {closing : Token} (closes : closing.kind = .punctuation ']') :
      WritesArray grammar scope [] false [closing]
  | entries {next : Token} {used rest : List Token} {entry : Option Expr}
      {entries : List (Option Expr)} {comma : Bool}
      (reads : ReadsEntry grammar scope next used entry)
      (behind : WritesRest grammar scope entries comma (next :: rest)) :
      WritesArray grammar scope (entry :: entries) comma (used ++ next :: rest)

variable {setting : Setting} {room : Nat} {scope : Scope} {state : State}
  {entries : List (Option Expr)} {entry : Option Expr} {comma : Bool}
  {tokens used rest following : List Token} {next : Token}

theorem WritesRest.exists_closing {grammar : Grammar}
    (written : grammar.WritesRest scope entries comma tokens) :
    ∃ closing, tokens.getLast? = some closing ∧ closing.kind = .punctuation ']' := by
  induction written with
  | closing closes => exact ⟨_, rfl, closes⟩
  | comma _ closes => exact ⟨_, rfl, closes⟩
  | more _ _ _ induction =>
      obtain ⟨closing, last, closes⟩ := induction
      exact ⟨closing, by simp [List.getLast?_cons, last], closes⟩

theorem WritesRest.endsExpression {grammar : Grammar}
    (written : grammar.WritesRest scope entries comma (next :: rest)) : next.EndsExpression := by
  cases written with
  | closing closes => exact .of_mark closes (by decide)
  | comma separates => exact .of_mark separates (by decide)
  | more separates => exact .of_mark separates (by decide)

theorem WritesRest.length_lt {grammar : Grammar}
    (written : grammar.WritesRest scope entries comma tokens) : entries.length < tokens.length := by
  induction written with
  | closing => exact Nat.one_pos
  | comma => exact Nat.two_pos
  | more _ _ _ induction =>
      simp only [List.length_cons, List.length_append] at induction ⊢
      omega

/-! ## How they are read -/

theorem listedExpression_of_entry
    (reads : (within setting room).ReadsEntry scope next used entry)
    (fresh : state.Fresh setting.source scope)
    (ahead : state.cursor.remaining = used ++ next :: following) (more : following ≠ [])
    (ends : next.EndsExpression) :
    state.cursor.current.isPunctuation ']' = false ∧
      ∃ after, (within setting room).listedExpression true state = .ok entry after ∧
        after.cursor.remaining = next :: following ∧ after.Reached setting.source ∧
        after.scope = scope := by
  obtain ⟨behind, following, rfl⟩ := List.exists_cons_of_ne_nil more
  cases reads with
  | hole separates =>
      have current : state.cursor.current = next := Cursor.current_of_remaining ahead
      have isComma : state.cursor.current.isPunctuation ',' = true := by
        simp [current, Token.isPunctuation, separates]
      refine ⟨?_, state, ?_, ahead, fresh.reached, fresh.scope_eq⟩
      · simp [current, Token.isPunctuation, separates]
      · simp only [listedExpression, run_atPunctuation, isComma]
        rfl
  | present whole =>
      obtain ⟨first, more, rfl, begins⟩ := whole.exists_cons
      have current : state.cursor.current = first := Cursor.current_of_remaining ahead
      obtain ⟨after, ok, remaining, reached, scopeEq⟩ := whole.in_text fresh ahead ends rfl
      have notComma : state.cursor.current.isPunctuation ',' = false :=
        current ▸ begins.2.1 ',' (by simp)
      refine ⟨current ▸ begins.2.1 ']' (by simp), after, ?_, remaining, reached, scopeEq⟩
      simp only [listedExpression, run_atPunctuation, notComma, Bool.and_false, Bool.false_eq_true,
        if_false]
      exact bind_eq_ok.mpr ⟨_, after, ok, rfl⟩

theorem listedExpression_ne_ok {value : Option Expr} {after : State}
    (closes : state.cursor.current.kind = .punctuation ']') :
    (within setting room).listedExpression true state ≠ .ok value after := by
  intro ok
  have notComma : state.cursor.current.isPunctuation ',' = false := by
    simp [Token.isPunctuation, closes]
  simp only [listedExpression, run_atPunctuation, notComma, Bool.and_false, Bool.false_eq_true,
    if_false] at ok
  obtain ⟨expr, between, passed, -⟩ := bind_eq_ok.mp ok
  have begins := expression_firstToken Comparison.assignment_firstToken_within passed
  have notClosing := begins.2.1 ']' (by simp)
  simp [Token.isPunctuation, closes] at notClosing

/-- What comes behind an entry: a comma and another entry, or nothing. -/
def entryBehind (setting : Setting) (room : Nat) : Parser (Option (Option Expr)) :=
  listItem ']' (!setting.strict) ((within setting room).listedExpression true)

theorem entryBehind_of_entry {mark : Token} (separates : mark.kind = .punctuation ',')
    (reads : (within setting room).ReadsEntry scope next used entry)
    (reached : state.Reached setting.source) (scopeEq : state.scope = scope)
    (ahead : state.cursor.remaining = mark :: (used ++ next :: following)) (more : following ≠ [])
    (ends : next.EndsExpression) :
    ∃ after, entryBehind setting room state = .ok (some entry) after ∧
      after.cursor.remaining = next :: following ∧ after.Reached setting.source ∧
      after.scope = scope := by
  have isComma : state.cursor.current.kind = .punctuation ',' := by
    rw [Cursor.current_of_remaining ahead, separates]
  have fresh := reached.fresh (Token.isSolid_of_kind isComma (by simp) (by simp))
  rw [scopeEq] at fresh
  have behind := Cursor.remaining_advance_of_ne_nil ahead (by simp)
  obtain ⟨notClosing, after, ok, rest⟩ := listedExpression_of_entry reads fresh behind more ends
  refine ⟨after, ?_, rest⟩
  rw [entryBehind, listItem_at_comma _ isComma (by decide), notClosing, Bool.and_false]
  exact bind_eq_ok.mpr ⟨entry, after, ok, rfl⟩

theorem exists_collects (written : (within setting room).WritesRest scope entries comma tokens)
    (allowed : comma = true → setting.strict = false) (reached : state.Reached setting.source)
    (scopeEq : state.scope = scope) (ahead : state.cursor.remaining = tokens ++ following)
    (more : following ≠ []) :
    ∃ last after closing, Collects (entryBehind setting room) state entries last ∧
      entryBehind setting room last = .ok none after ∧ tokens.getLast? = some closing ∧
      after.cursor.remaining = closing :: following := by
  induction written generalizing state with
  | @closing closing closes =>
      have isClosing := Cursor.isPunctuation_of_remaining ahead closes
      exact ⟨state, state, closing, .done _, listItem_of_closing isClosing, rfl, ahead⟩
  | @comma mark closing separates closes =>
      have isComma : state.cursor.current.kind = .punctuation ',' := by
        rw [Cursor.current_of_remaining ahead, separates]
      have behind : state.advanced.cursor.remaining = _ := Cursor.remaining_advance ahead
      have isClosing := Cursor.isPunctuation_of_remaining behind closes
      refine ⟨state, state.advanced, closing, .done _, ?_, rfl, behind⟩
      rw [entryBehind, listItem_at_comma _ isComma (by decide), isClosing, allowed rfl]
      rfl
  | @more mark next used rest entry entries comma separates reads behind induction =>
      have whole : state.cursor.remaining = mark :: (used ++ next :: (rest ++ following)) := by
        simpa using ahead
      obtain ⟨between, first, remaining, reached, scopeEq⟩ := entryBehind_of_entry separates reads
        reached scopeEq whole (by simp [more]) behind.endsExpression
      obtain ⟨last, after, closing, collects, ended, isLast, atClosing⟩ :=
        induction allowed reached scopeEq remaining
      refine ⟨last, after, closing, .round first collects, ended, ?_, atClosing⟩
      simp [List.getLast?_cons, isLast]

theorem not_ends_of_comma (written : (within setting room).WritesRest scope entries true tokens)
    (strict : setting.strict = true) (reached : state.Reached setting.source)
    (scopeEq : state.scope = scope) (ahead : state.cursor.remaining = tokens ++ following)
    (more : following ≠ []) {values : List (Option Expr)} {last after : State}
    (collects : Collects (entryBehind setting room) state values last) :
    entryBehind setting room last ≠ .ok none after := by
  generalize isLast : true = comma at written
  induction written generalizing state values with
  | closing => cases isLast
  | @comma mark closing separates closes =>
      have isComma : state.cursor.current.kind = .punctuation ',' := by
        rw [Cursor.current_of_remaining ahead, separates]
      have behind : state.advanced.cursor.remaining = _ := Cursor.remaining_advance ahead
      have atClosing : state.advanced.cursor.current.kind = .punctuation ']' := by
        rw [Cursor.current_of_remaining behind, closes]
      have refused : ∀ {found after}, entryBehind setting room state ≠ .ok found after := by
        intro found after ok
        rw [entryBehind, listItem_at_comma _ isComma (by decide), strict] at ok
        obtain ⟨value, between, passed, -⟩ := bind_eq_ok.mp ok
        exact listedExpression_ne_ok atClosing passed
      cases collects with
      | done => exact refused
      | round first => exact absurd first refused
  | @more mark next used rest entry entries comma separates reads behind induction =>
      have whole : state.cursor.remaining = mark :: (used ++ next :: (rest ++ following)) := by
        simpa using ahead
      obtain ⟨between, first, remaining, reached, scopeEq⟩ := entryBehind_of_entry separates reads
        reached scopeEq whole (by simp [more]) behind.endsExpression
      cases collects with
      | done =>
          intro ended
          cases first.symm.trans ended
      | round first' later =>
          cases first.symm.trans first'
          exact induction reached scopeEq remaining later isLast

theorem expressionList_of_written
    (written : (within setting room).WritesArray scope entries comma tokens)
    (allowed : comma = true → setting.strict = false) (fresh : state.Fresh setting.source scope)
    (ahead : state.cursor.remaining = tokens ++ following) (more : following ≠ []) :
    ∃ (closing : Token) (last : State), tokens.getLast? = some closing ∧
      (within setting room).expressionList ']' (!setting.strict) true state =
        .ok entries last.advanced ∧ last.cursor.remaining = closing :: following := by
  cases written with
  | @empty closing closes =>
      have isClosing := Cursor.isPunctuation_of_remaining ahead closes
      refine ⟨closing, state, rfl, ?_, ahead⟩
      simp only [expressionList, listUntil, run_atPunctuation, isClosing, if_true, run_advance]
      rfl
  | @entries next used rest entry entries comma reads behind =>
      have whole : state.cursor.remaining = used ++ next :: (rest ++ following) := by
        simpa using ahead
      obtain ⟨notClosing, between, firstOk, remaining, reached, scopeEq⟩ :=
        listedExpression_of_entry reads fresh whole (by simp [more]) behind.endsExpression
      obtain ⟨last, after, closing, collects, ended, isLast, atClosing⟩ :=
        exists_collects behind allowed reached scopeEq remaining more
      have enough : entries.length ≤ between.ahead := by
        have shorter := behind.length_lt
        have upcoming := (List.cons.inj remaining).2
        simp only [State.ahead, upcoming, List.length_append, List.length_cons] at shorter ⊢
        omega
      refine ⟨closing, after, by simp [List.getLast?_append, isLast], ?_, atClosing⟩
      simp only [expressionList, listUntil, run_atPunctuation, notClosing, Bool.false_eq_true,
        if_false]
      refine bind_eq_ok.mpr ⟨entry, between, firstOk, ?_⟩
      exact bind_eq_ok.mpr ⟨entries, after, collect_eq_ok.mpr ⟨last, collects, ended, enough⟩, rfl⟩

/-- From a state on, an array literal is read as some entries, up to what follows it. -/
def ReadsArray (grammar : Grammar) (state : State) (start : Span)
    (entries : List (Option Expr)) (stop : Nat) (following : List Token) : Prop :=
  ∃ after, grammar.scriptArray start state =
    .ok ⟨.array entries none, start.endingAt stop⟩ after ∧ after.cursor.remaining = following

theorem readsArray_of_written
    (written : (within setting room).WritesArray scope entries comma tokens)
    (allowed : comma = true → setting.strict = false) (fresh : state.Fresh setting.source scope)
    (ahead : state.cursor.remaining = tokens ++ following) (more : following ≠ [])
    {closing : Token} (isLast : tokens.getLast? = some closing) (start : Span) :
    (within setting room).ReadsArray state start entries closing.span.stop following := by
  obtain ⟨closing', last, isLast', ok, atClosing⟩ :=
    expressionList_of_written written allowed fresh ahead more
  cases isLast.symm.trans isLast'
  refine ⟨last.advanced, bind_eq_ok.mpr ⟨entries, _, ok, ?_⟩,
    Cursor.remaining_advance_of_ne_nil atClosing more⟩
  rw [run_spanFrom, ← Cursor.current_of_remaining atClosing]
  rfl

theorem scriptArray_ne_ok (written : (within setting room).WritesArray scope entries true tokens)
    (strict : setting.strict = true) (fresh : state.Fresh setting.source scope)
    (ahead : state.cursor.remaining = tokens ++ following) (more : following ≠ []) {start : Span}
    {expr : Expr} {after : State} :
    (within setting room).scriptArray start state ≠ .ok expr after := by
  intro ok
  obtain ⟨found, between, listOk, -⟩ := bind_eq_ok.mp ok
  cases written with
  | @entries next used rest entry entries _ reads behind =>
      have whole : state.cursor.remaining = used ++ next :: (rest ++ following) := by
        simpa using ahead
      obtain ⟨notClosing, first, firstOk, remaining, reached, scopeEq⟩ :=
        listedExpression_of_entry reads fresh whole (by simp [more]) behind.endsExpression
      simp only [expressionList, listUntil, run_atPunctuation, notClosing, Bool.false_eq_true,
        if_false] at listOk
      obtain ⟨_, _, firstOk', listOk⟩ := bind_eq_ok.mp listOk
      cases firstOk.symm.trans firstOk'
      obtain ⟨values, _, collected, -⟩ := bind_eq_ok.mp listOk
      obtain ⟨last, collects, ended, -⟩ := collect_eq_ok.mp collected
      exact not_ends_of_comma behind strict reached scopeEq remaining more collects ended

/-! ## Strictness -/

theorem ReadsEntry.relaxed (reads : (within setting room).ReadsEntry scope next used entry)
    (joined : JumpsOnSameLine used) :
    (within { setting with strict := false } room).ReadsEntry scope next used entry := by
  cases reads with
  | hole separates => exact .hole separates
  | present whole => exact .present (whole.relaxed joined)

theorem WritesRest.relaxed (written : (within setting room).WritesRest scope entries comma tokens)
    (joined : JumpsOnSameLine tokens) :
    (within { setting with strict := false } room).WritesRest scope entries comma tokens := by
  induction written with
  | closing closes => exact .closing closes
  | comma separates closes => exact .comma separates closes
  | more separates reads _ induction =>
      obtain ⟨front, back, -⟩ := List.isChain_append.mp joined.tail
      exact .more separates (reads.relaxed front) (induction back)

theorem WritesArray.relaxed (written : (within setting room).WritesArray scope entries comma tokens)
    (joined : JumpsOnSameLine tokens) :
    (within { setting with strict := false } room).WritesArray scope entries comma tokens := by
  cases written with
  | empty closes => exact .empty closes
  | entries reads behind =>
      obtain ⟨front, back, -⟩ := List.isChain_append.mp joined
      exact .entries (reads.relaxed front) (behind.relaxed back)

theorem WritesArray.exists_closing {grammar : Grammar}
    (written : grammar.WritesArray scope entries comma tokens) :
    ∃ closing, tokens.getLast? = some closing ∧ closing.kind = .punctuation ']' := by
  cases written with
  | empty closes => exact ⟨_, rfl, closes⟩
  | entries _ behind =>
      obtain ⟨closing, last, closes⟩ := behind.exists_closing
      exact ⟨closing, by simp [List.getLast?_append, last], closes⟩

end Grammar

theorem Cursor.On.ne_nil_behind {text : List Char} {cursor : Cursor} (on : cursor.On text)
    {tokens following : List Token} {last : Token} (ahead : cursor.remaining = tokens ++ following)
    (isLast : tokens.getLast? = some last) (inside : last.isEnd = false) : following ≠ [] := by
  rintro rfl
  obtain ⟨before, tokensEq⟩ := on.split
  obtain ⟨front, final, finalEq, isEnd, -⟩ := tokens_end text
  have same := congrArg List.getLast? (finalEq.symm.trans tokensEq)
  simp only [ahead, List.append_nil, List.getLast?_append, isLast, List.getLast?_singleton] at same
  cases same
  rw [inside] at isEnd
  cases isEnd

/-- Behind its opening bracket an array literal is read as the entries that it is written
with: a hole where nothing stands before a comma, and otherwise the expression that the
tokens are on their own. A relaxed parser ignores one comma before the closing bracket,
at which a strict one fails. What a strict parser reads a relaxed one reads too, unless a
line break comes after a word that begins a jump. -/
theorem array_literals_follow_the_elision_rule {setting : Setting} {room : Nat} {before : State}
    (reached : before.Reached setting.source) {bracket : Token}
    (opens : bracket.kind = .punctuation '[') {entries : List (Option Expr)} {comma : Bool}
    {tokens following : List Token}
    (written : (Grammar.within setting room).WritesArray before.scope entries comma tokens)
    (ahead : before.cursor.remaining = bracket :: (tokens ++ following)) (start : Span) :
    ∃ closing, tokens.getLast? = some closing ∧
      (comma = false ∨ setting.strict = false → (Grammar.within setting room).ReadsArray
        before.advanced start entries closing.span.stop following) ∧
      (comma = true → setting.strict = true → ∃ fault after,
        (Grammar.within setting room).scriptArray start before.advanced = .error fault after) ∧
      (comma = false → JumpsOnSameLine tokens →
        (Grammar.within { setting with strict := false } room).ReadsArray
          before.advanced start entries closing.span.stop following) := by
  obtain ⟨closing, isLast, closes⟩ := written.exists_closing
  have isBracket : before.cursor.current.kind = .punctuation '[' := by
    rw [Cursor.current_of_remaining ahead, opens]
  have solid := Token.isSolid_of_kind isBracket (by simp) (by simp)
  have fresh := reached.fresh solid
  have more : following ≠ [] := by
    have on : before.cursor.On setting.source := (reached.ready (Token.isEnd_of_isSolid solid)).on
    have last : (bracket :: tokens).getLast? = some closing := by simp [List.getLast?_cons, isLast]
    exact on.ne_nil_behind ahead last (by simp [Token.isEnd, closes])
  have behind : before.advanced.cursor.remaining = tokens ++ following :=
    Cursor.remaining_advance_of_ne_nil ahead (by simp [more])
  refine ⟨closing, isLast, fun allowed => ?_, fun isComma strict => ?_, fun notComma joined => ?_⟩
  · have relaxed : comma = true → setting.strict = false := by
      rintro rfl
      exact allowed.resolve_left Bool.false_ne_true.symm
    exact Grammar.readsArray_of_written written relaxed fresh behind more isLast start
  · subst isComma
    cases outcome : (Grammar.within setting room).scriptArray start before.advanced with
    | ok expr after =>
        exact absurd outcome (Grammar.scriptArray_ne_ok written strict fresh behind more)
    | error fault after => exact ⟨fault, after, rfl⟩
  · have others := written.relaxed joined
    exact Grammar.readsArray_of_written others (fun _ => rfl) fresh behind more isLast start

theorem array_literals_with_holes_are_read :
    let grammar := fun text strict => Grammar.within ⟨text, strict, .declarative "f" "g"⟩ 8
    (let text := "[a instanceof b, , [c ]]".toList
     let state := State.ofText text
     ∃ first last bracket tokens following closing,
       state.cursor.remaining = bracket :: (tokens ++ following) ∧
       (grammar text true).WritesArray .outermost [some first, none, some last] false tokens ∧
       JumpsOnSameLine tokens ∧ tokens.getLast? = some closing ∧
       ∀ strict, (grammar text strict).ReadsArray state.advanced bracket.span
         [some first, none, some last] closing.span.stop following) ∧
    (let text := "[, , ]".toList
     let state := State.ofText text
     ∃ bracket tokens following closing,
       state.cursor.remaining = bracket :: (tokens ++ following) ∧
       (∀ strict, (grammar text strict).WritesArray .outermost [none, none] true tokens) ∧
       tokens.getLast? = some closing ∧
       (grammar text false).ReadsArray state.advanced bracket.span [none, none] closing.span.stop
         following ∧
       ∃ fault after,
         (grammar text true).scriptArray bracket.span state.advanced = .error fault after) := by
  intro grammar
  constructor
  · intro text state
    let token := fun index : Nat => (tokens text)[index]?.getD Cursor.emptyEnd
    let test := [token 1, token 2, token 3]
    let array := [token 6, token 7, token 8]
    let alone := fun used stop => (grammar text true).wholeExpression? .outermost used stop
    have firstOk : (alone test (token 4).span.origin).isSome := by decide +kernel
    have lastOk : (alone array (token 9).span.origin).isSome := by decide +kernel
    obtain ⟨first, firstEq⟩ := Option.isSome_iff_exists.mp firstOk
    obtain ⟨last, lastEq⟩ := Option.isSome_iff_exists.mp lastOk
    have kinds : (token 0).kind = .punctuation '[' ∧ (token 4).kind = .punctuation ',' ∧
        (token 5).kind = .punctuation ',' ∧ (token 9).kind = .punctuation ']' := by
      decide +kernel
    obtain ⟨opens, comma, second, closes⟩ := kinds
    have ahead : state.cursor.remaining = token 0 :: ((test ++ token 4 :: ([] ++ token 5 ::
        (array ++ [token 9]))) ++ [token 10]) := by
      decide +kernel
    have joined : JumpsOnSameLine (test ++ token 4 :: ([] ++ token 5 ::
        (array ++ [token 9]))) := by
      decide +kernel
    have written : (grammar text true).WritesArray .outermost [some first, none, some last] false
        _ :=
      .entries (.present (readsWhole_iff.mpr firstEq)) <|
        .more comma (.hole second) <| .more second (.present (readsWhole_iff.mpr lastEq)) <|
          .closing closes
    obtain ⟨closing, isLast, strictly, -, relaxed⟩ := array_literals_follow_the_elision_rule
      (State.reached_ofText text) opens written ahead (token 0).span
    refine ⟨first, last, token 0, _, _, closing, ahead, written, joined, isLast, ?_⟩
    intro strict
    cases strict with
    | true => exact strictly (.inl rfl)
    | false => exact relaxed rfl joined
  · intro text state
    let token := fun index : Nat => (tokens text)[index]?.getD Cursor.emptyEnd
    have kinds : (token 0).kind = .punctuation '[' ∧ (token 1).kind = .punctuation ',' ∧
        (token 2).kind = .punctuation ',' ∧ (token 3).kind = .punctuation ']' := by
      decide +kernel
    obtain ⟨opens, comma, second, closes⟩ := kinds
    have ahead : state.cursor.remaining =
        token 0 :: ([token 1, token 2, token 3] ++ [token 4]) := by
      decide +kernel
    have written : ∀ strict, (grammar text strict).WritesArray .outermost [none, none] true
        [token 1, token 2, token 3] := fun _ =>
      .entries (.hole comma) (.more comma (.hole second) (.comma second closes))
    have reached := State.reached_ofText text
    obtain ⟨closing, isLast, relaxed, -⟩ :=
      array_literals_follow_the_elision_rule reached opens (written false) ahead (token 0).span
    obtain ⟨-, -, -, refused, -⟩ :=
      array_literals_follow_the_elision_rule reached opens (written true) ahead (token 0).span
    exact ⟨token 0, _, _, closing, ahead, written, isLast, relaxed (.inr rfl), refused rfl rfl⟩

def Expr.bodyLength (expr : Expr) : Nat :=
  match expr.kind with
  | .function function => function.body.length
  | _ => 0

/-- A line break behind `return` ends a statement for a relaxed parser only, so that the
entries of an array literal with a function in it depend on strictness. -/
theorem array_entries_depend_on_strictness :
    ¬ ∀ (text : List Char) (room : Nat) (before : State) (tokens following : List Token)
      (start : Span) (entries others : List (Option Expr)) (stop : Nat), before.Reached text →
      before.advanced.cursor.remaining = tokens ++ following →
      (Grammar.within ⟨text, true, .script⟩ room).WritesArray before.scope entries false tokens →
      (Grammar.within ⟨text, false, .script⟩ room).WritesArray before.scope others false tokens →
      (Grammar.within ⟨text, true, .script⟩ room).ReadsArray before.advanced start entries stop
        following →
      (Grammar.within ⟨text, false, .script⟩ room).ReadsArray before.advanced start others stop
        following →
      others = entries := by
  intro claimed
  let text := "[function () \x7b return\n1; \x7d]".toList
  let grammar := fun strict => Grammar.within ⟨text, strict, .script⟩ 8
  let state := State.ofText text
  let used := (tokens text).tail.take 8
  let closing := (tokens text)[9]?.getD Cursor.emptyEnd
  let following := (tokens text).drop 10
  have ahead : state.advanced.cursor.remaining = (used ++ [closing]) ++ following := by
    decide +kernel
  have solid : state.cursor.current.isSolid = true := by decide +kernel
  have closes : closing.kind = .punctuation ']' := by decide +kernel
  have fresh := (State.reached_ofText text).fresh solid
  have read : ∀ strict, ∃ expr, expr.bodyLength = (if strict then 1 else 2) ∧
      (grammar strict).WritesArray state.scope [some expr] false (used ++ [closing]) ∧
      (grammar strict).ReadsArray state.advanced closing.span [some expr] closing.span.stop
        following := by
    intro strict
    have lengths : ((grammar strict).wholeExpression? state.scope used closing.span.origin).map
        Expr.bodyLength = some (if strict then 1 else 2) := by
      cases strict <;> decide +kernel
    obtain ⟨expr, exprEq, length⟩ := Option.map_eq_some_iff.mp lengths
    have written : (grammar strict).WritesArray state.scope [some expr] false (used ++ [closing]) :=
      .entries (.present (readsWhole_iff.mpr exprEq)) (.closing closes)
    have more : following ≠ [] := by decide +kernel
    exact ⟨expr, length, written,
      readsArray_of_written written nofun fresh ahead more (by simp) closing.span⟩
  obtain ⟨expr, length, written, strictly⟩ := read true
  obtain ⟨other, length', written', relaxed⟩ := read false
  have same := claimed text 8 state (used ++ [closing]) following closing.span [some expr]
    [some other] closing.span.stop (State.reached_ofText text) ahead written written' strictly
    relaxed
  cases same
  rw [length] at length'
  cases length'

end Qml
