import Qml.Exports
import Qml.Proofs.Comparison.Carried
import Qml.Proofs.Comparison.Script
import Qml.Proofs.Coverage
import Qml.Proofs.Entry
import Qml.Proofs.Token.Joining

/-! # Joined scripts

A script that ends with a semicolon can be followed by another one on the next line:
the statements of both come out one after the other, those of the second moved to
where they now lie. No statement of the first goes on behind its last semicolon, and
nothing that the first leaves behind is seen by the second. -/

namespace Qml

open Qml.Parser

/-- The last token before the end of a text is a semicolon. -/
def EndsWithSemicolon (text : List Char) : Prop :=
  (tokens text).dropLast.getLast?.any (·.isPunctuation ';') = true

instance (text : List Char) : Decidable (EndsWithSemicolon text) :=
  inferInstanceAs (Decidable (_ = true))

theorem EndsWithSemicolon.exists_mark {text : List Char} {used : List Token} {last : Token}
    (ends : EndsWithSemicolon text) (tokensEq : tokens text = used ++ [last]) :
    ∃ front mark, used = front ++ [mark] ∧ mark.isPunctuation ';' = true := by
  unfold EndsWithSemicolon at ends
  rw [tokensEq, List.dropLast_concat, Option.any_eq_true] at ends
  obtain ⟨mark, isLast, isSemicolon⟩ := ends
  obtain ⟨front, split⟩ := List.getLast?_eq_some_iff.mp isLast
  exact ⟨front, mark, split, isSemicolon⟩

/-! ## Moved texts -/

theorem Relabeling.carries_behind (before text : List Char) :
    (Relabeling.behind before).Carries text (before ++ '\n' :: text) := by
  have feed : '\n'.utf8Size = 1 := by decide
  have split : before ++ '\n' :: text = (before ++ ['\n']) ++ text := by simp
  have length : Text.byteLength (before ++ ['\n']) = Text.byteLength before + 1 := by
    simp [feed]
  have moved : ∀ place, (Relabeling.behind before).stop place =
      Text.byteLength (before ++ ['\n']) + place := by
    intro place
    rw [length]
    simp only [behind]
    omega
  refine ⟨fun _ => rfl, ?_, ?_, ?_, fun _ => rfl, fun _ => rfl⟩
  · intro place place'
    simp only [behind]
    omega
  · intro start stop
    rw [split, moved, moved]
    exact Text.slice_append_right ..
  · intro place inside
    rw [split, moved, Text.byteLength_append (before ++ ['\n'])]
    omega

/-- Keeps all labels, but moves places that lie beyond a text of the given length. -/
def Relabeling.stretched (length added : Nat) : Relabeling where
  position place :=
    { place with offset := if place.offset ≤ length then place.offset else place.offset + added }
  stop place := if place ≤ length then place else place + added
  source := id
  arraySource := id

theorem Relabeling.stretched_stop_of_le {length place : Nat} (inside : place ≤ length)
    (added : Nat) : (stretched length added).stop place = place := if_pos inside

theorem Relabeling.carries_stretched (text rest : List Char) {added : Nat}
    (enough : Text.byteLength rest ≤ added) :
    (stretched (Text.byteLength text) added).Carries text (text ++ rest) := by
  refine ⟨fun _ => rfl, ?_, ?_, ?_, fun _ => rfl, fun _ => rfl⟩
  · intro place place'
    simp only [stretched]
    split <;> split <;> omega
  · intro start stop
    by_cases inside : stop ≤ Text.byteLength text
    case pos =>
        rw [stretched_stop_of_le inside]
        by_cases order : start ≤ stop
        case pos =>
            rw [stretched_stop_of_le (Nat.le_trans order inside)]
            exact Text.slice_append_left inside start rest
        case neg =>
            have inverted : stop < (stretched (Text.byteLength text) added).stop start := by
              simp only [stretched]
              split <;> omega
            rw [Text.slice_of_inverted inverted, Text.slice_of_inverted (by omega)]
    case neg =>
        have beyond : Text.byteLength (text ++ rest) <
            (stretched (Text.byteLength text) added).stop stop := by
          rw [Text.byteLength_append]
          simp only [stretched, if_neg inside]
          omega
        rw [Text.slice_of_lt beyond, Text.slice_of_lt (by omega)]
  · intro place inside
    rw [stretched_stop_of_le inside, Text.byteLength_append]
    omega

/-! ## Tokens of accepted scripts -/

theorem Tiled.le_byteLength {position : Position} {text : List Char} {tokens : List Token}
    (tiled : Tiled position text tokens) {token : Token} (member : token ∈ tokens) :
    token.span.start ≤ position.offset + Text.byteLength text ∧
      token.span.stop ≤ position.offset + Text.byteLength text := by
  induction tokens generalizing position text with
  | nil => cases member
  | cons first more induction =>
      obtain ⟨gap, body, after, tile, rest⟩ := tiled
      rw [tile.text_eq, Text.byteLength_append, Text.byteLength_append]
      rcases List.mem_cons.mp member with rfl | later
      · simp only [Span.start, tile.span_eq, Position.offset_after]
        omega
      · have behind := induction rest later
        rw [Position.offset_after, Text.byteLength_append] at behind
        omega

theorem token_le_byteLength {text : List Char} {token : Token} (member : token ∈ tokens text) :
    token.span.start ≤ Text.byteLength text ∧ token.span.stop ≤ Text.byteLength text := by
  have within := (tokens_tiled text).le_byteLength member
  simpa [Position.start] using within

theorem tokens_of_script {options : Options} {text : List Char} {statements : List Statement}
    {after : State}
    (ok : (options.grammar text).script (.ofText text) = .ok statements after) :
    after.cursor.AtEnd ∧ ∃ used last, tokens text = used ++ [last] ∧
      ∀ token ∈ used, token.isSolid = true := by
  have outlined := Grammar.within_outlined (options.grammar text).toSetting options.limit
  obtain ⟨consists, isEnd⟩ := Grammar.script_consists outlined ok (ready_ofText text)
  obtain ⟨nothing, used, tokensEq, covered⟩ := consists.tokens_eq isEnd
  exact ⟨⟨nothing, isEnd⟩, used, after.cursor.current, tokensEq, fun token member =>
    (covered token member).1⟩

/-! ## Two parses of the first text -/

theorem Token.relabel_stretched {text : List Char} {token : Token} (member : token ∈ tokens text)
    (added : Nat) :
    token.relabel (.stretched (Text.byteLength text) added) = token.relabel .identity := by
  obtain ⟨start, stop⟩ := token_le_byteLength member
  have origin : (Relabeling.stretched (Text.byteLength text) added).position token.span.origin =
      token.span.origin := by
    have inside : token.span.origin.offset ≤ Text.byteLength text := start
    simp [Relabeling.stretched, inside]
  unfold Token.relabel Span.relabel
  rw [origin, Relabeling.stretched_stop_of_le stop]
  rfl

namespace Comparison

/-- A script and a text that begins with it. -/
def stretching (options : Options) (text rest : List Char) {added : Nat}
    (enough : Text.byteLength rest ≤ added) {firstTail secondTail : List Token}
    (tails : firstTail = [] ↔ secondTail = []) : Comparison :=
  carried options (Relabeling.carries_stretched text rest enough) []
    (fun _ absent => absurd absent List.not_mem_nil) tails

theorem alike_of_stretching (options : Options) {text rest : List Char} {added : Nat}
    (enough : Text.byteLength rest ≤ added) {firstTail secondTail used : List Token}
    (tails : firstTail = [] ↔ secondTail = []) (inhabited : used ≠ [])
    (here : tokens text = used ++ firstTail) (there : tokens (text ++ rest) = used ++ secondTail)
    (semicolon : ∀ {front last token more}, used ++ firstTail = front ++ last :: token :: more →
      firstTail = token :: more → last.isPunctuation ';' = true) :
    (stretching options text rest enough tails).Alike (.ofText text) (.ofText (text ++ rest)) := by
  have fits : (stretching options text rest enough tails).Fits (used ++ firstTail) :=
    fits_carried _ _ tails (fun token member => token_le_byteLength (here ▸ member)) semicolon
  refine alike_of_remaining ((Cursor.remaining_ofText _).trans here)
    ((Cursor.remaining_ofText _).trans there) inhabited ?_ ?_ (.refl _) rfl trivial ?_
  · refine List.map_congr_left fun token member => ?_
    exact Token.relabel_stretched (by rw [here]; exact List.mem_append_left _ member) added
  · simp only [State.cursor_ofText, Cursor.previousEnd_ofText]
    exact Relabeling.stretched_stop_of_le (Nat.zero_le _) added
  · rw [State.cursor_ofText, Cursor.remaining_ofText, here]
    exact fits

end Comparison

theorem statements_relabel_identity (statements : List Statement) :
    statements.map (Statement.relabel .identity) = statements := by
  rw [List.map_congr_left fun statement _ => statement.relabel_identity, List.map_id']

section

variable {options : Options} {text : List Char} {statements : List Statement} {after : State}
  (ok : (options.grammar text).script (.ofText text) = .ok statements after)

include ok

theorem relabel_stretched_of_script (added : Nat) :
    statements.map (Statement.relabel (.stretched (Text.byteLength text) added)) = statements ∧
      after.patches.map (Patch.relabel (.stretched (Text.byteLength text) added)) =
        after.patches := by
  obtain ⟨token, rest, tokensEq⟩ := exists_tokens_eq_cons text
  have inhabited : tokens text ≠ [] := by simp [tokensEq]
  have whole : tokens (text ++ []) = tokens text ++ [] := by simp
  have alike := Comparison.alike_of_stretching options (Nat.zero_le added) Iff.rfl
    inhabited (List.append_nil _).symm whole (fun _ => nofun)
  obtain ⟨statements', after', ok', same, alike'⟩ :=
    (Comparison.script_related (Comparison.levels_within (.inl rfl))).exists_ok alike ok
      (Nat.not_lt_zero _)
  change (options.grammar (text ++ [])).script (.ofText (text ++ [])) = _ at ok'
  rw [List.append_nil, ok] at ok'
  cases ok'
  have patches : after.patches = [] ++ after.patches.map _ := alike'.patches
  exact ⟨same.trans (statements_relabel_identity statements), patches.symm⟩

/-- All statements of a text that ends with a semicolon are found again where it goes
on, but not with `else`. -/
theorem collects_extended {rest : List Char} {used later : List Token} {mark last next : Token}
    (tokensEq : tokens text = (used ++ [mark]) ++ [last])
    (isSemicolon : mark.isPunctuation ';' = true)
    (wholeEq : tokens (text ++ rest) = (used ++ [mark]) ++ next :: later)
    (notElse : next.isKeyword .else_ = false) :
    ∃ between, Collects (options.grammar (text ++ rest)).scriptItem (.ofText (text ++ rest))
        statements between ∧ between.cursor.remaining = next :: later ∧
      Scope.outermost.Agrees between.scope ∧
      ∀ patch ∈ between.patches, patch.stop ≤ Text.byteLength text := by
  obtain ⟨atEnd, -⟩ := tokens_of_script ok
  have isEnd := isEnd_of_tokens_eq tokensEq
  have more : Text.byteLength rest ≤ Text.byteLength rest + 1 := Nat.le_succ _
  have tails : [last] = [] ↔ next :: later = [] := by simp
  have alike := Comparison.alike_of_stretching options more tails (by simp) tokensEq
    wholeEq ?_
  · have continued : (Comparison.stretching options text rest more tails).Continued :=
      ⟨rfl, Dialect.declarative_ne_script _ _, trivial, ⟨last, rfl, isEnd⟩,
        ⟨next, later, rfl, notElse⟩⟩
    obtain ⟨ended, collects, stepped, -⟩ := collect_eq_ok.mp ok
    obtain ⟨rfl, -⟩ := Grammar.scriptItem_eq_none stepped
    obtain ⟨statements', between, collects', same, edge⟩ :=
      continued.collects (.inl alike) collects atEnd
    obtain ⟨unmoved, unmovedPatches⟩ := relabel_stretched_of_script ok (Text.byteLength rest + 1)
    have statementsEq : statements = statements' := by
      rw [← unmoved, ← statements_relabel_identity statements']
      exact same
    have patches : between.patches = [] ++ after.patches.map _ := edge.patches
    have scope : after.scope = Scope.outermost := scope_of_ok ok
    refine ⟨between, statementsEq ▸ collects', edge.there, scope ▸ edge.scope, ?_⟩
    rw [patches, List.nil_append, unmovedPatches]
    intro patch member
    have unmovedPatch := List.map_inj_left.mp
      (unmovedPatches.trans (List.map_id' after.patches).symm) patch member
    have stop := congrArg Patch.stop unmovedPatch
    simp only [Patch.relabel, Relabeling.stretched] at stop
    split at stop <;> omega
  · intro front final token more ahead tail
    obtain ⟨rfl, rfl⟩ := List.cons.inj tail
    rw [List.append_assoc] at ahead
    rw [← (List.cons.inj (List.append_inj' ahead rfl).2).1]
    exact isSemicolon

end

/-! ## The second text behind the first -/

def Comparison.following (options : Options) (before text : List Char) {earlier : List Patch}
    (inside : ∀ patch ∈ earlier, patch.stop ≤ Text.byteLength before) : Comparison :=
  carried options (Relabeling.carries_behind before text) earlier
    (fun patch member place => by
      have stop := inside patch member
      simp only [Relabeling.behind]
      omega)
    (Iff.rfl : ([] : List Token) = [] ↔ ([] : List Token) = [])

/-- The parse of a text and that of the same text behind another one, where the line
break before its first token is taken off. -/
theorem Comparison.alike_of_following (options : Options) {before text : List Char}
    {between : State} {token : Token} {rest : List Token} (tokensEq : tokens text = token :: rest)
    (remaining : between.cursor.remaining = tokensBehind before text)
    (scope : Scope.outermost.Agrees between.scope)
    (inside : ∀ patch ∈ between.patches, patch.stop ≤ Text.byteLength before) :
    (following options before text inside).Alike (.ofText text)
      (between.enteredAfter token.afterLineBreak (Text.byteLength before + 1)) := by
  have there : (between.enteredAfter token.afterLineBreak
      (Text.byteLength before + 1)).cursor.remaining = (tokens text).map (Token.behind before) := by
    obtain ⟨current, upcoming⟩ := List.cons.inj (remaining.trans (tokensBehind_eq before tokensEq))
    rw [tokensEq]
    have unbroken := congrArg
      (fun found : Token => { found with afterLineBreak := token.afterLineBreak }) current
    exact congrArg₂ List.cons unbroken upcoming
  have fits : (following options before text inside).Fits (tokens text) :=
    fits_carried _ _ _ (fun token member => token_le_byteLength member) fun _ => nofun
  refine alike_of_remaining ((Cursor.remaining_ofText _).trans (List.append_nil _).symm)
    (there.trans (List.append_nil _).symm) (by simp [tokensEq]) ?_ ?_ scope
    (List.append_nil _).symm trivial ?_
  · have same : (tokens text).map (Token.relabel (.behind before)) =
        ((tokens text).map (Token.behind before)).map (Token.relabel .identity) := by
      rw [List.map_map]
      rfl
    exact same
  · rw [State.cursor_ofText, Cursor.previousEnd_ofText]
    exact congrArg (· + 1) (Nat.zero_add _)
  · rw [State.cursor_ofText, Cursor.remaining_ofText]
    exact fits

theorem collects_following {options : Options} {before text : List Char}
    {statements : List Statement} {after between : State}
    (ok : (options.grammar text).script (.ofText text) = .ok statements after)
    (remaining : between.cursor.remaining = tokensBehind before text)
    (scope : Scope.outermost.Agrees between.scope)
    (inside : ∀ patch ∈ between.patches, patch.stop ≤ Text.byteLength before) :
    ∃ last, Collects (options.grammar (before ++ '\n' :: text)).scriptItem between
        (statements.map (Statement.relabel (.behind before))) last ∧
      last.cursor.current.isEnd = true := by
  obtain ⟨token, rest, tokensEq⟩ := exists_tokens_eq_cons text
  have alike := Comparison.alike_of_following options tokensEq remaining scope inside
  have current := (List.cons.inj (remaining.trans (tokensBehind_eq before tokensEq))).1
  have atEnd : between.cursor.current.isEnd = token.isEnd := by rw [current]; rfl
  have begins : (State.ofText text).cursor.current = token := Cursor.current_ofText tokensEq
  have levels : (Comparison.following options before text inside).Levels
      (Deeper.within _ options.limit) (Deeper.within _ options.limit) :=
    Comparison.levels_within (.inl rfl)
  obtain ⟨ended, collects, stepped, -⟩ := collect_eq_ok.mp ok
  obtain ⟨rfl, isEnd⟩ := Grammar.scriptItem_eq_none stepped
  generalize startEq : State.ofText text = start at collects alike begins
  cases collects with
  | done =>
      rw [begins, ← atEnd] at isEnd
      exact ⟨between, .done between, isEnd⟩
  | @round value more _ second _ first rest =>
      obtain ⟨notEnd, statementOk⟩ := Grammar.scriptItem_eq_some.mp first
      rw [begins, ← atEnd] at notEnd
      obtain ⟨value', next, statementOk', same, alike'⟩ :=
        (Comparison.statement_related levels).exists_ok alike statementOk (Nat.not_lt_zero _)
      -- The first statement does not see what comes before it.
      have enteredOk := Enters.ok_of_enteredAfter statementOk'
      obtain ⟨more', last, rest', sameMore, alike''⟩ :=
        (Comparison.scriptItem_related levels).collects rfl alike' rest
      have moved : (value :: more).map (Statement.relabel (.behind before)) = value' :: more' := by
        rw [← statements_relabel_identity (value' :: more')]
        exact congrArg₂ List.cons same sameMore
      rw [moved]
      refine ⟨last, .round (Grammar.scriptItem_eq_some.mpr ⟨notEnd, enteredOk⟩) rest', ?_⟩
      rw [← alike''.current.isEnd_eq]
      exact isEnd

/-! ## Both texts -/

section

variable {options : Options} {text : List Char} {statements : List Statement} {after : State}
  (ok : (options.grammar text).script (.ofText text) = .ok statements after)

include ok

theorem not_else_of_script {token : Token} {rest : List Token}
    (tokensEq : tokens text = token :: rest) : token.isKeyword .else_ = false := by
  have begins : (State.ofText text).cursor.current = token := Cursor.current_ofText tokensEq
  obtain ⟨ended, collects, stepped, -⟩ := collect_eq_ok.mp ok
  obtain ⟨-, isEnd⟩ := Grammar.scriptItem_eq_none stepped
  cases collects with
  | done =>
      rw [begins] at isEnd
      have kind : token.kind = .endOfInput := of_decide_eq_true isEnd
      simp [Token.isKeyword, kind]
  | round first rest =>
      refine Bool.eq_false_iff.mpr fun isElse => ?_
      rw [← begins] at isElse
      exact Grammar.within_statement_ne_ok_of_else isElse (Grammar.scriptItem_eq_some.mp first).2

theorem length_lt_of_script : statements.length < (tokens text).length := by
  obtain ⟨ended, -, -, fewer⟩ := collect_eq_ok.mp ok
  rw [← Cursor.remaining_ofText, Cursor.remaining, List.length_cons]
  exact Nat.lt_succ_of_le fewer

end

theorem script_append_lineBreak {options : Options} {first second : List Char}
    {statements more : List Statement} {after last : State}
    (firstOk : (options.grammar first).script (.ofText first) = .ok statements after)
    (secondOk : (options.grammar second).script (.ofText second) = .ok more last)
    (ends : EndsWithSemicolon first) :
    ∃ last, (options.grammar (first ++ '\n' :: second)).script (.ofText (first ++ '\n' :: second)) =
      .ok (statements ++ more.map (Statement.relabel (.behind first))) last := by
  obtain ⟨-, used, ending, firstEq, solid⟩ := tokens_of_script firstOk
  obtain ⟨-, used', ending', secondEq, solid'⟩ := tokens_of_script secondOk
  obtain ⟨front, mark, rfl, isSemicolon⟩ := ends.exists_mark firstEq
  obtain ⟨token, rest, tokensEq⟩ := exists_tokens_eq_cons second
  have wellFormed : token.isMalformed = false :=
    isMalformed_of_tokens_eq secondEq solid' token (tokensEq ▸ List.mem_cons_self)
  have allows : mark.kind.allowsRegexpAfter = true := by
    have kind : mark.kind = .punctuation ';' := of_decide_eq_true isSemicolon
    rw [kind]
    rfl
  have wholeEq := tokens_append_lineBreak (by rw [firstEq, List.append_assoc]; rfl) solid allows
    tokensEq wellFormed
  have behindEq := tokensBehind_eq first tokensEq
  have notElse := not_else_of_script secondOk tokensEq
  have wholeEq' : tokens (first ++ '\n' :: second) = (front ++ [mark]) ++
      { token.behind first with afterLineBreak := true } :: rest.map (Token.behind first) := by
    rw [wholeEq, behindEq]
    simp
  obtain ⟨between, collects, remaining, scope, inside⟩ :=
    collects_extended firstOk firstEq isSemicolon wholeEq' notElse
  obtain ⟨last, collects', isEnd⟩ :=
    collects_following secondOk (remaining.trans behindEq.symm) scope inside
  refine ⟨last, collect_eq_ok.mpr ⟨last, collects.append collects',
    Grammar.scriptItem_of_isEnd isEnd, ?_⟩⟩
  have fewer := length_lt_of_script firstOk
  have fewer' := length_lt_of_script secondOk
  have whole : (State.ofText (first ++ '\n' :: second)).cursor.remaining = _ :=
    (Cursor.remaining_ofText _).trans wholeEq'
  have count := congrArg List.length whole
  rw [firstEq] at fewer
  rw [tokensEq] at fewer'
  simp only [Cursor.remaining, List.length_append, List.length_cons, List.length_nil,
    List.length_map] at fewer fewer' count ⊢
  unfold State.ahead
  omega

/-! ## Exports -/

namespace Exports

variable (labels : Relabeling)

theorem pragmaOf?_relabel (statement : Statement) :
    pragmaOf? (statement.relabel labels) = pragmaOf? statement := by
  rcases statement with ⟨kind, span⟩
  cases kind <;> rfl

theorem namesOf_relabel (statement : Statement) :
    namesOf (statement.relabel labels) = namesOf statement := by
  rcases statement with ⟨kind, span⟩
  cases kind with
  | declare kind declarators =>
      have names : Declarator.name ∘ Declarator.relabel labels = Declarator.name :=
        funext fun declarator => by cases declarator; rfl
      simp [namesOf, names]
  | function function => simp [namesOf]
  | _ => rfl

theorem ofScript_relabel (statements : List Statement) :
    ofScript (statements.map (Statement.relabel labels)) = ofScript statements := by
  have pragmas : pragmaOf? ∘ Statement.relabel labels = pragmaOf? :=
    funext (pragmaOf?_relabel labels)
  simp only [ofScript, List.filterMap_map, List.flatMap_map, pragmas, namesOf_relabel]

end Exports

/-! ## Whole scripts -/

section

variable {options : Options} (isScript : options.kind = .script) {text : List Char}

include isScript

theorem parseNormalized_outcome_script : (parseNormalized options text).outcome =
    match (options.grammar text).script (.ofText text) with
    | .ok statements _ => .ok (.script statements)
    | .error fault _ => .error (options.error text fault) := by
  cases result : (options.grammar text).script (.ofText text) with
  | ok statements after =>
      have tree : options.tree text (.ofText text) = .ok (.script statements) after := by
        simp only [Options.tree, isScript, bind_eq_ok]
        exact ⟨statements, after, result, rfl⟩
      unfold parseNormalized
      rw [tree]
  | error fault after =>
      have tree : options.tree text (.ofText text) = .error fault after := by
        simp only [Options.tree, isScript]
        change EStateM.bind _ _ _ = _
        unfold EStateM.bind
        rw [result]
      unfold parseNormalized
      rw [tree]

theorem parseNormalized_eq_ok_script {statements : List Statement} :
    (parseNormalized options text).outcome = .ok (.script statements) ↔
      ∃ after, (options.grammar text).script (.ofText text) = .ok statements after := by
  rw [parseNormalized_outcome_script isScript]
  cases (options.grammar text).script (.ofText text) <;> simp

theorem exists_script (accepted : (parseNormalized options text).outcome.isOk = true) :
    ∃ statements, (parseNormalized options text).outcome = .ok (.script statements) := by
  rw [parseNormalized_outcome_script isScript] at accepted ⊢
  cases result : (options.grammar text).script (.ofText text) with
  | ok statements after => exact ⟨statements, rfl⟩
  | error fault after =>
      rw [result] at accepted
      cases accepted

end

/-- Of two scripts that are accepted alone, the first with a semicolon as its last
token, the text that has both on lines of their own is accepted, too. It has the
statements of both, those of the second moved by the first and its line break, with
all captured sources as they were, and it exports what both export. -/
theorem scripts_join_at_semicolon (options : Options) {first second : List Char}
    {statements more : List Statement}
    (firstOk : (parseNormalized { options with kind := .script } first).outcome =
      .ok (.script statements))
    (secondOk : (parseNormalized { options with kind := .script } second).outcome =
      .ok (.script more))
    (ends : EndsWithSemicolon first) :
    (parseNormalized { options with kind := .script } (first ++ '\n' :: second)).outcome =
        .ok (.script (statements ++ more.map (Statement.relabel (.behind first)))) ∧
      Exports.ofScript (statements ++ more.map (Statement.relabel (.behind first))) =
        ⟨(Exports.ofScript statements).pragmas ++ (Exports.ofScript more).pragmas,
          (Exports.ofScript statements).names ++ (Exports.ofScript more).names⟩ := by
  obtain ⟨after, firstRead⟩ := (parseNormalized_eq_ok_script rfl).mp firstOk
  obtain ⟨last, secondRead⟩ := (parseNormalized_eq_ok_script rfl).mp secondOk
  refine ⟨(parseNormalized_eq_ok_script rfl).mpr ?_, ?_⟩
  · exact script_append_lineBreak firstRead secondRead ends
  · rw [Exports.ofScript_append, Exports.ofScript_relabel]

theorem scripts_join_at_semicolon_patched :
    ∃ statements more,
      (parseNormalized { kind := .script }
        ".pragma a\nvar b = [c instanceof D], e;".toList).outcome = .ok (.script statements) ∧
      (parseNormalized { kind := .script } "/f/.g();\nvar h = [i instanceof J]".toList).outcome =
        .ok (.script more) ∧
      EndsWithSemicolon ".pragma a\nvar b = [c instanceof D], e;".toList ∧
      (parseNormalized { kind := .script } (".pragma a\nvar b = [c instanceof D], e;".toList ++
        '\n' :: "/f/.g();\nvar h = [i instanceof J]".toList)).outcome =
          .ok (.script (statements ++ more.map (Statement.relabel
            (.behind ".pragma a\nvar b = [c instanceof D], e;".toList)))) ∧
      Exports.ofScript (statements ++ more.map (Statement.relabel
          (.behind ".pragma a\nvar b = [c instanceof D], e;".toList))) =
        ⟨(Exports.ofScript statements).pragmas ++ (Exports.ofScript more).pragmas,
          (Exports.ofScript statements).names ++ (Exports.ofScript more).names⟩ := by
  obtain ⟨statements, firstOk⟩ : ∃ statements,
      (parseNormalized { kind := .script }
        ".pragma a\nvar b = [c instanceof D], e;".toList).outcome = .ok (.script statements) :=
    exists_script rfl (by decide +kernel)
  obtain ⟨more, secondOk⟩ : ∃ more,
      (parseNormalized { kind := .script } "/f/.g();\nvar h = [i instanceof J]".toList).outcome =
        .ok (.script more) :=
    exists_script rfl (by decide +kernel)
  have ends : EndsWithSemicolon ".pragma a\nvar b = [c instanceof D], e;".toList := by
    decide +kernel
  exact ⟨statements, more, firstOk, secondOk, ends,
    scripts_join_at_semicolon {} firstOk secondOk ends⟩

end Qml
