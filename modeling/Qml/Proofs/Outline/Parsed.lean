import Qml.Proofs.Outline.Read

/-! # Outlines of parsed values

What a production yields is described by the outlines that it has read from its
first spot to its last, provided that the first one is ready. Whether it is need
not be asked while productions are put together: it follows from spot to spot. -/

namespace Qml

/-- A spot at which a statement may end: no patch comes near, or the block or
the text ends here. -/
def Spot.Settled (spot : Spot) : Prop :=
  spot.Clear ∨ spot.cursor.current.isPunctuation '}' = true ∨ spot.cursor.current.isEnd = true

/-! ## Solid tokens -/

namespace Token

variable {token : Token}

theorem isSolid_of_kind {kind : TokenKind} (kindEq : token.kind = kind)
    (inside : kind ≠ .endOfInput) (whole : ∀ fault, kind ≠ .malformed fault) :
    token.isSolid = true := by
  subst kindEq
  cases kindEq : token.kind <;> simp_all [isSolid, isEnd, isMalformed]

theorem isSolid_of_isPunctuation {mark : Char} (isMark : token.isPunctuation mark = true) :
    token.isSolid = true :=
  isSolid_of_kind (of_decide_eq_true isMark) (by simp) (by simp)

theorem isSolid_of_isOperator {operator : Operator}
    (isOperator : token.isOperator operator = true) :
    token.isSolid = true :=
  isSolid_of_kind (of_decide_eq_true isOperator) (by simp) (by simp)

theorem isSolid_of_isKeyword {keyword : Keyword} (isKeyword : token.isKeyword keyword = true) :
    token.isSolid = true :=
  isSolid_of_kind (of_decide_eq_true isKeyword) (by simp) (by simp)

theorem isSolid_of_isName {text : String} (isName : token.isName text = true) :
    token.isSolid = true :=
  isSolid_of_kind (of_decide_eq_true isName) (by simp) (by simp)

theorem isSolid_of_name? {name : String} (nameEq : token.kind.name? = some name) :
    token.isSolid = true := by
  cases kindEq : token.kind <;> simp_all [TokenKind.name?, isSolid, isEnd, isMalformed]

theorem isSolid_of_word? {word : String} (wordEq : token.kind.word? = some word) :
    token.isSolid = true := by
  cases kindEq : token.kind <;> simp_all [TokenKind.word?, isSolid, isEnd, isMalformed]

end Token

namespace Outline

/-- From a ready spot on, the outline is what was read. -/
def Parsed (setting : Setting) (outline : Outline) (first last : Spot) : Prop :=
  first.Ready setting.source → outline.Read setting first last

def AllParsed (setting : Setting) (outlines : List Outline) (first last : Spot) : Prop :=
  first.Ready setting.source → AllRead setting outlines first last

variable {setting : Setting} {first middle start last : Spot} {outline final : Outline}
  {outlines more : List Outline}

/-! ## Composition -/

namespace AllParsed

theorem reach {used : List Token} (reach : first.Reach used last) :
    AllParsed setting [] first last :=
  fun _ => .none reach

theorem refl (spot : Spot) : AllParsed setting [] spot spot := reach (.refl spot)

theorem token (solid : first.cursor.current.isSolid = true) :
    AllParsed setting [] first first.advanced :=
  reach (.one solid)

theorem append (one : AllParsed setting outlines first middle)
    (two : AllParsed setting more middle last) :
    AllParsed setting (outlines ++ more) first last :=
  fun ready => (one ready).append (two ((one ready).ready ready))

theorem after_token (solid : first.cursor.current.isSolid = true)
    (parsed : AllParsed setting outlines first.advanced last) :
    AllParsed setting outlines first last :=
  (token solid).append parsed

theorem then_nothing (parsed : AllParsed setting outlines first middle)
    (nothing : AllParsed setting [] middle last) : AllParsed setting outlines first last := by
  have whole := parsed.append nothing
  rwa [List.append_nil] at whole

theorem then_token (parsed : AllParsed setting outlines first last)
    (solid : last.cursor.current.isSolid = true) :
    AllParsed setting outlines first last.advanced :=
  parsed.then_nothing (token solid)

end AllParsed

namespace Parsed

theorem cons (parsed : outline.Parsed setting first middle)
    (tail : AllParsed setting outlines middle last) :
    AllParsed setting (outline :: outlines) first last :=
  fun ready => (parsed ready).cons (tail ((parsed ready).ready ready))

theorem alone (parsed : outline.Parsed setting first last) :
    AllParsed setting [outline] first last :=
  parsed.cons (.refl last)

/-! ## Nodes -/

theorem node (children : AllParsed setting (outline :: outlines) first last) :
    (Outline.node .other (first.spanTo last) none (outline :: outlines)).Parsed setting
      first last :=
  fun ready => read_node (children ready) (children ready).moves

theorem node_around_token (lead : AllParsed setting outlines first middle)
    (solid : middle.cursor.current.isSolid = true)
    (rest : AllParsed setting more middle.advanced last) :
    (Outline.node .other (first.spanTo last) none (outlines ++ more)).Parsed setting
      first last := by
  intro ready
  have middleReady := (lead ready).ready ready
  have tail := rest (middleReady.reach (.one solid))
  obtain ⟨used, before⟩ := (lead ready).reads
  obtain ⟨later, behind⟩ := tail.reads
  have moves := ((Spot.Moves.one solid).append_left before).append_right behind
  exact read_node ((lead ready).append (tail.after_reach (.one solid))) moves

theorem node_after_token (solid : first.cursor.current.isSolid = true)
    (children : AllParsed setting outlines first.advanced last) :
    (Outline.node .other (first.spanTo last) none outlines).Parsed setting first last :=
  node_around_token (.refl first) solid children

theorem widen {span : Span} (lead : AllParsed setting [] first middle)
    (parsed : (Outline.node .other span none outlines).Parsed setting middle last) :
    (Outline.node .other (first.spanTo last) none outlines).Parsed setting first last := by
  intro ready
  have read := parsed ((lead ready).ready ready)
  obtain ⟨used, before⟩ := (lead ready).reads
  exact read_node ((lead ready).append read.children) (read.moves.append_left before)

theorem extend (parsed : outline.Parsed setting first middle)
    (tail : AllParsed setting outlines middle last) :
    (Outline.node .other (outline.span.endingAt last.cursor.previousEnd) none
      (outline :: outlines)).Parsed setting first last := by
  intro ready
  have whole := parsed.cons tail ready
  rw [(parsed ready).span_eq]
  exact read_node whole whole.moves

theorem through (parsed : outline.Parsed setting first middle)
    (between : AllParsed setting outlines middle start) (closes : final.Parsed setting start last) :
    (Outline.node .other (outline.span.through final.span) none
      (outline :: (outlines ++ [final]))).Parsed setting first last := by
  intro ready
  have startReady := (between ((parsed ready).ready ready)).ready ((parsed ready).ready ready)
  have whole := parsed.cons (between.append closes.alone) ready
  rw [(parsed ready).span_eq, (closes startReady).span_eq]
  exact read_node whole whole.moves

/-- A binary operation. Only a test with `instanceof` leaves a patch. -/
theorem binary {form : NodeForm} (plain : form ≠ .array)
    (parsed : outline.Parsed setting first middle)
    (between : AllParsed setting [] middle start) (closes : final.Parsed setting start last) :
    (Outline.node form (outline.span.through final.span) none [outline, final]).Parsed setting
      first ⟨last.cursor, last.patches ++ form.patches setting [outline, final]⟩ := by
  intro ready
  have startReady := (between ((parsed ready).ready ready)).ready ((parsed ready).ready ready)
  have whole := parsed.cons (between.append closes.alone) ready
  refine ⟨last, whole, rfl, whole.moves, ?_, ?_⟩
  · rw [(parsed ready).span_eq, (closes startReady).span_eq]
    rfl
  · cases form with
    | array => exact absurd rfl plain
    | instanceTest => trivial
    | other => trivial

end Parsed

/-! ## Ends of statements -/

theorem clear_after_token (solid : first.cursor.current.isSolid = true)
    (tokens : AllParsed setting [] first.advanced last) (ready : first.Ready setting.source) :
    last.Clear := by
  obtain ⟨used, reach⟩ := tokens (ready.reach (.one solid))
  exact ready.clear_of_reach ((Spot.Reach.one solid).trans reach) (by simp)

/-- The outline of a statement, which ends at a settled spot. -/
def Ended (setting : Setting) (outline : Outline) (first last : Spot) : Prop :=
  outline.Parsed setting first last ∧ (first.Ready setting.source → last.Settled)

theorem ended_by_tokens (lead : AllParsed setting [] first middle)
    (solid : middle.cursor.current.isSolid = true)
    (tokens : AllParsed setting [] middle.advanced last) :
    (node .other (first.spanTo last) none []).Ended setting first last := by
  refine ⟨Parsed.node_around_token lead solid tokens, fun ready => .inl ?_⟩
  exact clear_after_token solid tokens ((lead ready).ready ready)

/-- The outlines of a statement's parts, of which the last ends the statement. -/
def Completed (setting : Setting) (outlines : List Outline) (first last : Spot) : Prop :=
  AllParsed setting outlines first last ∧ (first.Ready setting.source → last.Settled)

theorem Ended.completed (ended : outline.Ended setting first last) :
    Completed setting [outline] first last :=
  ⟨ended.1.alone, ended.2⟩

theorem AllParsed.complete (one : AllParsed setting outlines first middle)
    (two : Completed setting more middle last) : Completed setting (outlines ++ more) first last :=
  ⟨one.append two.1, fun ready => two.2 ((one ready).ready ready)⟩

theorem Completed.after_token (solid : first.cursor.current.isSolid = true)
    (completed : Completed setting outlines first.advanced last) :
    Completed setting outlines first last :=
  (AllParsed.token solid).complete completed

theorem AllParsed.completed_by_token (parsed : AllParsed setting outlines first last)
    (solid : last.cursor.current.isSolid = true) :
    Completed setting outlines first last.advanced := by
  refine ⟨parsed.then_token solid, fun ready => .inl ?_⟩
  exact ((parsed ready).ready ready).clear_of_reach (.one solid) (by simp)

theorem Completed.of_clear (parsed : AllParsed setting outlines first last)
    (clear : first.Ready setting.source → last.Clear) : Completed setting outlines first last :=
  ⟨parsed, fun ready => .inl (clear ready)⟩

theorem Completed.ended_after_token (solid : first.cursor.current.isSolid = true)
    (completed : Completed setting outlines first.advanced last) :
    (node .other (first.spanTo last) none outlines).Ended setting first last :=
  ⟨Parsed.node_after_token solid completed.1, (completed.after_token solid).2⟩

theorem Completed.ended (completed : Completed setting (outline :: outlines) first last) :
    (node .other (first.spanTo last) none (outline :: outlines)).Ended setting first last :=
  ⟨Parsed.node completed.1, completed.2⟩

end Outline

end Qml
