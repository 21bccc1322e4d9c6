import Qml.Proofs.Spans

/-! # Captured source

The source that is kept for a node is its text up to the token that follows it.
Only the first test with `instanceof` in the node makes a difference: its text,
from the left operand through the right one, reads as the call that stands for
it. What was patched elsewhere in the file never shows. -/

namespace Qml

/-! ## The text of a node -/

/-- A test with `instanceof` and its operands. -/
structure TestSpans where
  whole : Span
  left : Span
  right : Span

/-- The stretch from the left operand of a test through the right one. -/
def TestSpans.operands (test : TestSpans) : Span := test.left.through test.right

namespace Outline

def test? : Outline → Option TestSpans
  | node .instanceTest span _ [left, right] => some ⟨span, left.span, right.span⟩
  | _ => none

/-- The first test in a node, children before their parents. -/
def firstTest? (outline : Outline) : Option TestSpans := outline.nodes.findSome? test?

/-- Where the text of a node begins. The text of an array literal begins with its
bracket, behind the parentheses around it. -/
def textStart (text : List Char) : Outline → Nat
  | node .array span _ _ =>
    ((tokens text).find? fun token =>
      span.start ≤ token.span.start && !token.isPunctuation '(').elim span.start (·.span.start)
  | node _ span _ _ => span.start

/-- Where the tokens of a node end, without the parentheses after an array. -/
def tokensStop (text : List Char) : Outline → Nat
  | node .array span _ _ =>
    ((tokens text).reverse.find? fun token =>
      token.span.start < span.stop && !token.isPunctuation ')').elim span.stop (·.span.stop)
  | node _ span _ _ => span.stop

/-- Where the token that follows the text of a node begins. -/
def textStop (text : List Char) (outline : Outline) : Nat :=
  ((tokens text).find? fun token => outline.tokensStop text ≤ token.span.start).elim
    (Text.byteLength text) (·.span.start)

/-- The source is the text of a node, in which the first test reads as a call of
`helper`. How far the test reaches is given by `reach`. -/
def SourceIs (text : List Char) (helper component : String) (reach : TestSpans → Span)
    (outline : Outline) (source : String) : Prop :=
  match outline.firstTest? with
  | none => source.toList = Text.slice text (outline.textStart text) (outline.textStop text)
  | some test =>
    outline.textStart text ≤ (reach test).start ∧ (reach test).stop ≤ outline.textStop text ∧
      source.toList = Text.slice text (outline.textStart text) (reach test).start ++
        Grammar.instanceTest helper component (test.left.text text) (test.right.text text) ++
        Text.slice text (reach test).stop (outline.textStop text)

instance (text : List Char) (helper component : String) (reach : TestSpans → Span)
    (outline : Outline) (source : String) :
    Decidable (outline.SourceIs text helper component reach source) := by
  unfold SourceIs
  split <;> infer_instance

/-! ## The patches of a node -/

variable {setting : Setting} {first last : Spot} {helper component : String}

def patchesOf (setting : Setting) (nodes : List Outline) : List Patch :=
  nodes.flatMap fun node => node.form.patches setting node.children

mutual

theorem Read.patches_eq {outline : Outline} {first last : Spot}
    (read : outline.Read setting first last) :
    last.patches = first.patches ++ patchesOf setting outline.nodes := by
  match outline with
  | .node form span source children =>
      obtain ⟨inner, all, rfl, -⟩ := read
      simp only [AllRead.patches_eq all, nodes, patchesOf, List.flatMap_append, List.append_assoc,
        List.flatMap_cons, List.flatMap_nil, List.append_nil]
      rfl

theorem AllRead.patches_eq {outlines : List Outline} {first last : Spot}
    (read : AllRead setting outlines first last) :
    last.patches = first.patches ++ patchesOf setting (nodesOf outlines) := by
  match outlines with
  | [] =>
      obtain ⟨used, reach⟩ := read
      simp [nodesOf, patchesOf, reach.2]
  | outline :: more =>
      obtain ⟨used, start, stop, reach, head, tail⟩ := read
      rw [AllRead.patches_eq tail, Read.patches_eq head, reach.2, List.append_assoc]
      simp [nodesOf, patchesOf]

end

def patchFor (source : List Char) (helper component : String) (test : TestSpans) : Patch :=
  Grammar.instancePatch source helper component test.left test.right

theorem patches_eq_toList (declarative : setting.dialect = .declarative helper component)
    (outline : Outline) : outline.form.patches setting outline.children =
      (outline.test?.map (patchFor setting.source helper component)).toList := by
  obtain ⟨form, span, source, children⟩ := outline
  cases form with
  | array => rfl
  | other => rfl
  | instanceTest =>
      match children with
      | [] => rfl
      | [_] => rfl
      | [left, right] =>
          simp [NodeForm.patches, declarative, test?, patchFor, Outline.form, Outline.children]
      | _ :: _ :: _ :: _ => rfl

theorem head?_patchesOf (declarative : setting.dialect = .declarative helper component)
    (nodes : List Outline) : (patchesOf setting nodes).head? =
      (nodes.findSome? test?).map (patchFor setting.source helper component) := by
  induction nodes with
  | nil => rfl
  | cons node nodes induction =>
      simp only [patchesOf, List.flatMap_cons, patches_eq_toList declarative node] at induction ⊢
      rw [List.findSome?_cons]
      cases node.test? with
      | none => simpa using induction
      | some test => rfl

structure Between (text : List Char) (first last : Nat) (test : TestSpans) : Prop where
  lower : first ≤ test.left.start
  upper : test.right.stop ≤ last
  order : test.left.start ≤ test.right.stop
  boundary : Text.IsBoundary text test.left.start

theorem Read.test_between {node : Outline} {test : TestSpans}
    (read : node.Read setting first last) (ready : first.Ready setting.source)
    (isTest : node.test? = some test) :
    Between setting.source first.cursor.offset last.cursor.previousEnd test := by
  obtain ⟨form, span, source, children⟩ := node
  unfold test? at isTest
  split at isTest
  case h_2 => cases isTest
  case h_1 left right nodeEq =>
      cases nodeEq
      cases isTest
      obtain ⟨inner, all, rfl, -⟩ := read
      have upper := all.child_stop_le ready.on
        (List.mem_cons_of_mem left (List.mem_singleton_self right))
      obtain ⟨used, start, stop, reach, leftRead, rightAll⟩ := all
      have startReady := ready.reach reach
      obtain ⟨consumed, moved, path⟩ := leftRead.moves
      have leftOrder := path.offset_lt_previousEnd startReady.on moved
      have stopReady := leftRead.ready startReady
      have rightStart := rightAll.le_child_start stopReady.on (List.mem_singleton_self right)
      have rightPlaced : right.span.start < right.span.stop := by
        obtain ⟨_, begins, ends, reach', rightRead, -⟩ := rightAll
        exact (rightRead.placed (stopReady.reach reach')).inhabited
      have leftStart : left.span.start = start.cursor.offset := by
        rw [leftRead.span_eq]
        rfl
      have stopOrder := stopReady.on.previousEnd_le_offset
      refine ⟨?_, upper, ?_, ?_⟩
      · rw [leftStart]
        exact reach.1.offset_le ready.on
      · simp only [leftStart]
        omega
      · rw [leftStart]
        exact startReady.on.isBoundary_offset

theorem Read.firstTest?_between {outline : Outline} {test : TestSpans}
    (read : outline.Read setting first last) (ready : first.Ready setting.source)
    (isFirst : outline.firstTest? = some test) :
    Between setting.source first.cursor.offset last.cursor.previousEnd test := by
  obtain ⟨node, member, isTest⟩ := List.exists_of_findSome?_eq_some isFirst
  obtain ⟨start, stop, startReady, nodeRead, ⟨_, lead⟩, upper⟩ := read.exists_read ready member
  have lower := lead.offset_le ready.on
  have between := nodeRead.test_between startReady isTest
  exact ⟨Nat.le_trans lower between.lower, Nat.le_trans between.upper upper, between.order,
    between.boundary⟩

/-- How a stretch reads with patches of which the earlier ones lie before it and
the first of its own lies inside. -/
theorem effectiveText_append {source : List Char} {earlier own : List Patch} {start stop : Nat}
    (before : ∀ patch ∈ earlier, patch.stop < start)
    (inside : ∀ patch, own.head? = some patch → patch.start ≤ stop ∧ start ≤ patch.stop) :
    Patch.effectiveText source (earlier ++ own) start stop =
      match own.head? with
      | none => Text.clippedSlice source start stop
      | some patch => Text.clippedSlice source start patch.start ++ patch.replacement ++
          Text.clippedSlice source patch.stop stop := by
  rw [Patch.effectiveText_append before]
  unfold Patch.effectiveText
  cases own with
  | nil => rfl
  | cons patch more =>
      have touched := inside patch rfl
      have found : (patch :: more).find? (fun patch => patch.touches start stop) = some patch := by
        rw [List.find?_cons]
        simp [Patch.touches, touched]
      rw [found]
      rfl

/-- How a stretch of a node's text reads when the node has been read, if no
earlier patch comes near and the first test lies inside. -/
theorem Read.effectiveText_eq {outline : Outline}
    (declarative : setting.dialect = .declarative helper component)
    (read : outline.Read setting first last) {start stop : Nat}
    (before : ∀ patch ∈ first.patches, patch.stop < start)
    (inside : ∀ test, outline.firstTest? = some test → Between setting.source start stop test)
    (bound : stop ≤ Text.byteLength setting.source) :
    Patch.effectiveText setting.source last.patches start stop =
      match outline.firstTest? with
      | none => Text.slice setting.source start stop
      | some test => Text.slice setting.source start test.left.start ++
          Grammar.instanceTest helper component (test.left.text setting.source)
            (test.right.text setting.source) ++
          Text.slice setting.source test.right.stop stop := by
  have headEq := head?_patchesOf declarative outline.nodes
  change _ = outline.firstTest?.map _ at headEq
  rw [read.patches_eq, effectiveText_append before, headEq]
  · cases isFirst : outline.firstTest? with
    | none =>
        simp only [Option.map_none]
        exact Text.clippedSlice_eq_slice bound
    | some test =>
        have between := inside test isFirst
        have order := between.order
        have upper := between.upper
        simp only [Option.map_some, patchFor, Grammar.instancePatch]
        rw [Text.clippedSlice_eq_slice (by omega), Text.clippedSlice_eq_slice bound]
  · intro patch isHead
    rw [headEq] at isHead
    obtain ⟨test, isFirst, rfl⟩ := Option.map_eq_some_iff.mp isHead
    have between := inside test isFirst
    have order := between.order
    have lower := between.lower
    have upper := between.upper
    constructor
    · change test.left.start ≤ stop
      omega
    · change start ≤ test.right.stop
      omega

/-! ## Nodes that are captured -/

theorem textStop_eq {cursor : Cursor} {text : List Char} {outline : Outline} (on : cursor.On text)
    (passed : cursor.Passed text) (stopEq : outline.tokensStop text = cursor.previousEnd) :
    outline.textStop text = cursor.offset := by
  unfold textStop
  rw [stopEq, on.find_following passed]
  rfl

theorem Read.sourceIs_of_captured {outline : Outline} {source : String}
    (declarative : setting.dialect = .declarative helper component)
    (read : outline.Read setting first last) (ready : first.Ready setting.source)
    (passed : first.cursor.Passed setting.source) (plain : outline.form ≠ .array)
    (kept : outline.source = some source) :
    outline.SourceIs setting.source helper component TestSpans.operands source := by
  have lastReady := read.ready ready
  have spanEq := read.span_eq
  have fits : first.Clear ∧ source = String.ofList (Patch.effectiveText setting.source last.patches
      first.cursor.offset last.cursor.offset) ∧
      outline.textStart setting.source = outline.span.start ∧
      outline.tokensStop setting.source = outline.span.stop := by
    obtain ⟨form, span, found, children⟩ := outline
    cases kept
    obtain ⟨inner, -, -, -, -, fits⟩ := read
    cases form with
    | array => exact absurd rfl plain
    | instanceTest => exact ⟨fits.1, fits.2, rfl, rfl⟩
    | other => exact ⟨fits.1, fits.2, rfl, rfl⟩
  obtain ⟨clear, sourceEq, startEq, stopEq⟩ := fits
  have textStart : outline.textStart setting.source = first.cursor.offset := by
    rw [startEq, spanEq]
    rfl
  have textStop : outline.textStop setting.source = last.cursor.offset := by
    obtain ⟨used, -, path⟩ := read.moves
    apply textStop_eq lastReady.on (path.passed ready.on passed)
    rw [stopEq, spanEq]
    rfl
  have inside (test : TestSpans) (isFirst : outline.firstTest? = some test) :
      Between setting.source first.cursor.offset last.cursor.offset test := by
    have between := read.firstTest?_between ready isFirst
    exact ⟨between.lower, Nat.le_trans between.upper lastReady.on.previousEnd_le_offset,
      between.order, between.boundary⟩
  have bound := lastReady.on.isBoundary_offset.le_byteLength
  have reads := read.effectiveText_eq declarative clear inside bound
  unfold SourceIs
  rw [sourceEq, String.toList_ofList, reads, textStart, textStop]
  cases isFirst : outline.firstTest? with
  | none => rfl
  | some test => exact ⟨(inside test isFirst).lower, (inside test isFirst).upper, rfl⟩

/-! ## Array literals -/

structure Brackets (text : List Char) (first last opening closing : Cursor) (span : Span) :
    Prop where
  openingOn : opening.On text
  closingOn : closing.On text
  closingPassed : closing.Passed text
  opens : opening.current.isPunctuation '[' = true
  closes : closing.current.isPunctuation ']' = true
  lower : first.offset ≤ opening.offset
  order : opening.current.span.stop ≤ closing.offset
  start_eq : ((tokens text).find? fun token =>
    span.start ≤ token.span.start && !token.isPunctuation '(') = some opening.current
  stop_eq : ((tokens text).reverse.find? fun token =>
    token.span.start < span.stop && !token.isPunctuation ')') = some closing.current

/-- Of the tokens of an array literal, the first that is no opening parenthesis is
its bracket. -/
theorem find?_opening {children : List Outline} {source : String}
    (found : ArraySource setting first last children source) (on : first.cursor.On setting.source)
    (passed : first.cursor.Passed setting.source)
    (lower : first.cursor.offset ≤ found.opening.span.start) :
    ((tokens setting.source).find? fun token =>
      (first.spanTo last).start ≤ token.span.start && !token.isPunctuation '(') =
        some found.opening := by
  obtain ⟨earlier, tokensEq, isPassed⟩ := passed.exists_before
  rw [found.reads.remaining_eq on] at tokensEq
  have opens := found.opening_eq
  have notRound : found.opening.isPunctuation '(' = false := by simp_all [Token.isPunctuation]
  have behind : (first.spanTo last).start ≤ found.opening.span.start := lower
  rw [List.find?_eq_some_iff_append]
  refine ⟨by simp [notRound, behind], earlier ++ found.opens, found.inside ++ found.closing ::
    found.closes ++ last.cursor.remaining, by simpa using tokensEq, ?_⟩
  intro token member
  rcases List.mem_append.mp member with before | round
  · obtain ⟨inhabited, stopLe⟩ := isPassed token before
    have order := on.previousEnd_le_offset
    have apart : ¬ (first.spanTo last).start ≤ token.span.start := by
      change ¬ first.cursor.offset ≤ token.span.start
      omega
    simp [apart]
  · simp [found.opens_eq token round]

theorem find?_closing {children : List Outline} {source : String}
    (found : ArraySource setting first last children source) (on : first.cursor.On setting.source)
    (passed : first.cursor.Passed setting.source)
    (upper : found.closing.span.start < last.cursor.previousEnd) :
    ((tokens setting.source).reverse.find? fun token =>
      token.span.start < (first.spanTo last).stop && !token.isPunctuation ')') =
        some found.closing := by
  obtain ⟨earlier, tokensEq, -⟩ := passed.exists_before
  rw [found.reads.remaining_eq on] at tokensEq
  have closes := found.closing_eq
  have notRound : found.closing.isPunctuation ')' = false := by simp_all [Token.isPunctuation]
  have ahead : found.closing.span.start < (first.spanTo last).stop := upper
  rw [List.find?_eq_some_iff_append]
  refine ⟨by simp [notRound, ahead], last.cursor.remaining.reverse ++ found.closes.reverse,
    found.inside.reverse ++ found.opening :: (found.opens.reverse ++ earlier.reverse),
    by simp [tokensEq], ?_⟩
  intro token member
  rcases List.mem_append.mp member with later | round
  · have apart := (found.reads.on on).previousEnd_le_start (List.mem_reverse.mp later)
    have notAhead : ¬ token.span.start < (first.spanTo last).stop := Nat.not_lt.mpr apart
    simp [notAhead]
  · simp [found.closes_eq token (List.mem_reverse.mp round)]

theorem exists_brackets {children : List Outline} {source : String}
    (found : ArraySource setting first last children source) (on : first.cursor.On setting.source)
    (passed : first.cursor.Passed setting.source) :
    ∃ opening closing, Brackets setting.source first.cursor last.cursor opening closing
        (first.spanTo last) ∧
      opening.current = found.opening ∧ closing.current = found.closing ∧
      closing.advance.current = found.closes.headD last.cursor.current := by
  obtain ⟨opening, before, rest⟩ := found.reads.split
  obtain ⟨openingEq, openSolid, rest⟩ := rest.current_eq
  obtain ⟨closing, middle, rest⟩ := rest.split
  obtain ⟨closingEq, closeSolid, behind⟩ := rest.current_eq
  have openingOn := before.on on
  have openAdvanced := openingOn.advance (openingEq ▸ openSolid)
  have closingOn := middle.on openAdvanced
  have closeAdvanced := closingOn.advance (closingEq ▸ closeSolid)
  have lower : first.cursor.offset ≤ opening.offset := before.offset_le on
  have upper : closing.current.span.start < last.cursor.previousEnd :=
    Nat.lt_of_lt_of_le (closingOn.offset_lt_stop (closingEq ▸ closeSolid))
      (behind.previousEnd_le closeAdvanced)
  refine ⟨opening, closing, ?_, openingEq, closingEq, behind.headD_eq.symm⟩
  exact {
    openingOn := openingOn
    closingOn := closingOn
    closingPassed := middle.passed openAdvanced
      ((Cursor.Reads.one (openingEq ▸ openSolid)).passed openingOn (before.passed on passed))
    opens := by rw [openingEq, found.opening_eq]
    closes := by rw [closingEq, found.closing_eq]
    lower := lower
    order := Nat.le_trans (middle.previousEnd_le openAdvanced) closingOn.previousEnd_le_offset
    start_eq := openingEq ▸ find?_opening found on passed (openingEq ▸ lower)
    stop_eq := closingEq ▸ find?_closing found on passed (closingEq ▸ upper) }

theorem AllRead.firstTest?_between {children : List Outline} {test : TestSpans}
    (all : AllRead setting children first last) (ready : first.Ready setting.source)
    (isFirst : (nodesOf children).findSome? test? = some test) :
    ∃ child ∈ children, Between setting.source child.span.start child.span.stop test := by
  induction children generalizing first with
  | nil => cases isFirst
  | cons child children induction =>
      obtain ⟨used, start, stop, reach, head, tail⟩ := all
      have startReady := ready.reach reach
      rw [nodesOf, List.findSome?_append] at isFirst
      cases inHead : child.nodes.findSome? test? with
      | some found =>
          rw [inHead] at isFirst
          cases isFirst
          refine ⟨child, List.mem_cons_self, ?_⟩
          rw [head.span_eq]
          exact head.firstTest?_between startReady inHead
      | none =>
          rw [inHead] at isFirst
          obtain ⟨found, member, between⟩ := induction tail (head.ready startReady) isFirst
          exact ⟨found, List.mem_cons_of_mem _ member, between⟩

section Array

variable {outline : Outline} {source : String} {opening closing : Cursor}

theorem Read.arraySource (read : outline.Read setting first last)
    (isArray : outline.form = .array) (kept : outline.source = some source) :
    (∃ inner, AllRead setting outline.children first inner) ∧
      Nonempty (ArraySource setting first last outline.children source) := by
  obtain ⟨form, span, found, children⟩ := outline
  cases isArray
  cases kept
  obtain ⟨inner, all, -, -, -, -, found⟩ := read
  exact ⟨⟨inner, all⟩, found⟩

theorem textStart_of_array (isArray : outline.form = .array)
    (brackets : Brackets setting.source first.cursor last.cursor opening closing outline.span) :
    outline.textStart setting.source = opening.offset := by
  obtain ⟨form, span, found, children⟩ := outline
  cases isArray
  have startEq : ((tokens setting.source).find? fun token =>
      span.start ≤ token.span.start && !token.isPunctuation '(') = some opening.current :=
    brackets.start_eq
  simp only [Outline.textStart]
  rw [startEq]
  rfl

theorem textStop_of_array (isArray : outline.form = .array)
    (brackets : Brackets setting.source first.cursor last.cursor opening closing outline.span) :
    outline.textStop setting.source = closing.advance.offset := by
  have solid := Token.isSolid_of_isPunctuation brackets.closes
  apply textStop_eq (brackets.closingOn.advance solid)
    ((Cursor.Reads.one solid).passed brackets.closingOn brackets.closingPassed)
  obtain ⟨form, span, found, children⟩ := outline
  cases isArray
  have stopEq : ((tokens setting.source).reverse.find? fun token =>
      token.span.start < span.stop && !token.isPunctuation ')') = some closing.current :=
    brackets.stop_eq
  simp only [Outline.tokensStop]
  rw [stopEq]
  rfl

theorem firstTest?_of_array (isArray : outline.form = .array) :
    outline.firstTest? = (nodesOf outline.children).findSome? test? := by
  obtain ⟨form, span, found, children⟩ := outline
  cases isArray
  simp [firstTest?, nodes, List.findSome?_append, test?, Outline.children]

theorem cons_slice_of_brackets {text : List Char} {span : Span} {last : Spot} {place : Nat}
    (brackets : Brackets text first.cursor last.cursor opening closing span)
    (boundary : Text.IsBoundary text place) (order : opening.current.span.stop ≤ place) :
    '[' :: Text.slice text opening.current.span.stop place =
      Text.slice text opening.offset place := by
  have solid := Token.isSolid_of_isPunctuation brackets.opens
  have inside := brackets.openingOn.advance solid
  have whole := Text.slice_append_slice brackets.openingOn.isBoundary_offset
    inside.isBoundary_previousEnd boundary
    (Nat.le_of_lt (brackets.openingOn.offset_lt_stop solid)) order
  rw [← whole]
  change _ = Text.slice text opening.offset opening.current.span.stop ++ _
  rw [brackets.openingOn.slice_mark brackets.opens]
  rfl

theorem Read.sourceIs_of_array (declarative : setting.dialect = .declarative helper component)
    (read : outline.Read setting first last) (ready : first.Ready setting.source)
    (passed : first.cursor.Passed setting.source) (isArray : outline.form = .array)
    (kept : outline.source = some source) :
    outline.SourceIs setting.source helper component TestSpans.operands source := by
  obtain ⟨⟨inner, all⟩, ⟨found⟩⟩ := read.arraySource isArray kept
  obtain ⟨opening, closing, brackets, openingEq, closingEq, nextEq⟩ :=
    exists_brackets found ready.on passed
  rw [← read.span_eq] at brackets
  have openSolid := Token.isSolid_of_isPunctuation brackets.opens
  have closeSolid := Token.isSolid_of_isPunctuation brackets.closes
  have nextOn := brackets.closingOn.advance closeSolid
  have openOrder := brackets.openingOn.offset_lt_stop openSolid
  have closeOrder : closing.current.span.start < closing.current.span.stop :=
    brackets.closingOn.offset_lt_stop closeSolid
  have nextOrder : closing.current.span.stop ≤ closing.advance.offset :=
    nextOn.previousEnd_le_offset
  have inside (test : TestSpans) (isFirst : outline.firstTest? = some test) :
      Between setting.source opening.current.span.stop closing.advance.offset test := by
    rw [firstTest?_of_array isArray] at isFirst
    obtain ⟨child, member, between⟩ := all.firstTest?_between ready isFirst
    obtain ⟨lower, upper⟩ := found.children_inside child member
    rw [← openingEq] at lower
    rw [← closingEq] at upper
    have behind := between.upper
    exact ⟨Nat.le_trans lower between.lower, by omega, between.order, between.boundary⟩
  have before : ∀ patch ∈ first.patches, patch.stop < opening.current.span.stop := by
    intro patch member
    have behind := ready.behind patch member
    have order := ready.on.previousEnd_le_offset
    have lower := brackets.lower
    omega
  have reads := read.effectiveText_eq declarative before inside
    nextOn.isBoundary_offset.le_byteLength
  have sourceEq : source.toList = '[' :: Patch.effectiveText setting.source last.patches
      opening.current.span.stop closing.advance.offset := by
    rw [found.source_eq, String.toList_ofList, openingEq, ← nextEq]
    rfl
  unfold SourceIs
  rw [sourceEq, reads, textStart_of_array isArray brackets, textStop_of_array isArray brackets]
  cases isFirst : outline.firstTest? with
  | none =>
      have order : opening.current.span.stop ≤ closing.current.span.start := brackets.order
      exact cons_slice_of_brackets brackets nextOn.isBoundary_offset (by omega)
  | some test =>
      have between := inside test isFirst
      refine ⟨Nat.le_trans (Nat.le_of_lt openOrder) between.lower, between.upper, ?_⟩
      simp only [← List.cons_append]
      rw [cons_slice_of_brackets brackets between.boundary between.lower]
      rfl

end Array

theorem Read.sourceIs {outline : Outline} {source : String}
    (declarative : setting.dialect = .declarative helper component)
    (read : outline.Read setting first last) (ready : first.Ready setting.source)
    (passed : first.cursor.Passed setting.source) (kept : outline.source = some source) :
    outline.SourceIs setting.source helper component TestSpans.operands source := by
  by_cases isArray : outline.form = .array
  · exact read.sourceIs_of_array declarative ready passed isArray kept
  · exact read.sourceIs_of_captured declarative ready passed isArray kept

end Outline

/-! ## Sources in a parsed file -/

/-- The sources kept for the nodes of a parsed text are the texts of the nodes, in
which the first test, from its left operand through its right one, reads as a
call. -/
theorem captured_source_is_text {options : Options} {text : List Char} {tree : Tree}
    (ok : (parseNormalized options text).outcome = .ok tree) :
    ∀ node ∈ Outline.nodesOf tree.outlines, ∀ kept, node.source = some kept →
      node.SourceIs text options.helper options.component TestSpans.operands kept := by
  intro node member kept sourceEq
  obtain ⟨last, read⟩ := parseNormalized_read ok
  have first : (State.ofText text).spot.Ready (options.grammar text).source := ready_ofText text
  have firstPassed : (State.ofText text).spot.cursor.Passed (options.grammar text).source :=
    Cursor.passed_ofText text
  obtain ⟨start, stop, ready, nodeRead, ⟨_, lead⟩, -⟩ := read.exists_read first member
  have passed := lead.passed first.on firstPassed
  have declarative : (options.grammar text).dialect =
      .declarative options.helper options.component := rfl
  have sourceIs := nodeRead.sourceIs declarative ready passed sourceEq
  exact sourceIs

theorem captured_source_is_text_of_test :
    ∃ tree, (parseNormalized {} "A { b: c instanceof D }".toList).outcome = .ok tree ∧
      ∀ node ∈ Outline.nodesOf tree.outlines, ∀ kept, node.source = some kept →
        node.SourceIs "A { b: c instanceof D }".toList "__qmlweb_instanceof"
          "__component" TestSpans.operands kept := by
  have accepted : (parseNormalized {} "A { b: c instanceof D }".toList).outcome.isOk = true := by
    decide +kernel
  obtain ⟨tree, ok⟩ := exists_of_isOk accepted
  have texts := captured_source_is_text ok
  exact ⟨tree, ok, texts⟩

/-- A test in parentheses is replaced between them: the span of the test, to which
the parentheses belong, is not what reads as a call. -/
theorem captured_source_keeps_parentheses :
    ¬ ∀ options text tree, (parseNormalized options text).outcome = .ok tree →
      ∀ node ∈ Outline.nodesOf tree.outlines, ∀ kept, node.source = some kept →
        node.SourceIs text options.helper options.component TestSpans.whole kept := by
  intro claimed
  have refuted : (match (parseNormalized {} "Item { ok: (a instanceof B) }".toList).outcome with
      | .ok tree => (Outline.nodesOf tree.outlines).all fun node =>
          node.source.all fun kept => decide
            (node.SourceIs "Item { ok: (a instanceof B) }".toList
              "__qmlweb_instanceof" "__component" TestSpans.whole kept)
      | .error _ => true) = false := by decide +kernel
  have holds := claimed {} "Item { ok: (a instanceof B) }".toList
  generalize (parseNormalized {} "Item { ok: (a instanceof B) }".toList).outcome = outcome
    at refuted holds
  cases outcome with
  | error error => cases refuted
  | ok tree =>
      obtain ⟨node, member, differs⟩ := List.all_eq_false.mp refuted
      cases sourceEq : node.source with
      | none =>
          rw [sourceEq] at differs
          exact differs rfl
      | some kept =>
          rw [sourceEq, Option.all_some, decide_eq_true_eq] at differs
          exact differs (holds tree rfl node member kept sourceEq)

end Qml
