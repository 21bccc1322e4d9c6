import Qml.Proofs.Nodes.Basic
import Qml.Proofs.Operators
import Qml.Proofs.Outline.Parsed
import Qml.Proofs.Parser.Yields
import Qml.Proofs.Token.Places
import Qml.Proofs.Walks

/-! # Alias paths and their grammar

A path is a segment and more segments, each after a dot; a segment is a name or a
number and any number of paths, each in brackets. The parser keeps the paths around
the innermost open bracket on a stack. It accepts the paths of this grammar and
nothing else, and what it fails for tells where the tokens leave the grammar. -/

namespace Qml

open Qml.Parser

/-! ## The grammar -/

/-- A token is the name of a segment: a name, or a number as it is spelled. -/
def Token.Names (token : Token) (name : String) : Prop :=
  token.kind = .name name ∨ (token.isNumber = true ∧ token.text = name)

def Token.continuesPath (token : Token) : Bool :=
  token.isPunctuation '.' || token.isPunctuation '[' || token.isPunctuation ']'

mutual

/-- The tokens of a path: `Path ::= Seg ('.' Seg)*` -/
inductive AliasPath.Written : AliasPath → List Token → Prop
  | intro {segment : AliasSegment} {more : List AliasSegment} {first rest : List Token}
      (head : segment.Written first) (tail : AliasSegment.Dotted more rest) :
      AliasPath.Written ⟨segment :: more⟩ (first ++ rest)

inductive AliasSegment.Dotted : List AliasSegment → List Token → Prop
  | nil : AliasSegment.Dotted [] []
  | cons {dot : Token} {segment : AliasSegment} {more : List AliasSegment}
      {first rest : List Token} (isDot : dot.isPunctuation '.' = true)
      (head : segment.Written first) (tail : AliasSegment.Dotted more rest) :
      AliasSegment.Dotted (segment :: more) (dot :: first ++ rest)

/-- The tokens of a segment: `Seg ::= (Name | Num) ('[' Path ']')*` -/
inductive AliasSegment.Written : AliasSegment → List Token → Prop
  | intro {token : Token} {name : String} {subscripts : List AliasPath} {rest : List Token}
      (names : token.Names name) (tail : AliasPath.Bracketed subscripts rest) :
      AliasSegment.Written ⟨name, subscripts⟩ (token :: rest)

inductive AliasPath.Bracketed : List AliasPath → List Token → Prop
  | nil : AliasPath.Bracketed [] []
  | cons {opening closing : Token} {path : AliasPath} {more : List AliasPath}
      {inner rest : List Token} (opens : opening.isPunctuation '[' = true)
      (head : path.Written inner) (closes : closing.isPunctuation ']' = true)
      (tail : AliasPath.Bracketed more rest) :
      AliasPath.Bracketed (path :: more) (opening :: inner ++ closing :: rest)

end

namespace AliasPath

/-- Complete segments inside a number of brackets that are still open: a path,
an open bracket and a path, and so on. -/
inductive Unclosed : (depth : Nat) → List Token → Prop
  | path {path : AliasPath} {used : List Token} (written : path.Written used) : Unclosed 0 used
  | within {depth : Nat} {outer inner : List Token} {opening : Token} {path : AliasPath}
      (unclosed : Unclosed depth outer) (opens : opening.isPunctuation '[' = true)
      (written : path.Written inner) : Unclosed (depth + 1) (outer ++ opening :: inner)

/-- A segment must come next: nothing was read, or a dot or an open bracket was read
after a complete segment. -/
def AwaitsSegment (used : List Token) : Prop :=
  used = [] ∨ ∃ depth before mark, used = before ++ [mark] ∧ Unclosed depth before ∧
    (mark.isPunctuation '.' = true ∨ mark.isPunctuation '[' = true)

/-- What becomes of a path of which `used` was read before the token `next`. -/
inductive Verdict (used : List Token) (next : Token) : Except Cause AliasPath → Prop
  | path {path : AliasPath} (written : path.Written used) (ends : next.continuesPath = false) :
      Verdict used next (.ok path)
  | unopened (complete : Unclosed 0 used) (closes : next.isPunctuation ']' = true) :
      Verdict used next (.error .unbalancedAliasPath)
  | unclosed {depth : Nat} (complete : Unclosed (depth + 1) used)
      (ends : next.continuesPath = false) : Verdict used next (.error .unbalancedAliasPath)
  | unnamed (awaits : AwaitsSegment used) (unnamed : ∀ name, ¬ next.Names name) :
      Verdict used next (.error (mismatch next (some "name")))

def outcome (state : State) (used : List Token) (next : Token) :
    Except Cause AliasPath → EStateM.Result Fault State AliasPath
  | .ok path => .ok path (state.further used.length)
  | .error cause => .error ⟨cause, next.span.origin⟩ (state.further used.length)

end AliasPath

/-! ## Tokens of a path -/

structure Token.Spelled (token : Token) : Prop where
  name : ∀ name, token.kind = .name name → token.text = name
  mark : ∀ mark, token.isPunctuation mark = true → token.text = String.ofList [mark]

theorem Lexer.next_spelled (lexer : Lexer) : lexer.next.1.Spelled := by
  constructor
  · intro name isName
    cases closed : (Gap.ofText lexer.rest).closed with
    | true =>
        rw [(next_of_closed closed).1] at isName ⊢
        have spelled : lexer.afterGap.rest.take lexer.found.length = name.toList :=
          take_of_name isName
        change String.ofList (lexer.afterGap.rest.take lexer.found.length) = name
        rw [spelled, String.ofList_toList]
    | false =>
        rw [next_of_unclosed closed] at isName
        cases isName
  · intro mark isMark
    obtain ⟨gap, body, tile, -⟩ := lexer.next_tile
    rw [tile.spelling, tile.body_eq_mark mark isMark]

theorem Lexer.takeToEnd_spelled (bound : Nat) (lexer : Lexer) :
    ∀ token ∈ takeToEnd bound lexer, token.Spelled := by
  induction bound generalizing lexer with
  | zero => simp [takeToEnd]
  | succ bound induction =>
      simp only [takeToEnd]
      split
      · intro token member
        rw [List.mem_singleton.mp member]
        exact lexer.next_spelled
      · intro token member
        rcases List.mem_cons.mp member with isNext | later
        · rw [isNext]
          exact lexer.next_spelled
        · exact induction _ token later

theorem Tiled.span_text {consumed rest : List Char} {tokens : List Token}
    (tiled : Tiled (Position.start.after consumed) rest tokens) :
    ∀ token ∈ tokens, token.span.text (consumed ++ rest) = token.text.toList := by
  induction tokens generalizing consumed rest with
  | nil => simp
  | cons first more induction =>
      obtain ⟨gap, body, after, tile, tiled⟩ := tiled
      intro token member
      rcases List.mem_cons.mp member with rfl | later
      · have sliced := Text.slice_append (consumed ++ gap) body after
        rw [Text.byteLength_append, List.append_assoc, ← tile.text_eq] at sliced
        have span : token.span.start = Text.byteLength consumed + Text.byteLength gap ∧
            token.span.stop =
              Text.byteLength consumed + Text.byteLength gap + Text.byteLength body := by
          rw [Span.start, tile.span_eq]
          simp [Position.start]
        rw [Span.text, span.1, span.2, sliced, tile.spelling, String.toList_ofList]
      · rw [← Position.after_append] at tiled
        have textEq : consumed ++ rest = consumed ++ (gap ++ body) ++ after := by
          rw [tile.text_eq]
          simp
        rw [textEq]
        exact induction tiled token later

theorem Token.Names.isSolid {token : Token} {name : String} (names : token.Names name) :
    token.isSolid = true := by
  rcases names with isName | ⟨number, -⟩
  · exact isSolid_of_kind isName (by simp) (by simp)
  · obtain ⟨value, kind⟩ := exists_value_of_isNumber number
    exact isSolid_of_kind kind (by simp) (by simp)

mutual

theorem AliasPath.Written.isSolid {path : AliasPath} {used : List Token}
    (written : path.Written used) : ∀ token ∈ used, token.isSolid = true := by
  match written with
  | .intro head tail =>
      intro token member
      rcases List.mem_append.mp member with inHead | inTail
      · exact head.isSolid token inHead
      · exact tail.isSolid token inTail

theorem AliasSegment.Dotted.isSolid {segments : List AliasSegment} {used : List Token}
    (dotted : AliasSegment.Dotted segments used) : ∀ token ∈ used, token.isSolid = true := by
  match dotted with
  | .nil => simp
  | .cons isDot head tail =>
      intro token member
      rcases List.mem_append.mp member with inHead | inTail
      · rcases List.mem_cons.mp inHead with rfl | inSegment
        · exact Token.isSolid_of_isPunctuation isDot
        · exact head.isSolid token inSegment
      · exact tail.isSolid token inTail

theorem AliasSegment.Written.isSolid {segment : AliasSegment} {used : List Token}
    (written : segment.Written used) : ∀ token ∈ used, token.isSolid = true := by
  match written with
  | .intro names tail =>
      intro token member
      rcases List.mem_cons.mp member with rfl | inTail
      · exact names.isSolid
      · exact tail.isSolid token inTail

theorem AliasPath.Bracketed.isSolid {paths : List AliasPath} {used : List Token}
    (bracketed : AliasPath.Bracketed paths used) : ∀ token ∈ used, token.isSolid = true := by
  match bracketed with
  | .nil => simp
  | .cons opens head closes tail =>
      intro token member
      rcases List.mem_append.mp member with inHead | inTail
      · rcases List.mem_cons.mp inHead with rfl | inPath
        · exact Token.isSolid_of_isPunctuation opens
        · exact head.isSolid token inPath
      · rcases List.mem_cons.mp inTail with rfl | behind
        · exact Token.isSolid_of_isPunctuation closes
        · exact tail.isSolid token behind

end

/-! ## The text of a path -/

theorem AliasSegment.joined_cons (segment : AliasSegment) (more : List AliasSegment) :
    (AliasSegment.joined (segment :: more)).toList =
      segment.text.toList ++ more.flatMap fun next => '.' :: next.text.toList := by
  induction more generalizing segment with
  | nil => simp [AliasSegment.joined]
  | cons next more induction => simp [AliasSegment.joined, induction]

theorem Token.Names.text_eq {token : Token} {name : String} (names : token.Names name)
    (spelled : token.Spelled) : token.text = name := by
  rcases names with isName | ⟨-, textEq⟩
  · exact spelled.name name isName
  · exact textEq

def Token.spellings (tokens : List Token) : List Char :=
  tokens.flatMap fun token => token.text.toList

section

@[simp] theorem Token.spellings_nil : Token.spellings [] = [] := rfl

@[simp] theorem Token.spellings_cons (token : Token) (more : List Token) :
    Token.spellings (token :: more) = token.text.toList ++ Token.spellings more := rfl

@[simp] theorem Token.spellings_append (left right : List Token) :
    Token.spellings (left ++ right) = Token.spellings left ++ Token.spellings right :=
  List.flatMap_append

theorem Token.Spelled.toList_text {token : Token} {mark : Char} (spelled : token.Spelled)
    (isMark : token.isPunctuation mark = true) : token.text.toList = [mark] := by
  rw [spelled.mark mark isMark, String.toList_ofList]

end

mutual

theorem AliasPath.Written.text_eq {path : AliasPath} {used : List Token}
    (written : path.Written used) (spelled : ∀ token ∈ used, token.Spelled) :
    path.text.toList = Token.spellings used := by
  match written with
  | .intro head tail =>
      have inHead := head.text_eq fun token member => spelled token (List.mem_append_left _ member)
      have inTail := tail.text_eq fun token member => spelled token (List.mem_append_right _ member)
      rw [AliasPath.text, AliasSegment.joined_cons, inHead, inTail, Token.spellings_append]

theorem AliasSegment.Dotted.text_eq {segments : List AliasSegment} {used : List Token}
    (dotted : AliasSegment.Dotted segments used) (spelled : ∀ token ∈ used, token.Spelled) :
    (segments.flatMap fun next => '.' :: next.text.toList) = Token.spellings used := by
  match dotted with
  | .nil => rfl
  | .cons isDot head tail =>
      have dot := (spelled _ (by simp)).toList_text isDot
      have inHead := head.text_eq fun token member => spelled token (by simp [member])
      have inTail := tail.text_eq fun token member => spelled token (by simp [member])
      simp [dot, inHead, inTail]

theorem AliasSegment.Written.text_eq {segment : AliasSegment} {used : List Token}
    (written : segment.Written used) (spelled : ∀ token ∈ used, token.Spelled) :
    segment.text.toList = Token.spellings used := by
  match written with
  | .intro names tail =>
      have name := names.text_eq (spelled _ (by simp))
      have inTail := tail.text_eq fun token member => spelled token (by simp [member])
      simp [AliasSegment.text, name, inTail]

theorem AliasPath.Bracketed.text_eq {paths : List AliasPath} {used : List Token}
    (bracketed : AliasPath.Bracketed paths used) (spelled : ∀ token ∈ used, token.Spelled) :
    (AliasPath.bracketed paths).toList = Token.spellings used := by
  match bracketed with
  | .nil => rfl
  | .cons opens head closes tail =>
      have opening := (spelled _ (by simp)).toList_text opens
      have closing := (spelled _ (by simp)).toList_text closes
      have inHead := head.text_eq fun token member => spelled token (by simp [member])
      have inTail := tail.text_eq fun token member => spelled token (by simp [member])
      simp [AliasPath.bracketed, opening, closing, inHead, inTail]

end

theorem AliasPath.Written.text_eq_slices {path : AliasPath} {text : List Char}
    {used : List Token} (written : path.Written used)
    (among : ∀ token ∈ used, token ∈ tokens text) :
    path.text = String.ofList (used.flatMap fun token => token.span.text text) := by
  have spelled := written.text_eq fun token member =>
    Lexer.takeToEnd_spelled _ _ token (among token member)
  have tiled : Tiled (Position.start.after []) text (tokens text) := tokens_tiled text
  have slices : (used.flatMap fun token => token.span.text text) = Token.spellings used :=
    List.flatMap_congr fun token member => tiled.span_text token (among token member)
  rw [slices, ← spelled, String.ofList_toList]

theorem Cursor.Over.mem_tokens {text : List Char} {cursor : Cursor} {used rest : List Token}
    (inText : cursor.Over text) (remainingEq : cursor.remaining = used ++ rest)
    (solid : ∀ token ∈ used, token.isSolid = true) : ∀ token ∈ used, token ∈ tokens text := by
  intro token member
  cases used with
  | nil => cases member
  | cons first more =>
      have current : cursor.current = first := (List.cons.inj remainingEq).1
      have inside := Token.isEnd_of_isSolid (solid first List.mem_cons_self)
      rw [← current] at inside
      obtain ⟨before, tokensEq⟩ := (inText.on inside).split
      rw [tokensEq, remainingEq]
      exact List.mem_append_right _ (List.mem_append_left _ member)

/-! ## Paths in a path -/

theorem AliasSegment.Dotted.exists_written {segments : List AliasSegment} {used : List Token}
    (dotted : AliasSegment.Dotted segments used) :
    ∀ segment ∈ segments, ∃ inner, segment.Written inner := by
  match dotted with
  | .nil => simp
  | .cons isDot head tail => exact List.forall_mem_cons.mpr ⟨⟨_, head⟩, tail.exists_written⟩

theorem AliasPath.Bracketed.exists_written {paths : List AliasPath} {used : List Token}
    (bracketed : AliasPath.Bracketed paths used) : ∀ path ∈ paths, ∃ inner, path.Written inner := by
  match bracketed with
  | .nil => simp
  | .cons opens head closes tail =>
      exact List.forall_mem_cons.mpr ⟨⟨_, head⟩, tail.exists_written⟩

theorem AliasPath.Written.segments_ne_nil {path : AliasPath} {used : List Token}
    (written : path.Written used) : path.segments ≠ [] := by
  cases written
  exact List.cons_ne_nil _ _

theorem AliasPath.Written.of_contains {root path : AliasPath} {used : List Token}
    (written : root.Written used) (inside : root.Contains path) : ∃ inner, path.Written inner := by
  induction inside with
  | here => exact ⟨used, written⟩
  | subscript outer among member induction =>
      obtain ⟨around, whole⟩ := induction
      cases whole with
      | intro head tail =>
          have segments := List.forall_mem_cons.mpr ⟨⟨_, head⟩, tail.exists_written⟩
          obtain ⟨own, segment⟩ := segments _ among
          cases segment with
          | intro names brackets => exact brackets.exists_written _ member

/-! ## Longer paths -/

theorem AliasSegment.Dotted.append {segments more : List AliasSegment} {used rest : List Token}
    (dotted : AliasSegment.Dotted segments used) (behind : AliasSegment.Dotted more rest) :
    AliasSegment.Dotted (segments ++ more) (used ++ rest) := by
  match dotted with
  | .nil => exact behind
  | .cons isDot head tail =>
      rw [List.append_assoc]
      exact .cons isDot head (tail.append behind)

theorem AliasPath.Bracketed.append {paths more : List AliasPath} {used rest : List Token}
    (bracketed : AliasPath.Bracketed paths used) (behind : AliasPath.Bracketed more rest) :
    AliasPath.Bracketed (paths ++ more) (used ++ rest) := by
  match bracketed with
  | .nil => exact behind
  | .cons opens head closes tail =>
      rw [List.append_assoc, List.cons_append]
      exact .cons opens head closes (tail.append behind)

section

variable {path : AliasPath} {opening closing dot : Token} {inner : List Token}

theorem AliasSegment.Written.subscripted {segment : AliasSegment} {used : List Token}
    (written : segment.Written used) (opens : opening.isPunctuation '[' = true)
    (head : path.Written inner) (closes : closing.isPunctuation ']' = true) :
    AliasSegment.Written { segment with subscripts := segment.subscripts ++ [path] }
      (used ++ (opening :: inner ++ [closing])) := by
  cases written with
  | intro names tail => exact .intro names (tail.append (.cons opens head closes .nil))

theorem AliasSegment.Dotted.subscripted (opens : opening.isPunctuation '[' = true)
    (head : path.Written inner) (closes : closing.isPunctuation ']' = true)
    {segment : AliasSegment} {more : List AliasSegment} {used : List Token}
    (dotted : AliasSegment.Dotted (segment :: more) used) :
    AliasSegment.Dotted (Grammar.addSubscript (segment :: more) path)
      (used ++ (opening :: inner ++ [closing])) := by
  match more, dotted with
  | [], .cons isDot first tail =>
      cases tail
      have last := AliasSegment.Dotted.cons isDot (first.subscripted opens head closes) .nil
      simpa [Grammar.addSubscript] using last
  | next :: more, .cons isDot first tail =>
      have longer := AliasSegment.Dotted.cons isDot first (subscripted opens head closes tail)
      simpa [Grammar.addSubscript] using longer

theorem AliasPath.Written.subscripted {segments : List AliasSegment} {used : List Token}
    (written : AliasPath.Written ⟨segments⟩ used) (opens : opening.isPunctuation '[' = true)
    (head : path.Written inner) (closes : closing.isPunctuation ']' = true) :
    AliasPath.Written ⟨Grammar.addSubscript segments path⟩
      (used ++ (opening :: inner ++ [closing])) := by
  cases written with
  | @intro segment more first rest front tail =>
      cases more with
      | nil =>
          cases tail
          have only := AliasPath.Written.intro (front.subscripted opens head closes) .nil
          simpa [Grammar.addSubscript] using only
      | cons next more =>
          have longer := AliasPath.Written.intro front (tail.subscripted opens head closes)
          simpa [Grammar.addSubscript] using longer

theorem AliasPath.Written.dotted {segments : List AliasSegment} {segment : AliasSegment}
    {used last : List Token} (written : AliasPath.Written ⟨segments⟩ used)
    (isDot : dot.isPunctuation '.' = true) (behind : segment.Written last) :
    AliasPath.Written ⟨segments ++ [segment]⟩ (used ++ dot :: last) := by
  cases written with
  | intro head tail =>
      have longer := AliasPath.Written.intro head (tail.append (.cons isDot behind .nil))
      simpa using longer

end

theorem AliasSegment.Written.name {token : Token} {name : String} (names : token.Names name) :
    AliasSegment.Written ⟨name, []⟩ [token] :=
  .intro names .nil

theorem AliasPath.Written.single {segment : AliasSegment} {used : List Token}
    (written : segment.Written used) : AliasPath.Written ⟨[segment]⟩ used := by
  have only := AliasPath.Written.intro written .nil
  rwa [List.append_nil] at only

/-! ## One token of a path -/

namespace Grammar

variable {progress next : AliasProgress} {state after : State}

theorem aliasSegment?_eq_some {found : Token} {segment : AliasSegment} :
    aliasSegment? found = some segment ↔ ∃ name, found.Names name ∧ segment = ⟨name, []⟩ := by
  unfold aliasSegment? Token.Names Token.isNumber
  cases kind : found.kind <;> simp [eq_comm]

theorem aliasSegment?_eq_none {found : Token} :
    aliasSegment? found = none ↔ ∀ name, ¬ found.Names name := by
  constructor
  · intro none name names
    rw [aliasSegment?_eq_some.mpr ⟨name, names, rfl⟩] at none
    cases none
  · intro unnamed
    cases segment? : aliasSegment? found with
    | none => rfl
    | some segment =>
        obtain ⟨name, names, -⟩ := aliasSegment?_eq_some.mp segment?
        exact absurd names (unnamed name)

/-- How one token carries a path on. -/
inductive AliasMove (found : Token) : AliasProgress → AliasProgress → Prop
  | name {enclosing : List (List AliasSegment)} {segments : List AliasSegment} {name : String}
      (names : found.Names name) :
      AliasMove found ⟨enclosing, segments, true⟩ ⟨enclosing, segments ++ [⟨name, []⟩], false⟩
  | dot {enclosing : List (List AliasSegment)} {segments : List AliasSegment}
      (isDot : found.isPunctuation '.' = true) :
      AliasMove found ⟨enclosing, segments, false⟩ ⟨enclosing, segments, true⟩
  | opening {enclosing : List (List AliasSegment)} {segments : List AliasSegment}
      (opens : found.isPunctuation '[' = true) :
      AliasMove found ⟨enclosing, segments, false⟩ ⟨segments :: enclosing, [], true⟩
  | closing {enclosing : List (List AliasSegment)} {parent segments : List AliasSegment}
      (closes : found.isPunctuation ']' = true) :
      AliasMove found ⟨parent :: enclosing, segments, false⟩
        ⟨enclosing, addSubscript parent ⟨segments⟩, false⟩

theorem AliasMove.isSolid {found : Token} (move : AliasMove found progress next) :
    found.isSolid = true := by
  cases move with
  | name names => exact names.isSolid
  | dot isMark => exact Token.isSolid_of_isPunctuation isMark
  | opening isMark => exact Token.isSolid_of_isPunctuation isMark
  | closing isMark => exact Token.isSolid_of_isPunctuation isMark

/-- How a path stops before a token: a fault, or nothing if it is at an end. -/
inductive AliasStop (found : Token) : AliasProgress → Option Fault → Prop
  | ended {enclosing : List (List AliasSegment)} {segments : List AliasSegment}
      (ends : found.continuesPath = false) : AliasStop found ⟨enclosing, segments, false⟩ none
  | unnamed {enclosing : List (List AliasSegment)} {segments : List AliasSegment}
      (unnamed : ∀ name, ¬ found.Names name) :
      AliasStop found ⟨enclosing, segments, true⟩
        (some ⟨mismatch found (some "name"), found.span.origin⟩)
  | unopened {segments : List AliasSegment} (closes : found.isPunctuation ']' = true) :
      AliasStop found ⟨[], segments, false⟩ (some ⟨.unbalancedAliasPath, found.span.origin⟩)

def stopped (state : State) : Option Fault → EStateM.Result Fault State (Option AliasProgress)
  | none => .ok none state
  | some fault => .error fault state

theorem isPunctuation_unique {found : Token} {mark : Char}
    (isMark : found.isPunctuation mark = true) (other : Char) (different : mark ≠ other) :
    found.isPunctuation other = false := by
  have kind : found.kind = .punctuation mark := of_decide_eq_true isMark
  simp [Token.isPunctuation, kind, different]

theorem aliasStep_of_move (move : AliasMove state.cursor.current progress next) :
    aliasStep progress state = .ok (some next) state.advanced := by
  cases move with
  | name names =>
      have segment? := aliasSegment?_eq_some.mpr ⟨_, names, rfl⟩
      simp only [aliasStep, run_token, segment?, if_true]
      rfl
  | dot isDot =>
      simp only [aliasStep, run_token, isDot, Bool.false_eq_true, if_false, if_true]
      rfl
  | opening opens =>
      have notDot := isPunctuation_unique opens '.' (by decide)
      simp only [aliasStep, run_token, notDot, opens, Bool.false_eq_true, if_false, if_true]
      rfl
  | closing closes =>
      have notDot := isPunctuation_unique closes '.' (by decide)
      have notOpening := isPunctuation_unique closes '[' (by decide)
      simp only [aliasStep, run_token, notDot, notOpening, closes, Bool.false_eq_true, if_false,
        if_true]
      rfl

theorem aliasStep_of_stop {fault : Option Fault}
    (stop : AliasStop state.cursor.current progress fault) :
    aliasStep progress state = stopped state fault := by
  cases stop with
  | ended ends =>
      simp only [Token.continuesPath, Bool.or_eq_false_iff] at ends
      obtain ⟨⟨notDot, notOpening⟩, notClosing⟩ := ends
      simp only [aliasStep, run_token, notDot, notOpening, notClosing, Bool.false_eq_true, if_false]
      rfl
  | unnamed unnamed =>
      have none := aliasSegment?_eq_none.mpr unnamed
      simp only [aliasStep, run_token, none, if_true]
      rfl
  | unopened closes =>
      have notDot := isPunctuation_unique closes '.' (by decide)
      have notOpening := isPunctuation_unique closes '[' (by decide)
      simp only [aliasStep, run_token, notDot, notOpening, closes, Bool.false_eq_true, if_false,
        if_true]
      rfl

theorem move_or_stop (found : Token) (progress : AliasProgress) :
    (∃ next, AliasMove found progress next) ∨ ∃ fault, AliasStop found progress fault := by
  obtain ⟨enclosing, segments, awaits⟩ := progress
  cases awaits with
  | true =>
      cases segment? : aliasSegment? found with
      | some segment =>
          obtain ⟨name, names, -⟩ := aliasSegment?_eq_some.mp segment?
          exact .inl ⟨_, .name names⟩
      | none => exact .inr ⟨_, .unnamed (aliasSegment?_eq_none.mp segment?)⟩
  | false =>
      cases isDot : found.isPunctuation '.' with
      | true => exact .inl ⟨_, .dot isDot⟩
      | false =>
          cases opens : found.isPunctuation '[' with
          | true => exact .inl ⟨_, .opening opens⟩
          | false =>
              cases closes : found.isPunctuation ']' with
              | false =>
                  have ends : found.continuesPath = false := by
                    simp [Token.continuesPath, isDot, opens, closes]
                  exact .inr ⟨_, .ended ends⟩
              | true =>
                  cases enclosing with
                  | nil => exact .inr ⟨_, .unopened closes⟩
                  | cons parent enclosing => exact .inl ⟨_, .closing closes⟩

/-! ## A step decides

The step is a function of the token and of what was read, so a token that carries
a path on does so in one way, and a path does not both go on and stop. -/

section

variable {found : Token} {other : AliasProgress} {fault fault' : Option Fault}

def facing (found : Token) : State := ⟨⟨found, [], 0⟩, .outermost, false, [], []⟩

theorem AliasMove.next_eq (one : AliasMove found progress next)
    (two : AliasMove found progress other) : next = other := by
  have first : aliasStep progress (facing found) = _ := aliasStep_of_move one
  have same := first.symm.trans (aliasStep_of_move two)
  cases same
  rfl

theorem AliasStop.fault_eq (one : AliasStop found progress fault)
    (two : AliasStop found progress fault') : fault = fault' := by
  have first : aliasStep progress (facing found) = _ := aliasStep_of_stop one
  have same := first.symm.trans (aliasStep_of_stop two)
  cases fault <;> cases fault' <;> cases same <;> rfl

theorem AliasMove.not_stop (move : AliasMove found progress next) :
    ¬ AliasStop found progress fault := by
  intro stop
  have first : aliasStep progress (facing found) = _ := aliasStep_of_move move
  have same := first.symm.trans (aliasStep_of_stop stop)
  cases fault <;> cases same

end

/-! ## Runs -/

inductive AliasRun : AliasProgress → List Token → AliasProgress → Prop
  | done (progress : AliasProgress) : AliasRun progress [] progress
  | move {found : Token} {used : List Token} {progress next final : AliasProgress}
      (first : AliasMove found progress next) (rest : AliasRun next used final) :
      AliasRun progress (found :: used) final

theorem AliasRun.append {middle final : AliasProgress} {used more : List Token}
    (one : AliasRun progress used middle) (two : AliasRun middle more final) :
    AliasRun progress (used ++ more) final := by
  induction one with
  | done => exact two
  | move first rest induction => exact .move first (induction two)

theorem AliasRun.unique {final final' : AliasProgress} {used used' rest rest' : List Token}
    {next next' : Token} {fault fault' : Option Fault} (run : AliasRun progress used final)
    (stop : AliasStop next final fault) (run' : AliasRun progress used' final')
    (stop' : AliasStop next' final' fault')
    (same : used ++ next :: rest = used' ++ next' :: rest') :
    used = used' ∧ next = next' ∧ final = final' ∧ fault = fault' := by
  induction run generalizing used' with
  | done progress =>
      cases run' with
      | done =>
          obtain ⟨rfl, -⟩ := List.cons.inj same
          exact ⟨rfl, rfl, rfl, stop.fault_eq stop'⟩
      | move first =>
          obtain ⟨rfl, -⟩ := List.cons.inj same
          exact absurd stop first.not_stop
  | move first more induction =>
      cases run' with
      | done =>
          obtain ⟨rfl, -⟩ := List.cons.inj same
          exact absurd stop' first.not_stop
      | move first' more' =>
          obtain ⟨rfl, sameRest⟩ := List.cons.inj same
          obtain rfl := first.next_eq first'
          obtain ⟨rfl, nextEq, finalEq, faultEq⟩ := induction stop more' sameRest
          exact ⟨rfl, nextEq, finalEq, faultEq⟩

/-! ## The parser runs over the tokens -/

theorem aliasStep_shortens {text : List Char} (progress : AliasProgress) :
    Shortens text (aliasStep progress) := by
  intro state next after inText ok
  rcases move_or_stop state.cursor.current progress with ⟨next, move⟩ | ⟨fault, stop⟩
  · rw [aliasStep_of_move move] at ok
    cases ok
    have ahead := State.ahead_pos inText (Token.isEnd_of_isSolid move.isSolid)
    refine ⟨inText.advance, ?_⟩
    rw [State.advanced_ahead]
    omega
  · rw [aliasStep_of_stop stop] at ok
    cases fault <;> cases ok

def runOutcome (state : State) (count : Nat) (final : AliasProgress) :
    Option Fault → EStateM.Result Fault State AliasProgress
  | none => .ok final (state.further count)
  | some fault => .error fault (state.further count)

theorem runs_of_iterates {text : List Char} {outcome : EStateM.Result Fault State AliasProgress}
    (iterates : Iterates aliasStep progress state outcome) (inText : state.cursor.Over text) :
    ∃ used final fault, state.cursor.remaining =
        used ++ (state.cursor.further used.length).remaining ∧
      AliasRun progress used final ∧
      AliasStop (state.cursor.further used.length).current final fault ∧
      outcome = runOutcome state used.length final fault := by
  induction iterates with
  | @stop progress state after last =>
      rcases move_or_stop state.cursor.current progress with ⟨next, move⟩ | ⟨fault, stop⟩
      · rw [aliasStep_of_move move] at last
        cases last
      · rw [aliasStep_of_stop stop] at last
        cases fault <;> cases last
        exact ⟨[], progress, none, rfl, .done _, stop, rfl⟩
  | @fail progress state after fault last =>
      rcases move_or_stop state.cursor.current progress with ⟨next, move⟩ | ⟨fault, stop⟩
      · rw [aliasStep_of_move move] at last
        cases last
      · rw [aliasStep_of_stop stop] at last
        cases fault <;> cases last
        exact ⟨[], progress, some _, rfl, .done _, stop, rfl⟩
  | @round progress next state between outcome first rest induction =>
      rcases move_or_stop state.cursor.current progress with ⟨next, move⟩ | ⟨fault, stop⟩
      · rw [aliasStep_of_move move] at first
        cases first
        obtain ⟨used, final, fault, remainingEq, run, stop, outcomeEq⟩ := induction inText.advance
        refine ⟨state.cursor.current :: used, final, fault, ?_, .move move run, stop, ?_⟩
        · rw [inText.remaining_eq (Token.isEnd_of_isSolid move.isSolid)]
          exact congrArg _ remainingEq
        · rw [outcomeEq]
          cases fault <;> rfl
      · rw [aliasStep_of_stop stop] at first
        cases fault <;> cases first

def verdict (final : AliasProgress) : Option Fault → Except Cause AliasPath
  | none => if final.enclosing.isEmpty then .ok ⟨final.segments⟩ else .error .unbalancedAliasPath
  | some fault => .error fault.cause

theorem AliasStop.origin {next : Token} {final : AliasProgress} {fault : Fault}
    (stop : AliasStop next final (some fault)) : fault.position = next.span.origin := by
  cases stop <;> rfl

/-- The parser goes as far as the tokens carry a path on. -/
theorem aliasPath_runs {text : List Char} (inText : state.cursor.Over text) :
    ∃ used next rest final fault, state.cursor.remaining = used ++ next :: rest ∧
      AliasRun ⟨[], [], true⟩ used final ∧ AliasStop next final fault ∧
      aliasPath state = AliasPath.outcome state used next (verdict final fault) := by
  obtain ⟨used, final, fault, remainingEq, run, stop, outcomeEq⟩ :=
    runs_of_iterates (iterate_iterates aliasStep_shortens inText) inText
  refine ⟨used, _, _, final, fault, remainingEq, run, stop, ?_⟩
  change EStateM.bind (iterate aliasStep ⟨[], [], true⟩) _ state = _
  unfold EStateM.bind
  rw [outcomeEq]
  cases fault with
  | some fault => simp only [runOutcome, verdict, AliasPath.outcome, ← stop.origin]
  | none =>
      simp only [runOutcome, verdict]
      split <;> rfl

/-! ## Runs and the grammar -/

/-- The tokens up to the innermost bracket that is open, with the paths before the
open brackets. -/
inductive Enclosed : List (List AliasSegment) → List Token → Prop
  | nil : Enclosed [] []
  | cons {enclosing : List (List AliasSegment)} {parent : List AliasSegment}
      {before level : List Token} {opening : Token} (outer : Enclosed enclosing before)
      (written : AliasPath.Written ⟨parent⟩ level) (opens : opening.isPunctuation '[' = true) :
      Enclosed (parent :: enclosing) (before ++ level ++ [opening])

/-- The tokens with which a path in the making was written. -/
inductive AliasProgress.Reached : AliasProgress → List Token → Prop
  | begun {enclosing : List (List AliasSegment)} {before : List Token}
      (outer : Enclosed enclosing before) : AliasProgress.Reached ⟨enclosing, [], true⟩ before
  | dotted {enclosing : List (List AliasSegment)} {segments : List AliasSegment}
      {before level : List Token} {dot : Token} (outer : Enclosed enclosing before)
      (written : AliasPath.Written ⟨segments⟩ level) (isDot : dot.isPunctuation '.' = true) :
      AliasProgress.Reached ⟨enclosing, segments, true⟩ (before ++ level ++ [dot])
  | complete {enclosing : List (List AliasSegment)} {segments : List AliasSegment}
      {before level : List Token} (outer : Enclosed enclosing before)
      (written : AliasPath.Written ⟨segments⟩ level) :
      AliasProgress.Reached ⟨enclosing, segments, false⟩ (before ++ level)

theorem AliasMove.reached {found : Token} {used : List Token}
    (move : AliasMove found progress next) (reached : progress.Reached used) :
    next.Reached (used ++ [found]) := by
  cases move with
  | name names =>
      have written := AliasSegment.Written.name names
      cases reached with
      | begun outer => exact .complete outer (.single written)
      | dotted outer level isDot =>
          have longer := AliasProgress.Reached.complete outer (level.dotted isDot written)
          simpa using longer
  | dot isDot =>
      cases reached with
      | complete outer level => exact .dotted outer level isDot
  | opening opens =>
      cases reached with
      | complete outer level => exact .begun (.cons outer level opens)
  | closing closes =>
      cases reached with
      | complete outer level =>
          cases outer with
          | cons outer around opens =>
              have longer := AliasProgress.Reached.complete outer
                (around.subscripted opens level closes)
              simpa using longer

theorem AliasRun.reached {used before : List Token} {final : AliasProgress}
    (run : AliasRun progress used final) (reached : progress.Reached before) :
    final.Reached (before ++ used) := by
  induction run generalizing before with
  | done progress =>
      rw [List.append_nil]
      exact reached
  | move first rest induction =>
      have behind := induction (first.reached reached)
      rwa [List.append_assoc] at behind

theorem Enclosed.unclosed {enclosing : List (List AliasSegment)} {path : AliasPath}
    {before level : List Token} (enclosed : Enclosed enclosing before)
    (written : path.Written level) : AliasPath.Unclosed enclosing.length (before ++ level) := by
  induction enclosed generalizing path level with
  | nil => exact .path written
  | cons outer around opens induction =>
      have deeper := AliasPath.Unclosed.within (induction around) opens written
      simpa using deeper

theorem Enclosed.awaitsSegment {enclosing : List (List AliasSegment)} {before : List Token}
    (enclosed : Enclosed enclosing before) : AliasPath.AwaitsSegment before := by
  cases enclosed with
  | nil => exact .inl rfl
  | cons outer around opens => exact .inr ⟨_, _, _, rfl, outer.unclosed around, .inr opens⟩

theorem AliasStop.verdict {next : Token} {used : List Token} {final : AliasProgress}
    {fault : Option Fault} (stop : AliasStop next final fault) (reached : final.Reached used) :
    AliasPath.Verdict used next (verdict final fault) := by
  cases stop with
  | unnamed unnamed =>
      refine .unnamed ?_ unnamed
      cases reached with
      | begun outer => exact outer.awaitsSegment
      | dotted outer level isDot =>
          exact .inr ⟨_, _, _, rfl, outer.unclosed level, .inl isDot⟩
  | unopened closes =>
      cases reached with
      | complete outer level => exact .unopened (outer.unclosed level) closes
  | ended ends =>
      cases reached with
      | complete outer level =>
          cases outer with
          | nil => exact .path level ends
          | cons outer around opens =>
              exact .unclosed ((Enclosed.cons outer around opens).unclosed level) ends

theorem aliasPath_written : Yields (fun path => ∃ used, path.Written used) aliasPath := by
  constructor
  intro state path after ok
  obtain ⟨final, between, iterated, ok⟩ := bind_eq_ok.mp ok
  obtain ⟨before, ⟨used, reached⟩, last⟩ := iterate_invariant
    (motive := fun progress _ => ∃ used, progress.Reached used)
    (fun {progress state next _} ⟨used, reached⟩ stepped => by
      rcases move_or_stop state.cursor.current progress with ⟨moved, move⟩ | ⟨fault, stop⟩
      · rw [aliasStep_of_move move] at stepped
        cases stepped
        exact ⟨_, move.reached reached⟩
      · rw [aliasStep_of_stop stop] at stepped
        cases fault <;> cases stepped)
    iterated ⟨[], .begun .nil⟩
  rcases move_or_stop before.cursor.current final with ⟨moved, move⟩ | ⟨fault, stop⟩
  · rw [aliasStep_of_move move] at last
    cases last
  · cases stop with
    | ended ends =>
        cases reached with
        | complete outer level =>
            cases outer with
            | nil =>
                cases ok
                exact ⟨_, level⟩
            | cons outer around opens => cases ok
    | unnamed unnamed => 
        rw [aliasStep_of_stop (.unnamed unnamed)] at last
        cases last
    | unopened closes =>
        rw [aliasStep_of_stop (.unopened closes)] at last
        cases last

theorem addSubscript_append (segments : List AliasSegment) (name : String)
    (subscripts : List AliasPath) (path : AliasPath) :
    addSubscript (segments ++ [⟨name, subscripts⟩]) path =
      segments ++ [⟨name, subscripts ++ [path]⟩] := by
  induction segments with
  | nil => rfl
  | cons segment more induction =>
      cases more with
      | nil => rfl
      | cons next more => exact congrArg (segment :: ·) induction

mutual

theorem run_path {path : AliasPath} {used : List Token} (written : path.Written used)
    (enclosing : List (List AliasSegment)) :
    AliasRun ⟨enclosing, [], true⟩ used ⟨enclosing, path.segments, false⟩ := by
  match written with
  | .intro head tail => exact (run_segment head enclosing []).append (run_dotted tail enclosing _)

theorem run_dotted {more : List AliasSegment} {used : List Token}
    (dotted : AliasSegment.Dotted more used) (enclosing : List (List AliasSegment))
    (segments : List AliasSegment) :
    AliasRun ⟨enclosing, segments, false⟩ used ⟨enclosing, segments ++ more, false⟩ := by
  match dotted with
  | .nil =>
      rw [List.append_nil]
      exact .done _
  | @AliasSegment.Dotted.cons _ segment _ _ _ isDot head tail =>
      have behind := run_dotted tail enclosing (segments ++ [segment])
      rw [List.append_assoc] at behind
      exact .move (.dot isDot) ((run_segment head enclosing segments).append behind)

theorem run_segment {segment : AliasSegment} {used : List Token} (written : segment.Written used)
    (enclosing : List (List AliasSegment)) (segments : List AliasSegment) :
    AliasRun ⟨enclosing, segments, true⟩ used ⟨enclosing, segments ++ [segment], false⟩ := by
  match written with
  | .intro names tail => exact .move (.name names) (run_bracketed tail enclosing segments _ [])

theorem run_bracketed {more : List AliasPath} {used : List Token}
    (bracketed : AliasPath.Bracketed more used) (enclosing : List (List AliasSegment))
    (segments : List AliasSegment) (name : String) (subscripts : List AliasPath) :
    AliasRun ⟨enclosing, segments ++ [⟨name, subscripts⟩], false⟩ used
      ⟨enclosing, segments ++ [⟨name, subscripts ++ more⟩], false⟩ := by
  match bracketed with
  | .nil =>
      rw [List.append_nil]
      exact .done _
  | @AliasPath.Bracketed.cons _ _ ⟨path⟩ _ _ _ opens head closes tail =>
      have behind := run_bracketed tail enclosing segments name (subscripts ++ [⟨path⟩])
      rw [List.append_assoc, ← addSubscript_append] at behind
      exact .move (.opening opens)
        ((run_path head (_ :: enclosing)).append (.move (.closing closes) behind))

end

theorem run_unclosed {depth : Nat} {used : List Token} (unclosed : AliasPath.Unclosed depth used) :
    ∃ enclosing segments, enclosing.length = depth ∧
      AliasRun ⟨[], [], true⟩ used ⟨enclosing, segments, false⟩ := by
  induction unclosed with
  | path written => exact ⟨[], _, rfl, run_path written []⟩
  | within outer opens written induction =>
      obtain ⟨enclosing, segments, depthEq, run⟩ := induction
      exact ⟨segments :: enclosing, _, congrArg _ depthEq,
        run.append (.move (.opening opens) (run_path written _))⟩

theorem run_awaiting {used : List Token} (awaits : AliasPath.AwaitsSegment used) :
    ∃ enclosing segments, AliasRun ⟨[], [], true⟩ used ⟨enclosing, segments, true⟩ := by
  rcases awaits with rfl | ⟨depth, before, mark, rfl, unclosed, isDot | opens⟩
  · exact ⟨[], [], .done _⟩
  · obtain ⟨enclosing, segments, -, run⟩ := run_unclosed unclosed
    exact ⟨enclosing, segments, run.append (.move (.dot isDot) (.done _))⟩
  · obtain ⟨enclosing, segments, -, run⟩ := run_unclosed unclosed
    exact ⟨_, _, run.append (.move (.opening opens) (.done _))⟩

/-- Whatever the grammar says becomes of a path is what a run comes to. -/
theorem run_of_verdict {used : List Token} {next : Token} {result : Except Cause AliasPath}
    (judged : AliasPath.Verdict used next result) :
    ∃ final fault, AliasRun ⟨[], [], true⟩ used final ∧ AliasStop next final fault ∧
      result = verdict final fault := by
  cases judged with
  | @path path written ends =>
      obtain ⟨segments⟩ := path
      exact ⟨_, none, run_path written [], .ended ends, rfl⟩
  | unopened complete closes =>
      obtain ⟨enclosing, segments, depthEq, run⟩ := run_unclosed complete
      obtain rfl := List.length_eq_zero_iff.mp depthEq
      exact ⟨_, _, run, .unopened closes, rfl⟩
  | unclosed complete ends =>
      obtain ⟨enclosing, segments, depthEq, run⟩ := run_unclosed complete
      obtain ⟨parent, rest, rfl⟩ := List.exists_cons_of_length_eq_add_one depthEq
      exact ⟨_, none, run, .ended ends, rfl⟩
  | unnamed awaits unnamed =>
      obtain ⟨enclosing, segments, run⟩ := run_awaiting awaits
      exact ⟨_, _, run, .unnamed unnamed, rfl⟩

/-- Reading a path comes to one outcome, the one that the grammar gives for the
tokens up to where it stops. -/
theorem aliasPath_eq_outcome {text : List Char} (inText : state.cursor.Over text)
    {outcome : EStateM.Result Fault State AliasPath} :
    aliasPath state = outcome ↔ ∃ used next rest result,
      state.cursor.remaining = used ++ next :: rest ∧ AliasPath.Verdict used next result ∧
        outcome = AliasPath.outcome state used next result := by
  obtain ⟨used, next, rest, final, fault, remainingEq, run, stop, outcomeEq⟩ :=
    aliasPath_runs inText
  constructor
  · rintro rfl
    have reached := run.reached (.begun .nil)
    exact ⟨used, next, rest, _, remainingEq, stop.verdict reached, outcomeEq⟩
  · rintro ⟨used', next', rest', result, remainingEq', judged, rfl⟩
    obtain ⟨final', fault', run', stop', rfl⟩ := run_of_verdict judged
    obtain ⟨rfl, rfl, rfl, rfl⟩ := run.unique stop run' stop' (remainingEq.symm.trans remainingEq')
    exact outcomeEq

theorem mismatch_ne_unbalanced {found : Token} {what : Option String} :
    mismatch found what ≠ .unbalancedAliasPath := by
  unfold mismatch
  split <;> simp

section

variable {text : List Char} {path : AliasPath} {position : Position}

theorem aliasPath_eq_ok (inText : state.cursor.Over text) :
    aliasPath state = .ok path after ↔
      ∃ used next rest, state.cursor.remaining = used ++ next :: rest ∧ path.Written used ∧
        next.continuesPath = false ∧ after = state.further used.length := by
  rw [aliasPath_eq_outcome inText]
  constructor
  · rintro ⟨used, next, rest, result, remainingEq, judged, outcomeEq⟩
    cases judged with
    | path written ends =>
        cases outcomeEq
        exact ⟨used, next, rest, remainingEq, written, ends, rfl⟩
    | _ => cases outcomeEq
  · rintro ⟨used, next, rest, remainingEq, written, ends, rfl⟩
    exact ⟨used, next, rest, _, remainingEq, .path written ends, rfl⟩

theorem aliasPath_eq_unbalanced (inText : state.cursor.Over text) :
    aliasPath state = .error ⟨.unbalancedAliasPath, position⟩ after ↔
      ∃ used next rest, state.cursor.remaining = used ++ next :: rest ∧
        ((AliasPath.Unclosed 0 used ∧ next.isPunctuation ']' = true) ∨
          ∃ depth, AliasPath.Unclosed (depth + 1) used ∧ next.continuesPath = false) ∧
        position = next.span.origin ∧ after = state.further used.length := by
  rw [aliasPath_eq_outcome inText]
  constructor
  · rintro ⟨used, next, rest, result, remainingEq, judged, outcomeEq⟩
    cases judged with
    | path => cases outcomeEq
    | unopened complete closes =>
        cases outcomeEq
        exact ⟨used, next, rest, remainingEq, .inl ⟨complete, closes⟩, rfl, rfl⟩
    | unclosed complete ends =>
        cases outcomeEq
        exact ⟨used, next, rest, remainingEq, .inr ⟨_, complete, ends⟩, rfl, rfl⟩
    | unnamed =>
        simp only [AliasPath.outcome, EStateM.Result.error.injEq, Fault.mk.injEq] at outcomeEq
        exact absurd outcomeEq.1.1.symm mismatch_ne_unbalanced
  · rintro ⟨used, next, rest, remainingEq, ⟨complete, closes⟩ | ⟨depth, complete, ends⟩, rfl, rfl⟩
    · exact ⟨used, next, rest, _, remainingEq, .unopened complete closes, rfl⟩
    · exact ⟨used, next, rest, _, remainingEq, .unclosed complete ends, rfl⟩

theorem aliasPath_eq_mismatch (inText : state.cursor.Over text) {cause : Cause}
    (balanced : cause ≠ .unbalancedAliasPath) :
    aliasPath state = .error ⟨cause, position⟩ after ↔
      ∃ used next rest, state.cursor.remaining = used ++ next :: rest ∧
        AliasPath.AwaitsSegment used ∧ (∀ name, ¬ next.Names name) ∧
        cause = mismatch next (some "name") ∧
        position = next.span.origin ∧ after = state.further used.length := by
  rw [aliasPath_eq_outcome inText]
  constructor
  · rintro ⟨used, next, rest, result, remainingEq, judged, outcomeEq⟩
    cases judged with
    | path => cases outcomeEq
    | unopened =>
        cases outcomeEq
        exact absurd rfl balanced
    | unclosed =>
        cases outcomeEq
        exact absurd rfl balanced
    | unnamed awaits unnamed =>
        cases outcomeEq
        exact ⟨used, next, rest, remainingEq, awaits, unnamed, rfl, rfl, rfl⟩
  · rintro ⟨used, next, rest, remainingEq, awaits, unnamed, rfl, rfl, rfl⟩
    exact ⟨used, next, rest, _, remainingEq, .unnamed awaits unnamed, rfl⟩

end

end Grammar

/-- An alias path is read in the same way as its grammar describes it. Reading
succeeds where the tokens that remain begin with those of a path and then none
follows that would carry it on; these tokens are consumed, and the path reads as
they are written in the text. It fails for want of a partner bracket where, after
complete segments, a bracket is closed that was not opened or an open one is left,
and for want of a name wherever a segment must come next and none does. -/
theorem alias_paths_follow_grammar {text : List Char} {state : State}
    (inText : state.cursor.Over text) :
    (∀ path after, Grammar.aliasPath state = .ok path after ↔
      ∃ used next rest, state.cursor.remaining = used ++ next :: rest ∧ path.Written used ∧
        next.continuesPath = false ∧ after = state.further used.length) ∧
    (∀ (path : AliasPath) used rest, state.cursor.remaining = used ++ rest → path.Written used →
      path.text = String.ofList (used.flatMap fun token => token.span.text text)) ∧
    (∀ position after, Grammar.aliasPath state = .error ⟨.unbalancedAliasPath, position⟩ after ↔
      ∃ used next rest, state.cursor.remaining = used ++ next :: rest ∧
        ((AliasPath.Unclosed 0 used ∧ next.isPunctuation ']' = true) ∨
          ∃ depth, AliasPath.Unclosed (depth + 1) used ∧ next.continuesPath = false) ∧
        position = next.span.origin ∧ after = state.further used.length) ∧
    (∀ cause position after, cause ≠ .unbalancedAliasPath →
      (Grammar.aliasPath state = .error ⟨cause, position⟩ after ↔
        ∃ used next rest, state.cursor.remaining = used ++ next :: rest ∧
          AliasPath.AwaitsSegment used ∧ (∀ name, ¬ next.Names name) ∧
          cause = mismatch next (some "name") ∧
          position = next.span.origin ∧ after = state.further used.length)) := by
  refine ⟨fun _ _ => Grammar.aliasPath_eq_ok inText, fun path used rest remainingEq written => ?_,
    fun _ _ => Grammar.aliasPath_eq_unbalanced inText,
    fun _ _ _ balanced => Grammar.aliasPath_eq_mismatch inText balanced⟩
  have among := inText.mem_tokens remainingEq written.isSolid
  exact written.text_eq_slices among

theorem alias_path_with_brackets_is_read :
    let state := State.ofText "a[b.c][d].e;".toList
    state.cursor.Over "a[b.c][d].e;".toList ∧
      ∃ path after used next rest, Grammar.aliasPath state = .ok path after ∧
        state.cursor.remaining = used ++ next :: rest ∧ path.Written used ∧
        next.continuesPath = false ∧ path.text = "a[b.c][d].e" := by
  refine ⟨Cursor.over_ofText _, ?_⟩
  have read : (match Grammar.aliasPath (State.ofText "a[b.c][d].e;".toList) with
      | .ok path _ => path.text
      | .error _ _ => "") = "a[b.c][d].e" := by decide +kernel
  split at read
  case h_1 path after ok =>
    have inText : (State.ofText "a[b.c][d].e;".toList).cursor.Over "a[b.c][d].e;".toList :=
      Cursor.over_ofText _
    obtain ⟨used, next, rest, remainingEq, written, ends, -⟩ :=
      ((alias_paths_follow_grammar inText).1 path after).mp ok
    exact ⟨path, after, used, next, rest, ok, remainingEq, written, ends, read⟩
  case h_2 => exact absurd read (by decide)

/-- Where a segment must come next, a bracket that is closed without having been
opened is a missing name. -/
theorem closed_bracket_in_place_of_segment :
    (State.ofText [']']).cursor.current.isPunctuation ']' = true ∧
      Grammar.aliasPath (State.ofText [']']) =
        .error ⟨.unexpectedToken "punc ]" (some "name"), .start⟩ (State.ofText [']']) :=
  ⟨rfl, rfl⟩

end Qml
