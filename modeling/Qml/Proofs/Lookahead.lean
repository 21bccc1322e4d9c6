import Qml.Proofs.Token.Relexing
import Qml.Proofs.Walks

/-! # Looking ahead

The parser's cursor moves over a list of tokens that was made beforehand. A cursor
may as well have its tokens from the lexer, each only when it is asked for; it then
has to keep a token that it was shown ahead of time. Whatever such a cursor is asked
for, and in whichever order, it gives the same answers as the parser's cursor, and
both give the tokens of the text as a lexer does that is never asked to look ahead. -/

namespace Qml

open Qml.Parser

/-! ## The tokens of a lexer -/

namespace Lexer

def further : Nat → Lexer → Lexer
  | 0, lexer => lexer
  | count + 1, lexer => further count lexer.next.2

def tokenAt (lexer : Lexer) (index : Nat) : Token := (lexer.further index).next.1

theorem further_succ (count : Nat) (lexer : Lexer) :
    further (count + 1) lexer = (further count lexer).next.2 := by
  induction count generalizing lexer with
  | zero => rfl
  | succ count induction => exact induction lexer.next.2

theorem take_succ_eq_append (count : Nat) (lexer : Lexer) :
    take (count + 1) lexer = take count lexer ++ [lexer.tokenAt count] := by
  induction count generalizing lexer with
  | zero => rfl
  | succ count induction => exact congrArg (lexer.next.1 :: ·) (induction lexer.next.2)

theorem next_of_nil {lexer : Lexer} (nothing : lexer.rest = []) :
    lexer.next = (⟨.endOfInput, ⟨lexer.position, lexer.position.offset⟩, false, ""⟩, lexer) := by
  obtain ⟨rest, position, regexpAllowed⟩ := lexer
  subst nothing
  rfl

/-- After the end a lexer returns the same end again, which then is on the same
line. -/
theorem next_of_isEnd {lexer : Lexer} (isEnd : lexer.next.1.isEnd = true) :
    lexer.next.2.next = ({ lexer.next.1 with afterLineBreak := false }, lexer.next.2) := by
  obtain ⟨nothing, restEq, text⟩ := rest_eq_nil_of_isEnd isEnd
  have closed : (Gap.ofText lexer.rest).closed = true := by
    cases closed : (Gap.ofText lexer.rest).closed with
    | true => rfl
    | false =>
        rw [next_of_unclosed closed] at isEnd
        cases isEnd
  obtain ⟨tokenEq, -, positionEq⟩ := next_of_closed closed
  have found := found_nil nothing
  have stays : lexer.afterGap.skip 0 = lexer.afterGap := rfl
  rw [next_of_nil restEq, positionEq, tokenEq, found, stays]
  rfl

end Lexer

/-! ## The parser's cursor -/

/-- A cursor with the lexer behind its current token: the tokens ahead are those that
the lexer returns up to the end. -/
inductive Cursor.Fed (lexer : Lexer) (cursor : Cursor) : Prop
  | inside {bound : Nat} (notEnd : cursor.current.isEnd = false)
      (enough : lexer.rest.length < bound) (upcoming : cursor.upcoming = lexer.takeToEnd bound)
  | last (upcoming : cursor.upcoming = [])
      (next : lexer.next = ({ cursor.current with afterLineBreak := false }, lexer))

namespace Cursor

variable {lexer : Lexer} {cursor : Cursor}

theorem fed_of_takeToEnd {bound previousEnd : Nat} {token : Token} {rest : List Token}
    (enough : lexer.rest.length < bound) (tokens : lexer.takeToEnd bound = token :: rest) :
    token = lexer.next.1 ∧ Fed lexer.next.2 ⟨token, rest, previousEnd⟩ := by
  cases bound with
  | zero => exact absurd enough (Nat.not_lt_zero _)
  | succ bound =>
      simp only [Lexer.takeToEnd] at tokens
      split at tokens
      case isTrue isEnd =>
          obtain ⟨rfl, rfl⟩ := List.cons.inj tokens
          exact ⟨rfl, .last rfl (Lexer.next_of_isEnd isEnd)⟩
      case isFalse notEnd =>
          obtain ⟨rfl, rfl⟩ := List.cons.inj tokens
          have notEnd := Bool.eq_false_iff.mpr notEnd
          have shorter := Lexer.next_rest_lt notEnd
          exact ⟨rfl, .inside notEnd (by omega) rfl⟩

theorem fed_ofText (text : List Char) :
    (ofText text).current = (Lexer.ofText text).next.1 ∧
      (ofText text).Fed (Lexer.ofText text).next.2 := by
  obtain ⟨token, rest, tokensEq⟩ := exists_tokens_eq_cons text
  have enough : (Lexer.ofText text).rest.length < text.length + 1 := Nat.lt_succ_self _
  rw [ofText, tokensEq]
  exact fed_of_takeToEnd enough tokensEq

theorem Fed.advance (fed : cursor.Fed lexer) :
    cursor.peek = lexer.next.1 ∧ cursor.advance.Fed lexer.next.2 := by
  rcases fed with ⟨notEnd, enough, upcoming⟩ | ⟨upcoming, next⟩
  case inside bound =>
      obtain ⟨before, ending, tokens, -⟩ := lexer.takeToEnd_ends bound enough
      obtain ⟨token, rest, tokens⟩ : ∃ token rest, lexer.takeToEnd bound = token :: rest :=
        List.exists_cons_of_ne_nil (by simp [tokens])
      rw [tokens] at upcoming
      simp only [Cursor.advance, peek, upcoming, List.tail_cons]
      exact fed_of_takeToEnd enough tokens
  case last =>
      simp only [Cursor.advance, peek, upcoming, List.tail_nil, next]
      exact ⟨trivial, .last rfl next⟩

theorem further_fed (count : Nat) (text : List Char) :
    (further count (ofText text)).current = (Lexer.ofText text).tokenAt count ∧
      (further count (ofText text)).Fed ((Lexer.ofText text).further (count + 1)) := by
  induction count with
  | zero => exact fed_ofText text
  | succ count induction =>
      rw [further_succ, Lexer.further_succ (count + 1)]
      exact induction.2.advance

end Cursor

/-! ## Requests -/

/-- What a cursor is asked for: the token after the current one, which stays ahead, or
the current one, which is consumed. -/
inductive Request where
  | peek
  | next
deriving DecidableEq

namespace Request

def answer : Request → Parser Token
  | peek => Parser.peek
  | next => Parser.advance

def answers (requests : List Request) : Parser (List Token) := requests.mapM answer

def consumed : List Request → List Token → List Token
  | next :: requests, token :: tokens => token :: consumed requests tokens
  | peek :: requests, _ :: tokens => consumed requests tokens
  | _, _ => []

def answersOf (lexer : Lexer) : (count : Nat) → List Request → List Token
  | _, [] => []
  | count, peek :: requests => lexer.tokenAt (count + 1) :: answersOf lexer count requests
  | count, next :: requests => lexer.tokenAt count :: answersOf lexer (count + 1) requests

theorem consumed_answersOf (lexer : Lexer) (count : Nat) (requests : List Request) :
    lexer.take count ++ consumed requests (answersOf lexer count requests) =
      lexer.take (count + requests.count .next) := by
  induction requests generalizing count with
  | nil => exact List.append_nil _
  | cons request requests induction =>
      cases request with
      | peek => exact induction count
      | next =>
          have later := induction (count + 1)
          rw [Lexer.take_succ_eq_append, List.append_assoc] at later
          rw [List.count_cons_self, ← Nat.add_assoc, Nat.add_right_comm, ← later]
          rfl

theorem answers_cons (request : Request) (requests : List Request) :
    answers (request :: requests) = do
      let token ← request.answer
      let tokens ← answers requests
      return token :: tokens :=
  List.mapM_cons

end Request

def Token.lastStop (tokens : List Token) : Nat :=
  tokens.getLast?.elim 0 fun token => token.span.stop

theorem Token.lastStop_take (lexer : Lexer) (count : Nat) :
    lastStop (lexer.take (count + 1)) = (lexer.tokenAt count).span.stop := by
  rw [lastStop, Lexer.take_succ_eq_append, List.getLast?_concat]
  rfl

theorem Cursor.further_previousEnd (count : Nat) (text : List Char) :
    (further count (ofText text)).previousEnd =
      Token.lastStop ((Lexer.ofText text).take count) := by
  cases count with
  | zero => exact previousEnd_ofText text
  | succ count =>
      rw [further_succ, Token.lastStop_take, ← (further_fed count text).1]
      rfl

/-- The parser's answers are those that the tokens determine, and a look ahead leaves
the cursor where it is. -/
theorem Request.answers_further (text : List Char) (count : Nat) (requests : List Request)
    {state : State} (place : state.cursor = .further count (.ofText text)) :
    ∃ after, answers requests state = .ok (answersOf (.ofText text) count requests) after ∧
      after.cursor = .further (count + requests.count .next) (.ofText text) := by
  induction requests generalizing count state with
  | nil => exact ⟨state, rfl, place⟩
  | cons request requests induction =>
      cases request with
      | peek =>
          have ahead : state.cursor.peek = (Lexer.ofText text).tokenAt (count + 1) := by
            rw [place, ← (Cursor.further_fed (count + 1) text).1, Cursor.further_succ]
            rfl
          obtain ⟨after, ok, afterEq⟩ := induction count place
          refine ⟨after, ?_, by simpa using afterEq⟩
          rw [answers_cons, answer, run_peek, ahead]
          exact bind_eq_ok.mpr ⟨_, after, ok, rfl⟩
      | next =>
          have here : state.cursor.current = (Lexer.ofText text).tokenAt count := by
            rw [place, (Cursor.further_fed count text).1]
          have advanced : state.advanced.cursor = .further (count + 1) (.ofText text) := by
            rw [State.advanced_cursor, place, Cursor.further_succ]
          obtain ⟨after, ok, afterEq⟩ := induction (count + 1) advanced
          refine ⟨after, ?_, ?_⟩
          · rw [answers_cons, answer, run_advance, here]
            exact bind_eq_ok.mpr ⟨_, after, ok, rfl⟩
          · rw [afterEq, List.count_cons_self]
            congr 1
            omega

/-! ## Tokens on demand -/

/-- A cursor that has its tokens from the lexer. The token after the current one was
either read ahead, or the lexer still stands before it. -/
structure Lookahead where
  lexer : Lexer
  current : Token
  ahead : Option Token
  previousEnd : Nat

namespace Lookahead

def ofText (text : List Char) : Lookahead :=
  let (token, lexer) := (Lexer.ofText text).next
  ⟨lexer, token, none, 0⟩

def peek (cursor : Lookahead) : Token × Lookahead :=
  match cursor.ahead with
  | some token => (token, cursor)
  | none =>
    let (token, lexer) := cursor.lexer.next
    (token, { cursor with lexer, ahead := some token })

def next (cursor : Lookahead) : Token × Lookahead :=
  match cursor.ahead with
  | some token => (cursor.current, ⟨cursor.lexer, token, none, cursor.current.span.stop⟩)
  | none =>
    let (token, lexer) := cursor.lexer.next
    (cursor.current, ⟨lexer, token, none, cursor.current.span.stop⟩)

def answer (cursor : Lookahead) : Request → Token × Lookahead
  | .peek => cursor.peek
  | .next => cursor.next

def answers (cursor : Lookahead) : List Request → List Token × Lookahead
  | [] => ([], cursor)
  | request :: requests =>
    let (token, between) := cursor.answer request
    let (tokens, after) := between.answers requests
    (token :: tokens, after)

/-- A cursor that has consumed some tokens of a text. A token that it keeps ahead is
the one behind the current one, and the lexer stands behind all tokens that it has
returned. -/
structure At (text : List Char) (count : Nat) (cursor : Lookahead) : Prop where
  current_eq : cursor.current = (Lexer.ofText text).tokenAt count
  previousEnd_eq : cursor.previousEnd = Token.lastStop ((Lexer.ofText text).take count)
  lexer_eq : (cursor.ahead = none ∧ cursor.lexer = (Lexer.ofText text).further (count + 1)) ∨
    (cursor.ahead = some ((Lexer.ofText text).tokenAt (count + 1)) ∧
      cursor.lexer = (Lexer.ofText text).further (count + 2))

variable {text : List Char} {count : Nat} {cursor : Lookahead}

theorem at_ofText (text : List Char) : (ofText text).At text 0 := ⟨rfl, rfl, .inl ⟨rfl, rfl⟩⟩

theorem At.peek (stands : cursor.At text count) :
    cursor.peek.1 = (Lexer.ofText text).tokenAt (count + 1) ∧ cursor.peek.2.At text count := by
  obtain ⟨currentEq, previousEnd, lexerEq⟩ := stands
  rcases lexerEq with ⟨ahead, lexer⟩ | ⟨ahead, lexer⟩
  · simp only [Lookahead.peek, ahead, lexer]
    refine ⟨rfl, currentEq, previousEnd, .inr ⟨rfl, ?_⟩⟩
    exact (Lexer.further_succ (count + 1) _).symm
  · simp only [Lookahead.peek, ahead]
    exact ⟨trivial, currentEq, previousEnd, .inr ⟨ahead, lexer⟩⟩

theorem At.next (stands : cursor.At text count) :
    cursor.next.1 = (Lexer.ofText text).tokenAt count ∧ cursor.next.2.At text (count + 1) := by
  obtain ⟨currentEq, -, lexerEq⟩ := stands
  have previousEnd : cursor.current.span.stop =
      Token.lastStop ((Lexer.ofText text).take (count + 1)) := by
    rw [Token.lastStop_take, currentEq]
  rcases lexerEq with ⟨ahead, lexer⟩ | ⟨ahead, lexer⟩
  · simp only [Lookahead.next, ahead, lexer]
    refine ⟨currentEq, rfl, previousEnd, .inl ⟨rfl, ?_⟩⟩
    exact (Lexer.further_succ (count + 1) _).symm
  · simp only [Lookahead.next, ahead]
    exact ⟨currentEq, rfl, previousEnd, .inl ⟨rfl, lexer⟩⟩

theorem At.answers (stands : cursor.At text count) (requests : List Request) :
    (cursor.answers requests).1 = Request.answersOf (.ofText text) count requests ∧
      (cursor.answers requests).2.At text (count + requests.count .next) := by
  induction requests generalizing count cursor with
  | nil => exact ⟨rfl, stands⟩
  | cons request requests induction =>
      cases request with
      | peek =>
          obtain ⟨token, between⟩ := stands.peek
          obtain ⟨tokens, after⟩ := induction between
          simp only [Lookahead.answers, answer, token, tokens]
          exact ⟨rfl, by simpa using after⟩
      | next =>
          obtain ⟨token, between⟩ := stands.next
          obtain ⟨tokens, after⟩ := induction between
          simp only [Lookahead.answers, answer, token, tokens]
          refine ⟨rfl, ?_⟩
          rw [List.count_cons_self, ← Nat.add_assoc, Nat.add_right_comm]
          exact after

end Lookahead

/-- However a cursor over a text is asked for the next token and for a look ahead, the
tokens that it consumes are those of a lexer of its own over the text, its current token
is the one that follows these, a look ahead shows the one behind that, and it remembers
where the last consumed one ends. All that it is asked for later it answers by the number
of consumed tokens alone, so a look ahead changes nothing. This holds for the parser's
cursor and for one that has its tokens on demand. -/
theorem looking_ahead_is_transparent (text : List Char) (requests later : List Request) :
    let lexer := Lexer.ofText text
    let count := requests.count .next
    let tokens := Request.answersOf lexer 0 requests
    Request.consumed requests tokens = lexer.take count ∧
      (∃ state after, Request.answers requests (.ofText text) = .ok tokens state ∧
        state.cursor.current = lexer.tokenAt count ∧
        state.cursor.peek = lexer.tokenAt (count + 1) ∧
        state.cursor.previousEnd = Token.lastStop (lexer.take count) ∧
        Request.answers later state = .ok (Request.answersOf lexer count later) after) ∧
      ∃ cursor, (Lookahead.ofText text).answers requests = (tokens, cursor) ∧
        cursor.current = lexer.tokenAt count ∧
        cursor.peek.1 = lexer.tokenAt (count + 1) ∧
        cursor.previousEnd = Token.lastStop (lexer.take count) ∧
        (cursor.answers later).1 = Request.answersOf lexer count later := by
  intro lexer count tokens
  have consumed := Request.consumed_answersOf lexer 0 requests
  rw [Nat.zero_add] at consumed
  refine ⟨consumed, ?_, ?_⟩
  · have begins : (State.ofText text).cursor = (Cursor.ofText text).further 0 := rfl
    obtain ⟨state, ok, place⟩ := Request.answers_further text 0 requests begins
    rw [Nat.zero_add] at place
    obtain ⟨after, laterOk, -⟩ := Request.answers_further text count later place
    refine ⟨state, after, ok, ?_, ?_, ?_, laterOk⟩
    · rw [place, (Cursor.further_fed count text).1]
    · rw [place, ← (Cursor.further_fed (count + 1) text).1, Cursor.further_succ]
      rfl
    · rw [place, Cursor.further_previousEnd]
  · obtain ⟨answered, stands⟩ := (Lookahead.at_ofText text).answers requests
    rw [Nat.zero_add] at stands
    exact ⟨_, Prod.ext answered rfl, stands.current_eq, stands.peek.1, stands.previousEnd_eq,
      (stands.answers later).1⟩

/-- A slash behind a name divides, also if it was looked at before the name was
consumed. -/
example : ((Lookahead.ofText "a /b/ c".toList).answers [.peek, .next, .next, .peek]).1.map
    Token.kind = [.operator .divide, .name "a", .operator .divide, .operator .divide] := by
  decide +kernel

end Qml
