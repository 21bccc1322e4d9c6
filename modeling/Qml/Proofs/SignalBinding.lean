import Qml.Proofs.CommonEnd.Binding
import Qml.Proofs.CommonEnd.Words
import Qml.Proofs.JoinedScripts
import Qml.Proofs.LineBreaks

/-! # Bindings to `signal`

A member that binds a value to `signal` is read by a production of its own. It reads the
same as a binding to any other name, unless the value begins with `function` or with a
block of which the first key is a string: these are values only behind other names. -/

namespace Qml

open Qml.Parser

/-- An element with one member, which binds a value to a name. -/
def bindingText (name value : String) : String :=
  "Item \x7b " ++ name ++ ": " ++ value ++ " \x7d"

def valueTokens (value : String) : List Token :=
  (tokens (Text.normalize (bindingText "signal" value)).toList).drop 4

/-! ## The text in normal form -/

def beforeColon (name : String) : List Char := "Item \x7b ".toList ++ name.toList

theorem beforeColon_eq (name : String) :
    beforeColon name = 'I' :: 't' :: 'e' :: 'm' :: ' ' :: '{' :: ' ' :: name.toList :=
  rfl

def behindColon (value : String) : List Char :=
  ' ' :: Text.unifyLineBreaks (value.toList ++ " \x7d".toList)

def fromColon (value : String) : List Char := ':' :: behindColon value

theorem Text.unifyLineBreaks_append {text : List Char} (plain : text.all isPlain = true)
    (rest : List Char) : unifyLineBreaks (text ++ rest) = text ++ unifyLineBreaks rest := by
  induction text with
  | nil => rfl
  | cons c text induction =>
      simp only [List.all_cons, isPlain, Bool.and_eq_true, Bool.not_eq_true'] at plain
      obtain ⟨⟨notForeign, -⟩, later⟩ := plain
      have notReturn : c ≠ '\r' := by
        rintro rfl
        cases notForeign
      rw [List.cons_append, unifyLineBreaks_cons (fun isReturn => absurd isReturn notReturn),
        notForeign, induction later]
      rfl

theorem Lexer.takeToEnd_of_next {lexer later : Lexer} {token : Token} {bound : Nat}
    (next : lexer.next = (token, later)) (notEnd : token.isEnd = false) :
    lexer.takeToEnd (bound + 1) = token :: later.takeToEnd bound := by
  simp [takeToEnd, next, notEnd]

section

variable {name : String} (small : name.toList.all Char.isLower = true)

include small

theorem normalize_bindingText (value : String) :
    (Text.normalize (bindingText name value)).toList = beforeColon name ++ fromColon value := by
  have plain : (beforeColon name ++ [':', ' ']).all Text.isPlain = true := by
    simp only [beforeColon_eq, List.cons_append, List.all_cons, List.all_append,
      plain_of_small small]
    rfl
  have text : (bindingText name value).toList =
      beforeColon name ++ (": ".toList ++ (value.toList ++ " \x7d".toList)) := by
    unfold bindingText beforeColon
    simp only [String.toList_append, List.append_assoc]
  have colon : beforeColon name ++ (": ".toList ++ (value.toList ++ " \x7d".toList)) =
      (beforeColon name ++ [':', ' ']) ++ (value.toList ++ " \x7d".toList) :=
    (List.append_assoc _ [':', ' '] _).symm
  have marked (rest : List Char) :
      Text.dropByteOrderMark (beforeColon name ++ rest) = beforeColon name ++ rest := by
    have notMark : 'I' ≠ Text.byteOrderMark := by decide
    rw [beforeColon_eq]
    simp only [List.cons_append, Text.dropByteOrderMark, if_neg notMark]
  rw [Text.normalize, String.toList_ofList, text, marked, colon,
    Text.unifyLineBreaks_append plain, List.append_assoc]
  rfl

/-! ## Its first tokens -/

theorem next_before_colon (inhabited : name ≠ "") (isName : TokenKind.ofWord name = .name name)
    (value : String) (position : Position) :
    Lexer.next ⟨name.toList ++ fromColon value, position, true⟩ =
      (⟨.name name, ⟨position, position.offset + name.length⟩, false, name⟩,
        ⟨fromColon value, position.after name.toList, false⟩) := by
  let lexer : Lexer := ⟨name.toList ++ fromColon value, position, true⟩
  have noGap : Gap.ofText lexer.rest = .empty := Lexer.gap_of_small small inhabited _
  have stays : lexer.afterGap = lexer := by
    unfold Lexer.afterGap
    rw [noGap]
    rfl
  have found : lexer.found = ⟨.name name, name.length⟩ := by
    unfold Lexer.found
    rw [stays, ← isName]
    exact Lexer.lexeme_of_small small inhabited rfl true
  have closed : (Gap.ofText lexer.rest).closed = true := by rw [noGap]; rfl
  have inside : lexer.found.kind ≠ .endOfInput := by rw [found]; nofun
  have next := Lexer.next_of_inside closed inside
  rw [found, stays, noGap] at next
  have taken : lexer.rest.take name.length = name.toList := List.take_left
  have left : lexer.rest.drop name.length = fromColon value := List.drop_left
  rw [next]
  simp only [Lexer.skip, taken, left, String.ofList_toList, after_of_small small]
  rfl

def tokensBehindColon (value : String) : List Token :=
  Lexer.takeToEnd ((behindColon value).length + 11) ⟨behindColon value, ⟨1, 15, 14⟩, true⟩

theorem next_behind_brace (isName : IsName name) (length : name.length = 6) (value : String) :
    Lexer.next ⟨' ' :: (name.toList ++ fromColon value), ⟨1, 7, 6⟩, true⟩ =
      (⟨.name name, ⟨⟨1, 8, 7⟩, 13⟩, false, name⟩, ⟨fromColon value, ⟨1, 14, 13⟩, false⟩) := by
  have inhabited : name ≠ "" := by
    rintro rfl
    cases length
  have nameNext := next_before_colon small inhabited
    (Lexer.ofWord_of_isName small inhabited isName) value ⟨1, 8, 7⟩
  rw [after_of_small small, length] at nameNext
  exact (Lexer.next_space rfl).trans nameNext

omit small in
theorem length_bindingText (length : name.length = 6) (value : String) :
    (beforeColon name ++ fromColon value).length = (behindColon value).length + 14 := by
  have letters : name.toList.length = 6 := by rw [String.length_toList, length]
  rw [beforeColon_eq]
  simp only [fromColon, List.length_append, List.length_cons, letters]
  omega

/-- The tokens up to the colon are known, and those behind do not depend on the name. -/
theorem tokens_bindingText (isName : IsName name) (length : name.length = 6) (value : String) :
    tokens (beforeColon name ++ fromColon value) =
      ⟨.name "Item", ⟨.start, 4⟩, false, "Item"⟩ ::
        ⟨.punctuation '{', ⟨⟨1, 6, 5⟩, 6⟩, false, "\x7b"⟩ ::
          ⟨.name name, ⟨⟨1, 8, 7⟩, 13⟩, false, name⟩ ::
            ⟨.punctuation ':', ⟨⟨1, 14, 13⟩, 14⟩, false, ":"⟩ :: tokensBehindColon value := by
  have itemNext (rest : List Char) : Lexer.next
      ⟨'I' :: 't' :: 'e' :: 'm' :: ' ' :: rest, .start, true⟩ =
        (⟨.name "Item", ⟨.start, 4⟩, false, "Item"⟩, ⟨' ' :: rest, ⟨1, 5, 4⟩, false⟩) := rfl
  have braceNext (rest : List Char) : Lexer.next ⟨' ' :: '{' :: rest, ⟨1, 5, 4⟩, false⟩ =
      (⟨.punctuation '{', ⟨⟨1, 6, 5⟩, 6⟩, false, "\x7b"⟩, ⟨rest, ⟨1, 7, 6⟩, true⟩) := rfl
  have nameNext := next_behind_brace small isName length value
  have colonNext : Lexer.next ⟨fromColon value, ⟨1, 14, 13⟩, false⟩ =
      (⟨.punctuation ':', ⟨⟨1, 14, 13⟩, 14⟩, false, ":"⟩,
        ⟨behindColon value, ⟨1, 15, 14⟩, true⟩) := rfl
  rw [tokens, length_bindingText length, beforeColon_eq]
  -- The literal text would be evaluated by a rewrite, so the equations are chained.
  have fromColonOn := (Lexer.takeToEnd_of_next colonNext rfl : Lexer.takeToEnd
    ((behindColon value).length + 11 + 1) _ = _)
  have fromName := Lexer.takeToEnd_of_next nameNext rfl |>.trans (congrArg _ fromColonOn)
  have fromBrace := Lexer.takeToEnd_of_next (braceNext _) rfl |>.trans (congrArg _ fromName)
  exact (Lexer.takeToEnd_of_next (itemNext _) rfl).trans (congrArg _ fromBrace)

theorem byteLength_beforeColon (length : name.length = 6) :
    Text.byteLength (beforeColon name) = 13 := by
  have place : Position.start.after (beforeColon name) = Position.after ⟨1, 8, 7⟩ name.toList :=
    Position.after_append .start ['I', 't', 'e', 'm', ' ', '{', ' '] name.toList
  have offset := Position.offset_after .start (beforeColon name)
  rw [place, after_of_small small, length] at offset
  simpa [Position.start] using offset.symm

end

/-! ## The states at which both parses begin -/

theorem tokensBehindColon_tiled (value : String) :
    Tiled ⟨1, 15, 14⟩ (behindColon value) (tokensBehindColon value) :=
  Lexer.takeToEnd_tiled _ ⟨behindColon value, ⟨1, 15, 14⟩, true⟩

theorem exists_tokensBehindColon (value : String) :
    ∃ first more, tokensBehindColon value = first :: more := by
  have enough : (behindColon value).length < (behindColon value).length + 11 := by omega
  obtain ⟨before, last, ends, -⟩ :=
    Lexer.takeToEnd_ends _ ⟨behindColon value, ⟨1, 15, 14⟩, true⟩ enough
  exact List.exists_cons_of_ne_nil (by simp [tokensBehindColon, ends])

def signalAndOther (options : Options) (value : String) {name : String}
    (small : name.toList.all Char.isLower = true) (length : name.length = 6) : CommonEnd where
  options := options
  first := beforeColon "signal"
  second := beforeColon name
  rest := fromColon value
  length_eq :=
    (byteLength_beforeColon (by decide) rfl).trans (byteLength_beforeColon small length).symm

section

variable {name : String} (small : name.toList.all Char.isLower = true) (isName : IsName name)
  (length : name.length = 6)

include small isName length

theorem ofText_bindingText (value : String) :
    State.ofText (beforeColon name ++ fromColon value) =
      ⟨⟨⟨.name "Item", ⟨.start, 4⟩, false, "Item"⟩,
        ⟨.punctuation '{', ⟨⟨1, 6, 5⟩, 6⟩, false, "\x7b"⟩ ::
          ⟨.name name, ⟨⟨1, 8, 7⟩, 13⟩, false, name⟩ ::
            ⟨.punctuation ':', ⟨⟨1, 14, 13⟩, 14⟩, false, ":"⟩ :: tokensBehindColon value, 0⟩,
        .outermost, false, [], []⟩ := by
  rw [State.ofText, Cursor.ofText, tokens_bindingText small isName length]
  rfl

end

theorem valueTokens_eq (value : String) : valueTokens value = tokensBehindColon value := by
  have isName : IsName "signal" := by decide +kernel
  rw [valueTokens, normalize_bindingText (by decide), tokens_bindingText (by decide) isName rfl]
  rfl

theorem twins_behindColon (options : Options) (value : String) {name : String}
    (small : name.toList.all Char.isLower = true) (length : name.length = 6) {first : Token}
    {more : List Token} (tokensEq : tokensBehindColon value = first :: more) :
    (signalAndOther options value small length).Twins
      ⟨⟨first, more, 14⟩, .outermost, false, [], []⟩
      ⟨⟨first, more, 14⟩, .outermost, false, [], []⟩ := by
  have tiled := tokensBehindColon_tiled value
  rw [tokensEq] at tiled
  have before : Text.byteLength (signalAndOther options value small length).first = 13 :=
    byteLength_beforeColon (by decide) rfl
  have whole : Text.byteLength ((signalAndOther options value small length).first ++
      (signalAndOther options value small length).rest) =
        14 + Text.byteLength (behindColon value) := by
    have colon : ':'.utf8Size = 1 := rfl
    rw [Text.byteLength_append, before, signalAndOther, fromColon, Text.byteLength_cons, colon,
      ← Nat.add_assoc]
  refine CommonEnd.twins_of_cursor rfl (before.trans_le (Nat.le_succ 13)) ?_ ?_ (.refl _) rfl rfl
  · intro token member
    have start := tiled.offset_le_start member
    have stop := tiled.start_le_stop member
    rw [before]
    change 14 ≤ token.span.start at start
    omega
  · intro token member
    rw [whole]
    exact tiled.le_byteLength member

theorem atElement_bindingText (options : Options) (value : String) {name : String}
    (small : name.toList.all Char.isLower = true) (length : name.length = 6)
    (isName : IsName name) (plain : opensValueForm (valueTokens value) = false) :
    (signalAndOther options value small length).AtElement name
      (.ofText (beforeColon "signal" ++ fromColon value))
      (.ofText (beforeColon name ++ fromColon value)) := by
  have isSignal : IsName "signal" := by decide +kernel
  obtain ⟨first, more, tokensEq⟩ := exists_tokensBehindColon value
  have twins := twins_behindColon options value small length tokensEq
  rw [valueTokens_eq, tokensEq] at plain
  rw [ofText_bindingText small isName length, ofText_bindingText (by decide) isSignal rfl, tokensEq]
  refine ⟨rfl, rfl, rfl, rfl, rfl, rfl, ?atName⟩
  exact ⟨rfl, rfl, rfl, rfl, rfl, plain, rfl, twins⟩

/-! ## Outcomes -/

/-- Both parses are refused for the same reason at the same place, or they make the same
tree up to the path of the first binding. -/
inductive BoundAlike (path : QualifiedName) : Except Error Tree → Except Error Tree → Prop
  | accepted {tree : Tree} : BoundAlike path (.ok tree) (.ok (tree.rebind path))
  | refused {error error' : Error} (causes : error.cause = error'.cause)
      (positions : error.position = error'.position) :
      BoundAlike path (.error error) (.error error')

/-- A value is bound to `signal` as to any other name of six letters, unless it begins
with `function` or with a block of which the first key is a string. -/
theorem signal_binds_like_names (options : Options) (value : String) {name : String}
    (length : name.length = 6) (small : name.toList.all Char.isLower = true)
    (isName : IsName name) (other : name ≠ "signal")
    (plain : opensValueForm (valueTokens value) = false) :
    BoundAlike ⟨[name]⟩ (parse options (bindingText "signal" value)).outcome
      (parse options (bindingText name value)).outcome := by
  have isPlain : CommonEnd.Plain name :=
    ⟨other, isElementWord_of_small small, isHandlerWord_of_small small⟩
  have matching := CommonEnd.tree_match isPlain
    (atElement_bindingText options value small length isName plain)
  simp only [parse, parseNormalized, normalize_bindingText small,
    normalize_bindingText (by decide : "signal".toList.all Char.isLower = true)]
  change CommonEnd.Match _ _
    (options.tree (beforeColon "signal" ++ fromColon value)
      (.ofText (beforeColon "signal" ++ fromColon value)))
    (options.tree (beforeColon name ++ fromColon value)
      (.ofText (beforeColon name ++ fromColon value))) at matching
  generalize options.tree (beforeColon "signal" ++ fromColon value) _ = outcome at matching
  generalize options.tree (beforeColon name ++ fromColon value) _ = outcome' at matching
  cases matching with
  | ok same twins =>
      subst same
      exact .accepted
  | error => exact .refused rfl rfl

theorem signal_binds_like_names_number :
    ("signaz".length = 6 ∧ "signaz".toList.all Char.isLower = true ∧ IsName "signaz" ∧
      "signaz" ≠ "signal" ∧ opensValueForm (valueTokens "1") = false) ∧
      BoundAlike ⟨["signaz"]⟩ (parse {} (bindingText "signal" "1")).outcome
        (parse {} (bindingText "signaz" "1")).outcome := by
  have isName : IsName "signaz" := by decide +kernel
  have plain : opensValueForm (valueTokens "1") = false := by decide +kernel
  have small : "signaz".toList.all Char.isLower = true := by decide
  exact ⟨⟨rfl, small, isName, by decide, plain⟩,
    signal_binds_like_names {} "1" rfl small isName (by decide) plain⟩

/-- An anonymous function is a value, but no statement. -/
theorem signal_binds_no_function :
    ¬ ∀ options value name, name.length = 6 → name.toList.all Char.isLower = true →
      IsName name → name ∉ ["signal", "import"] → isHandlerWord name = false →
      BoundAlike ⟨[name]⟩ (parse options (bindingText "signal" value)).outcome
        (parse options (bindingText name value)).outcome := by
  intro alike
  have isName : IsName "signaz" := by decide +kernel
  have bound := alike {} "function() \x7b \x7d" "signaz" rfl (by decide) isName (by decide)
    (by decide)
  have refused : (parse {} (bindingText "signal" "function() \x7b \x7d")).outcome.isOk = false := by
    decide +kernel
  have accepted : (parse {} (bindingText "signaz" "function() \x7b \x7d")).outcome.isOk = true := by
    decide +kernel
  generalize (parse {} (bindingText "signal" _)).outcome = outcome at bound refused
  generalize (parse {} (bindingText "signaz" _)).outcome = outcome' at bound accepted
  cases bound with
  | accepted => cases refused
  | refused => cases accepted

end Qml
