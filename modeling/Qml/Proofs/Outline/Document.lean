import Qml.Parse
import Qml.Proofs.Outline.Member

/-! # Outlines of whole texts

At every level of nesting the productions yield what was read, so a whole text
yields the outlines of its outermost nodes. -/

namespace Qml

open Outline Qml.Parser

/-! ## Nesting -/

theorem Grammar.outlined_deeper (grammar : Grammar) [grammar.deeper.KeepsScope]
    (outlined : grammar.deeper.Outlined grammar.toSetting) :
    Deeper.Outlined grammar.toSetting
      { statement := inScope Scope.deeper grammar.anyStatement
        assignment := fun noIn => inScope Scope.deeper (grammar.assignment noIn)
        unary := fun calls => inScope Scope.deeper (grammar.unary calls)
        atom := fun calls => inScope Scope.deeper (grammar.atom calls)
        members := inScope Scope.inBlock grammar.members } := by
  constructor
  · intro state statement after ok
    obtain ⟨inner, innerOk, rfl⟩ := inScope_eq_ok.mp ok
    have ended := grammar.anyStatement_ended outlined innerOk
    exact ended
  · intro noIn state expr after ok
    obtain ⟨inner, innerOk, rfl⟩ := inScope_eq_ok.mp ok
    have parsed := assignment_parsed outlined innerOk
    exact parsed
  · intro calls state expr after ok
    obtain ⟨inner, innerOk, rfl⟩ := inScope_eq_ok.mp ok
    have parsed := unary_parsed outlined innerOk
    exact parsed
  · intro calls state expr after ok
    obtain ⟨inner, innerOk, rfl⟩ := inScope_eq_ok.mp ok
    have parsed := atom_parsed outlined innerOk
    exact parsed
  · intro state members after ok clear
    obtain ⟨inner, innerOk, rfl⟩ := inScope_eq_ok.mp ok
    have parsed := members_parsed outlined innerOk clear
    exact parsed

theorem Deeper.within_outlined (setting : Setting) (room : Nat) :
    (Deeper.within setting room).Outlined setting := by
  induction room with
  | zero =>
      constructor
      · intro state statement after ok
        exact absurd ok refuse_ne_ok
      · intro noIn state expr after ok
        exact absurd ok refuse_ne_ok
      · intro calls state expr after ok
        exact absurd ok refuse_ne_ok
      · intro calls state expr after ok
        exact absurd ok refuse_ne_ok
      · intro state members after ok
        exact absurd ok refuse_ne_ok
  | succ room induction =>
      exact Grammar.outlined_deeper ⟨setting, within setting room⟩ induction

theorem Grammar.within_outlined (setting : Setting) (limit : Nat) :
    (Grammar.within setting limit).deeper.Outlined setting :=
  Deeper.within_outlined setting limit

instance (options : Options) (text : List Char) : (options.grammar text).deeper.KeepsScope :=
  Deeper.within_keepsScope _ options.limit

/-! ## Documents -/

namespace Grammar

variable {state after : State}

theorem importHead_parsed {setting : Setting} {head : String × Bool}
    (ok : importHead state = .ok head after) : AllParsed setting [] state.spot after.spot := by
  simp only [importHead, run_token] at ok
  generalize headEq : importHead? state.cursor.current.kind = found at ok
  cases found with
  | none => exact absurd ok expected_ne_ok
  | some found =>
      cases ok
      refine .token ?_
      generalize kindEq : state.cursor.current.kind = kind at headEq
      cases kind <;> cases headEq <;> exact Token.isSolid_of_kind kindEq (by simp) (by simp)

theorem importVersion_parsed {setting : Setting} {version : Option String}
    (ok : importVersion state = .ok version after) :
    AllParsed setting [] state.spot after.spot := by
  simp only [importVersion, run_token, run_ite] at ok
  split at ok
  case isTrue isNumber =>
      cases ok
      refine .token ?_
      obtain ⟨value, kindEq⟩ := Token.exists_value_of_isNumber isNumber
      exact Token.isSolid_of_kind kindEq (by simp) (by simp)
  case isFalse =>
      cases ok
      exact .refl _

theorem importQualifier_parsed {setting : Setting} {qualifier : Option String}
    (ok : importQualifier state = .ok qualifier after) :
    AllParsed setting [] state.spot after.spot := by
  simp only [importQualifier, run_atName, run_ite] at ok
  split at ok
  case isTrue isAs =>
      simp only [run_advance, bind_eq_ok, expectName_eq_ok] at ok
      obtain ⟨name, _, ⟨isName, rfl⟩, ok⟩ := ok
      cases ok
      apply AllParsed.after_token (Token.isSolid_of_isName isAs)
      exact .token (Token.isSolid_of_name? isName)
  case isFalse =>
      cases ok
      exact .refl _

theorem importItem_parsed {setting : Setting} {found : Option Import}
    (ok : importItem state = .ok found after) :
    (∀ item ∈ found, item.outline.Parsed setting state.spot after.spot) ∧
      AllParsed setting [] state.spot after.spot := by
  simp only [importItem, run_token, run_ite] at ok
  split at ok
  case isTrue isImport =>
      simp only [run_advance, run_spanFrom, bind_eq_ok] at ok
      obtain ⟨⟨head, dotted⟩, first, headOk, more, second, moreOk, version, third, versionOk,
        qualifier, fourth, qualifierOk, _, last, skipOk, ok⟩ := ok
      cases ok
      have solid := Token.isSolid_of_isName isImport
      have tokens : AllParsed setting [] state.spot.advanced after.spot :=
        (importHead_parsed headOk).append ((dottedWords_parsed moreOk).append
          ((importVersion_parsed versionOk).append ((importQualifier_parsed qualifierOk).append
            (skipPunctuation_parsed skipOk))))
      refine ⟨?_, tokens.after_token solid⟩
      rintro item ⟨⟩
      exact Parsed.node_after_token solid tokens
  case isFalse =>
      cases ok
      exact ⟨by simp, .refl _⟩

theorem imports_parsed (setting : Setting) {imports : List Import}
    (ok : collect importItem state = .ok imports after) :
    AllParsed setting (imports.map Import.outline) state.spot after.spot ∧
      AllParsed setting [] state.spot after.spot := by
  constructor
  · rw [List.map_eq_flatMap]
    apply collect_allParsed _ _ ok
    · intro state after stepped
      exact (importItem_parsed stepped).2
    · intro state item after stepped
      exact ((importItem_parsed stepped).1 item rfl).alone
  · have tokens : AllParsed setting (imports.flatMap fun _ => []) state.spot after.spot := by
      apply collect_allParsed _ _ ok
      · intro state after stepped
        exact (importItem_parsed stepped).2
      · intro state item after stepped
        exact (importItem_parsed stepped).2
    rwa [List.flatMap_eq_nil_iff.mpr (by simp)] at tokens

/-- No patch is made before the root of a document. -/
theorem clear_after_imports {setting : Setting} {imports : List Import}
    (fresh : state.patches = []) (ok : collect importItem state = .ok imports after)
    (ready : state.spot.Ready setting.source) : after.spot.Clear := by
  obtain ⟨used, reach⟩ := (imports_parsed setting ok).2 ready
  intro patch member
  rw [reach.2, State.spot_patches, fresh] at member
  cases member

variable {grammar : Grammar}

theorem document_eq_ok {document : Document} (ok : grammar.document state = .ok document after) :
    ∃ between, collect importItem state = .ok document.imports between ∧
      grammar.rootElement between = .ok document.root after ∧
      after.cursor.current.isEnd = true := by
  simp only [Grammar.document, run_atEnd, run_ite, bind_eq_ok] at ok
  obtain ⟨imports, between, importsOk, ok⟩ := ok
  split at ok
  case isTrue => exact absurd ok unexpected_ne_ok
  case isFalse =>
      simp only [run_atEnd, run_ite, bind_eq_ok] at ok
      obtain ⟨root, last, rootOk, ok⟩ := ok
      split at ok
      case isTrue atEnd =>
          cases ok
          exact ⟨between, importsOk, rootOk, atEnd⟩
      case isFalse => exact absurd ok unexpected_ne_ok

variable [grammar.deeper.KeepsScope] (outlined : grammar.deeper.Outlined grammar.toSetting)

include outlined

theorem rootElement_parsed {element : Element} (clear : state.spot.Clear)
    (ok : grammar.rootElement state = .ok element after) :
    element.outline.Parsed grammar.toSetting state.spot after.spot := by
  simp only [rootElement, run_token, bind_eq_ok] at ok
  obtain ⟨found, between, foundOk, ok⟩ := ok
  have passed := member_passed outlined (.inl clear) foundOk
  split at ok
  · cases ok
    exact fun ready => (passed ready).1
  · exact absurd ok fail_ne_ok

theorem document_parsed {document : Document} (fresh : state.patches = [])
    (ok : grammar.document state = .ok document after) :
    AllParsed grammar.toSetting document.outlines state.spot after.spot := by
  obtain ⟨between, importsOk, rootOk, -⟩ := document_eq_ok ok
  intro ready
  have clear := clear_after_imports fresh importsOk ready
  have rootParsed := rootElement_parsed outlined clear rootOk
  exact (imports_parsed _ importsOk).1.append rootParsed.alone ready

end Grammar

/-! ## Entry points -/

theorem ready_ofText (text : List Char) : (State.ofText text).spot.Ready text :=
  ⟨Cursor.on_ofText text, by simp [State.ofText]⟩

theorem exists_of_isOk {ε α : Type} {outcome : Except ε α} (accepted : outcome.isOk = true) :
    ∃ found, outcome = .ok found := by
  cases outcome with
  | error error => cases accepted
  | ok found => exact ⟨found, rfl⟩

theorem exists_of_any {ε α : Type} {outcome : Except ε α} {test : α → Bool}
    (accepted : outcome.toOption.any test = true) :
    ∃ found, outcome = .ok found ∧ test found = true := by
  cases outcome with
  | error error => cases accepted
  | ok found => exact ⟨found, rfl, accepted⟩

theorem parseNormalized_eq_ok {options : Options} {text : List Char} {tree : Tree}
    (ok : (parseNormalized options text).outcome = .ok tree) :
    ∃ after,
      (∃ document, tree = .document document ∧
        (options.grammar text).document (.ofText text) = .ok document after) ∨
      (∃ statements, tree = .script statements ∧
        (options.grammar text).script (.ofText text) = .ok statements after) := by
  unfold parseNormalized at ok
  generalize outcomeEq : options.tree text (.ofText text) = outcome at ok
  cases outcome with
  | error fault after => cases ok
  | ok found after =>
      cases ok
      refine ⟨after, ?_⟩
      unfold Options.tree at outcomeEq
      cases kindEq : options.kind with
      | document =>
          rw [kindEq] at outcomeEq
          obtain ⟨document, last, documentOk, found⟩ := bind_eq_ok.mp outcomeEq
          cases found
          exact .inl ⟨document, rfl, documentOk⟩
      | script =>
          rw [kindEq] at outcomeEq
          obtain ⟨statements, last, statementsOk, found⟩ := bind_eq_ok.mp outcomeEq
          cases found
          exact .inr ⟨statements, rfl, statementsOk⟩

theorem parseNormalized_read {options : Options} {text : List Char} {tree : Tree}
    (ok : (parseNormalized options text).outcome = .ok tree) :
    ∃ last, AllRead (options.grammar text).toSetting tree.outlines (State.ofText text).spot
      last := by
  have outlined := Grammar.within_outlined (options.grammar text).toSetting options.limit
  have ready : (State.ofText text).spot.Ready (options.grammar text).source := ready_ofText text
  obtain ⟨after, ⟨document, rfl, documentOk⟩ | ⟨statements, rfl, statementsOk⟩⟩ :=
    parseNormalized_eq_ok ok
  · exact ⟨after.spot, Grammar.document_parsed outlined rfl documentOk ready⟩
  · exact ⟨after.spot, Grammar.script_parsed outlined statementsOk ready⟩

theorem parseScript_eq_ok {strict : Bool} {source : String} {statements : List Statement} :
    parseScript strict source = .ok statements ↔
      ∃ after, (Grammar.within ⟨source.toList, strict, .script⟩ scriptLimit).script
        (.ofText source.toList) = .ok statements after := by
  change _ ↔ ∃ after, (scriptGrammar strict source.toList).script (.ofText source.toList) = _
  unfold parseScript
  dsimp only
  generalize (scriptGrammar strict source.toList).script (.ofText source.toList) = outcome
  cases outcome with
  | ok found after => simp
  | error fault after => simp

theorem parseScript_read {strict : Bool} {source : String} {statements : List Statement}
    (ok : parseScript strict source = .ok statements) :
    ∃ last, AllRead ⟨source.toList, strict, .script⟩ (Statement.outlineAll statements)
      (State.ofText source.toList).spot last := by
  have outlined := Grammar.within_outlined ⟨source.toList, strict, .script⟩ scriptLimit
  obtain ⟨after, parsed⟩ := parseScript_eq_ok.mp ok
  exact ⟨after.spot, Grammar.script_parsed outlined parsed (ready_ofText _)⟩

end Qml
