import Qml.Proofs.Beginnings.Member
import Qml.Proofs.Outline.Document

/-! # Spans of members

The span of a member begins with the first token of the member, except in a block with
string keys or inside one: there it may begin with the comma before that token. -/

namespace Qml

open Qml.Parser

/-- String keys are in force in a node of a tree: the node or one around it has a member
that begins with a string. -/
def Tree.HasStringKeys (text : List Char) (tree : Tree) (node : Node) : Prop :=
  ∃ block outer inner, tree.Contains outer block ∧ block.Contains inner node ∧
    ∃ member ∈ block.members, member.HasStringKey text

theorem Tree.members_begin {text : List Char} {tree : Tree}
    (begun : ∀ root ∈ tree.roots, root.Begun text false) {places : List Place} {node : Node}
    (inside : tree.Contains places node) :
    ∀ member ∈ node.members, member.BeginsInPlace text ∨
      member.BeginsAtComma text ∧ tree.HasStringKeys text node := by
  obtain ⟨root, isRoot, within⟩ := inside
  obtain ⟨keyed, nodeBegun, why⟩ := (begun root isRoot).of_contains within
  obtain ⟨keys, begins, -⟩ := nodeBegun
  intro member among
  refine (begins member among).imp_right fun ⟨inForce, atComma⟩ => ⟨atComma, ?_⟩
  rcases keys inForce with around | own
  · obtain ⟨block, outer, inner, inRoot, inBlock, keyed⟩ := (why around).resolve_left nofun
    exact ⟨block, outer, inner, ⟨root, isRoot, inRoot⟩, inBlock, keyed⟩
  · exact ⟨node, places, [], ⟨root, isRoot, within⟩, .here, own⟩

/-- The span of a member begins with the first token of the member: its key, the first
name of its path, or the word that introduces it. Only where string keys are in force
may it begin with the comma before that token. The root of a document is the member that
stands in no block. -/
theorem members_begin_in_place {options : Options} {source : String} {tree : Tree}
    (ok : (parse options source).outcome = .ok tree) :
    (∀ document, tree = .document document →
      (Member.element document.root).BeginsInPlace (Text.normalize source).toList) ∧
    ∀ places node, tree.Contains places node → ∀ member ∈ node.members,
      member.BeginsInPlace (Text.normalize source).toList ∨
        member.BeginsAtComma (Text.normalize source).toList ∧
          tree.HasStringKeys (Text.normalize source).toList node := by
  generalize textEq : (Text.normalize source).toList = text
  let grammar := options.grammar text
  have begins : grammar.deeper.Begins text := Deeper.within_begins text _ options.limit
  have context : grammar.deeper.KeepsScope := Deeper.within_keepsScope _ options.limit
  have walks : grammar.deeper.Follows State.Walks := Deeper.within_obeys _ options.limit
  obtain ⟨after, ⟨document, rfl, documentOk⟩ | ⟨statements, rfl, scriptOk⟩⟩ :=
    parseNormalized_eq_ok ok
  · rw [textEq] at documentOk
    obtain ⟨begun, start⟩ := (Grammar.document_begun begins).of_ok (.ofText text) documentOk
    refine ⟨?_, fun places node inside => Tree.members_begin ?_ inside⟩
    · rintro _ ⟨⟩
      exact start.resolve_right nofun
    · intro root isRoot
      cases List.mem_singleton.mp isRoot
      have isPart : ⟨none, .element document.root⟩ ∈
          (Node.member (.element document.root)).parts := List.mem_cons_self
      exact begun.part rfl isPart
  · rw [textEq] at scriptOk
    have begun := (Grammar.script_begun begins).of_ok (.ofText text) scriptOk
    refine ⟨nofun, fun places node inside => Tree.members_begin ?_ inside⟩
    exact List.forall_mem_map.mpr begun

def Member.isAtComma (text : List Char) (member : Member) : Bool :=
  (tokens text).all fun token =>
    token.span.origin != member.span.origin || token.isPunctuation ','

theorem Member.not_beginsInPlace {text : List Char} {member : Member}
    (atComma : member.isAtComma text = true) : ¬ member.BeginsInPlace text := by
  rintro ⟨token, among, sameOrigin, begins⟩
  have isComma : token.isPunctuation ',' = true := by
    simpa [sameOrigin] using List.all_eq_true.mp atComma token among
  rw [(of_decide_eq_true isComma : token.kind = .punctuation ',')] at begins
  cases member <;> simp [BeginsWith, QualifiedName.BeginsWith] at begins

def twoStringKeys : String := "A \x7b b: \x7b \"x\": 1, \"y\": 2 \x7d \x7d"

theorem exists_member_at_comma :
    ∃ tree places node member, (parse {} twoStringKeys).outcome = .ok tree ∧
      tree.Contains places node ∧ member ∈ node.members ∧
      ¬ member.BeginsInPlace (Text.normalize twoStringKeys).toList := by
  have found : (parse {} twoStringKeys).outcome.toOption.any
      (Tree.has 2 fun _ node => node.members.any fun member =>
        member.isAtComma (Text.normalize twoStringKeys).toList) = true := by decide +kernel
  obtain ⟨tree, places, node, accepted, inside, passes⟩ := Tree.exists_of_has found
  obtain ⟨member, among, atComma⟩ := List.any_eq_true.mp passes
  exact ⟨tree, places, node, member, accepted, inside, among, Member.not_beginsInPlace atComma⟩

theorem members_begin_in_place_string_keys :
    ∃ tree, (parse {} twoStringKeys).outcome = .ok tree ∧
      (∀ document, tree = .document document →
        (Member.element document.root).BeginsInPlace (Text.normalize twoStringKeys).toList) ∧
      ∀ places node, tree.Contains places node → ∀ member ∈ node.members,
        member.BeginsInPlace (Text.normalize twoStringKeys).toList ∨
          member.BeginsAtComma (Text.normalize twoStringKeys).toList ∧
            tree.HasStringKeys (Text.normalize twoStringKeys).toList node := by
  obtain ⟨tree, -, -, -, accepted, -⟩ := exists_member_at_comma
  exact ⟨tree, accepted, members_begin_in_place accepted⟩

theorem member_at_comma :
    ¬ ∀ options source tree, (parse options source).outcome = .ok tree →
      ∀ places node, tree.Contains places node → ∀ member ∈ node.members,
        member.BeginsInPlace (Text.normalize source).toList := by
  intro claimed
  obtain ⟨tree, places, node, member, accepted, inside, among, misplaced⟩ := exists_member_at_comma
  exact misplaced (claimed _ _ tree accepted places node inside member among)

end Qml
