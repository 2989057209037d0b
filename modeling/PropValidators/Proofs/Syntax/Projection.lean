import Mathlib.Data.Option.Basic
import PropValidators.Proofs.Syntax.Canonical

/-!
# Writing undoes reading

Reading a value and writing the tree again is a projection: it settles every value that can be
read in one form, and leaves that form as it is.  Canonical values have it already, but for the
order of members.
-/

namespace PropValidators

theorem ReorderedMembers.keys_eq {members others : List (String × Json)}
    (each : ReorderedMembers members others) : Assoc.keys members = Assoc.keys others := by
  induction members generalizing others with
  | nil =>
      cases each with
      | nil => rfl
  | cons member members ih =>
      cases each with
      | cons key head rest => exact congrArg (key :: ·) (ih rest)

theorem ReorderedMembers.lookup {members others : List (String × Json)}
    (each : ReorderedMembers members others) (key : String) :
    Option.Rel Reordered (Assoc.get? members key) (Assoc.get? others key) := by
  induction members generalizing others with
  | nil =>
      cases each with
      | nil => exact .none
  | cons member members ih =>
      cases each with
      | cons first head rest =>
          by_cases eq : first = key
          · subst eq
            rw [Assoc.get?_cons_self, Assoc.get?_cons_self]
            exact .some head
          · rw [Assoc.get?_cons_of_ne eq, Assoc.get?_cons_of_ne eq]
            exact ih rest

/-- Objects that are the same up to order have the same keys. -/
theorem Reordered.keys_perm {members others : List (String × Json)}
    (reordered : Reordered (.object members) (.object others)) :
    (Assoc.keys members).Perm (Assoc.keys others) := by
  cases reordered with
  | same => exact .refl _
  | object order each => exact each.keys_eq ▸ order.map Prod.fst

/-- Under every key they hold values that are the same up to order, or both hold none. -/
theorem Reordered.lookup {members others : List (String × Json)}
    (nodup : (Assoc.keys members).Nodup)
    (reordered : Reordered (.object members) (.object others)) (key : String) :
    Option.Rel Reordered (Assoc.get? members key) (Assoc.get? others key) := by
  cases reordered with
  | same =>
      cases Assoc.get? members key with
      | none => exact .none
      | some json => exact .some (.same json)
  | object order each =>
      rw [Assoc.get?_eq_of_perm order nodup]
      exact each.lookup key

theorem ReorderedItems.refl (items : List Json) : ReorderedItems items items := by
  induction items with
  | nil => exact .nil
  | cons item items ih => exact .cons (.same item) ih

theorem Reordered.exists_items {items : List Json} {other : Json}
    (reordered : Reordered (.array items) other) :
    ∃ others, other = .array others ∧ ReorderedItems items others := by
  cases reordered with
  | same => exact ⟨items, rfl, .refl items⟩
  | array each => exact ⟨_, rfl, each⟩

theorem Reordered.exists_members {members : List (String × Json)} {other : Json}
    (reordered : Reordered (.object members) other) : ∃ others, other = .object others := by
  cases reordered with
  | same => exact ⟨members, rfl⟩
  | object order each => exact ⟨_, rfl⟩

mutual

/-- No number in a value is one that is not a number. -/
def Json.NanFree : Json → Prop
  | .number (.float (.nan _)) => False
  | .array items => NanFreeItems items
  | .object members => NanFreeMembers members
  | _ => True
termination_by structural json => json

/-- No number in the items of an array is one that is not a number. -/
def NanFreeItems : List Json → Prop
  | [] => True
  | item :: items => item.NanFree ∧ NanFreeItems items
termination_by structural items => items

/-- No number in the members of an object is one that is not a number. -/
def NanFreeMembers : List (String × Json) → Prop
  | [] => True
  | (_, value) :: members => value.NanFree ∧ NanFreeMembers members
termination_by structural members => members

end

@[simp]
theorem Number.equals_self {n : Number} (nanFree : (Json.number n).NanFree) :
    n.equals n = true := by
  cases n with
  | int value => exact beq_self_eq_true value
  | float x =>
      cases x with
      | nan origin => exact nanFree.elim
      | infinite negative => exact beq_self_eq_true negative
      | finite negative significand exponent => simp [Number.equals, Binary64.equals]

mutual

/-- Values that are the same up to the order of members are equal. -/
theorem Reordered.equals : (json : Json) → json.Distinct → json.NanFree → ∀ {other : Json},
    Reordered json other → json.equals other = true
  | .null, _, _, _, reordered => by
      cases reordered
      rfl
  | .bool b, _, _, _, reordered => by
      cases reordered
      cases b <;> rfl
  | .number n, _, nanFree, _, reordered => by
      cases reordered
      exact Number.equals_self nanFree
  | .string s, _, _, _, reordered => by
      cases reordered
      exact beq_self_eq_true s
  | .array items, distinct, nanFree, _, reordered => by
      obtain ⟨others, rfl, each⟩ := reordered.exists_items
      exact equalItems_of_reordered items distinct nanFree each
  | .object members, distinct, nanFree, _, reordered => by
      obtain ⟨others, rfl⟩ := reordered.exists_members
      have length : members.length = others.length := by
        simpa [Assoc.keys] using reordered.keys_perm.length_eq
      rw [Json.equals, length, beq_self_eq_true, Bool.true_and]
      refine equalMembers_of_reordered members distinct.2 nanFree fun member mem => ?_
      have found := reordered.lookup distinct.1 member.1
      rw [Assoc.get?_of_mem distinct.1 mem] at found
      cases found' : Assoc.get? others member.1 with
      | none =>
          rw [found'] at found
          cases found
      | some other =>
          rw [found'] at found
          cases found with
          | some held => exact ⟨other, rfl, held⟩
termination_by structural json => json

private theorem equalItems_of_reordered : (items : List Json) → DistinctItems items →
    NanFreeItems items → ∀ {others : List Json}, ReorderedItems items others →
      Json.equalItems items others = true
  | [], _, _, _, each => by
      cases each
      rfl
  | item :: items, distinct, nanFree, _, each => by
      cases each with
      | cons head rest =>
          rw [Json.equalItems, Bool.and_eq_true]
          exact ⟨Reordered.equals item distinct.1 nanFree.1 head,
            equalItems_of_reordered items distinct.2 nanFree.2 rest⟩
termination_by structural items => items

private theorem equalMembers_of_reordered : (members : List (String × Json)) →
    DistinctMembers members → NanFreeMembers members → ∀ {others : List (String × Json)},
      (∀ member ∈ members, ∃ other, Assoc.get? others member.1 = some other ∧
        Reordered member.2 other) → Json.equalMembers members others = true
  | [], _, _, _, _ => rfl
  | (key, value) :: members, distinct, nanFree, others, each => by
      rw [List.forall_mem_cons] at each
      obtain ⟨⟨other, found, held⟩, rest⟩ := each
      have heldUnder : Json.get? (.object others) key = some other := found
      rw [Json.equalMembers, heldUnder, Bool.and_eq_true]
      exact ⟨Reordered.equals value distinct.1 nanFree.1 held,
        equalMembers_of_reordered members distinct.2 nanFree.2 rest⟩
termination_by structural members => members

end

namespace Ast

/-- What is written for a tree that was read is read as that tree again, under whatever number,
so writing it once more changes nothing.  A canonical value is written as it was read: with the
same keys in every object at every depth, be it a node of a kind, a node that is not modelled
or no node at all, and with the same values under them. -/
theorem toJson_of_readDocument {number : Nat} {x : Json} {root : Node} (distinct : x.Distinct)
    (read : readDocument number x = .ok root) :
    (∀ numberAgain, readDocument numberAgain root.toJson = .ok root) ∧
      (Canonical (some .node) x →
        Reordered x root.toJson ∧ (x.NanFree → x.equals root.toJson = true)) := by
  refine ⟨fun numberAgain => ?_, fun canonical => ?_⟩
  · exact Node.readNode_toJson (sound_of_readNode distinct read) [numberAgain]
  · have reordered : Reordered x root.toJson := reordered_of_readNode distinct canonical read
    exact ⟨reordered, fun nanFree => Reordered.equals x distinct nanFree reordered⟩

/-- A module with members in an order of their own: an interface, a statement that is not
modelled with a node in it, comments in lists, and places with objects that are no nodes. -/
def strewnModule : Json :=
  .object [
    ("loc", .object [("start", .object [("line", .number (.int 1)), ("type", .null)])]),
    ("body", .array [
      .object [("declare", .bool true),
        ("body", .object [("body", .array [
            .object [("optional", .bool true), ("type", .string "TSPropertySignature"),
              ("key", .object [("value", .number (.int 7)), ("type", .string "NumericLiteral")]),
              ("typeAnnotation", .object [("type", .string "TSTypeAnnotation"),
                ("typeAnnotation", .object [("type", .string "TSStringKeyword")])])]]),
          ("type", .string "TSInterfaceBody")]),
        ("id", .object [("name", .string "Props"), ("type", .string "Identifier")]),
        ("type", .string "TSInterfaceDeclaration")],
      .object [("type", .string "ForStatement"),
        ("update", .object [("name", .string "i"), ("type", .string "Identifier")])]]),
    ("type", .string "Program"),
    ("comments", .array [.array [.null, .object [("plain", .bool true)]],
      .object [("value", .string "x"), ("type", .string "CommentLine")]])]

/-- It is written as it was read, and read again under another number. -/
theorem toJson_of_readDocument_strewnModule :
    strewnModule.Distinct ∧ Canonical (some .node) strewnModule ∧ strewnModule.NanFree ∧
      ∃ root, readDocument 0 strewnModule = .ok root ∧
        readDocument 1 root.toJson = .ok root ∧ Reordered strewnModule root.toJson ∧
        strewnModule.equals root.toJson = true := by
  have distinct : strewnModule.Distinct := by
    simp [strewnModule]
  have canonical : Canonical (some .node) strewnModule := by decide
  have nanFree : strewnModule.NanFree := by
    simp [strewnModule, Json.NanFree, NanFreeItems, NanFreeMembers]
  obtain ⟨root, read⟩ : ∃ root, readDocument 0 strewnModule = .ok root := ⟨_, rfl⟩
  obtain ⟨again, written⟩ := toJson_of_readDocument distinct read
  obtain ⟨reordered, equal⟩ := written canonical
  exact ⟨distinct, canonical, nanFree, root, read, again 1, reordered, equal nanFree⟩

end Ast

end PropValidators
