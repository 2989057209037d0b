import PropValidators.CallSites
import PropValidators.Proofs.CallSites.InSight
import PropValidators.Proofs.Patching.Fresh
import PropValidators.Proofs.Syntax.Expressions

/-!
# The literals that calls are replaced by

A keys call becomes an array of texts, a schema call an object of descriptions, and either of them
null in production builds.  All of these are plain: they are sound, and where one is read as the
options of a call, a key in it leads to an object.  And they are inert: nothing that the passes over
calls look for is in them.  So are the validators that a component is assigned.
-/

namespace PropValidators

open Ast Node

theorem fresh_nullLiteral : Fresh nullLiteral :=
  fresh_ofDeclared [] (by decide) .nil

mutual

theorem fresh_ofJson : (json : Json) → Fresh (ofJson json)
  | .null => fresh_nullLiteral
  | .bool b => fresh_literal (.truth b)
  | .number x => fresh_literal (.number x)
  | .string s => fresh_literal (.text s)
  | .array items => fresh_array (fresh_ofItems items)
  | .object members => fresh_objectOf (fresh_ofMembers members)
termination_by structural json => json

theorem fresh_ofItems : (items : List Json) → ∀ n ∈ ofItems items, Fresh n
  | [] => fun _ mem => nomatch mem
  | item :: items => List.forall_mem_cons.mpr ⟨fresh_ofJson item, fresh_ofItems items⟩
termination_by structural items => items

theorem fresh_ofMembers : (members : List (String × Json)) → ∀ n ∈ ofMembers members, Fresh n
  | [] => fun _ mem => nomatch mem
  | (name, value) :: members =>
      List.forall_mem_cons.mpr ⟨fresh_property name (fresh_ofJson value), fresh_ofMembers members⟩
termination_by structural members => members

end

/-- A node says nothing to what is done with calls: all its fields are declared, it is neither a
declaration nor an assignment, and it calls no function by its name. -/
structure Ast.Node.Inert (n : Node) : Prop where
  declared : ∀ key, .unknown key ∉ n.fields.map Prod.fst
  undeclaring : isDeclaration n = false
  unassigned : n.kind ≠ .assignmentExpression
  unnamed : ∀ callee, n.calls callee = false

/-- All nodes of a tree are inert. -/
def Ast.Node.InertTree (n : Node) : Prop :=
  ∀ m ∈ n.tree, m.Inert

theorem declared_ofDeclared (type : String) (fields : List (String × Value)) (key : String) :
    .unknown key ∉ (Node.ofDeclared type fields).fields.map Prod.fst := by
  simp [Node.ofDeclared]

theorem inert_ofDeclared {type : String} {fields : List (String × Value)} (kind : Kind)
    (kindEq : Kind.ofType type = kind)
    (apart : kind ∉ [.callExpression, .assignmentExpression, .interfaceDeclaration, .typeAlias,
      .enumDeclaration]) : (Node.ofDeclared type fields).Inert := by
  have isKind : (Node.ofDeclared type fields).kind = kind := kindEq
  simp only [List.mem_cons, List.not_mem_nil, or_false, not_or] at apart
  obtain ⟨notCall, notAssignment, notInterface, notAlias, notEnum⟩ := apart
  constructor
  · exact declared_ofDeclared type fields
  · simp [isDeclaration, isKind, notInterface, notAlias, notEnum]
  · exact isKind ▸ notAssignment
  · simp [Node.calls, isKind, notCall]

/-- A node is inert and has only some trees below it, all of which are inert. -/
theorem inertTree_of_children {n : Node} (nodes : List Node) (inert : n.Inert)
    (treeEq : treeOfFields n.fields = nodes.flatMap Node.tree) (each : ∀ c ∈ nodes, c.InertTree) :
    n.InertTree := by
  intro m mem
  rw [n.tree_eq, treeEq] at mem
  rcases List.mem_cons.mp mem with rfl | below
  · exact inert
  · obtain ⟨c, cMem, inside⟩ := List.mem_flatMap.mp below
    exact each c cMem m inside

/-- An inert node without nodes below it. -/
theorem inertTree_of_leaf {n : Node} (inert : n.Inert) (treeEq : treeOfFields n.fields = []) :
    n.InertTree :=
  inertTree_of_children [] inert treeEq fun _ mem => nomatch mem

@[simp]
theorem treeOfItems_map_node (nodes : List Node) :
    treeOfItems (nodes.map .node) = nodes.flatMap Node.tree := by
  rw [treeOfItems_eq_flatMap, List.flatMap_map]
  rfl

theorem inertTree_array {elements : List Node} (each : ∀ c ∈ elements, c.InertTree) :
    (array elements).InertTree :=
  inertTree_of_children elements (inert_ofDeclared .arrayExpression rfl (by decide))
    (by rw [← treeOfItems_map_node]; exact List.append_nil _) each

theorem inertTree_objectOf {properties : List Node} (each : ∀ c ∈ properties, c.InertTree) :
    (objectOf properties).InertTree :=
  inertTree_of_children properties (inert_ofDeclared .objectExpression rfl (by decide))
    (by rw [← treeOfItems_map_node]; exact List.append_nil _) each

theorem inertTree_nullLiteral : nullLiteral.InertTree :=
  inertTree_of_leaf (inert_ofDeclared .nullLiteral rfl (by decide)) rfl

theorem inertTree_identifier (name : String) : (identifier name).InertTree :=
  inertTree_of_leaf (inert_ofDeclared .identifier rfl (by decide)) rfl

theorem inertTree_literal (value : Literal) : (literal value).InertTree := by
  cases value with
  | text s => exact inertTree_of_leaf (inert_ofDeclared .stringLiteral rfl (by decide)) rfl
  | number x => exact inertTree_of_leaf (inert_ofDeclared .numericLiteral rfl (by decide)) rfl
  | truth b => exact inertTree_of_leaf (inert_ofDeclared .booleanLiteral rfl (by decide)) rfl

theorem inertTree_property (name : String) {value : Node} (inert : value.InertTree) :
    (property name value).InertTree := by
  have key : (propertyKey name).InertTree := by
    rw [propertyKey]
    split
    · exact inertTree_identifier name
    · exact inertTree_literal (.text name)
  refine inertTree_of_children [propertyKey name, value]
    (inert_ofDeclared .objectProperty rfl (by decide)) rfl ?_
  rw [List.forall_mem_cons, List.forall_mem_singleton]
  exact ⟨key, inert⟩

mutual

theorem inertTree_ofJson : (json : Json) → (ofJson json).InertTree
  | .null => inertTree_nullLiteral
  | .bool b => inertTree_literal (.truth b)
  | .number x => inertTree_literal (.number x)
  | .string s => inertTree_literal (.text s)
  | .array items => inertTree_array (inertTree_ofItems items)
  | .object members => inertTree_objectOf (inertTree_ofMembers members)
termination_by structural json => json

private theorem inertTree_ofItems : (items : List Json) → ∀ n ∈ ofItems items, n.InertTree
  | [] => fun _ mem => nomatch mem
  | item :: items => List.forall_mem_cons.mpr ⟨inertTree_ofJson item, inertTree_ofItems items⟩
termination_by structural items => items

private theorem inertTree_ofMembers : (members : List (String × Json)) →
    ∀ n ∈ ofMembers members, n.InertTree
  | [] => fun _ mem => nomatch mem
  | (name, value) :: members =>
      List.forall_mem_cons.mpr
        ⟨inertTree_property name (inertTree_ofJson value), inertTree_ofMembers members⟩
termination_by structural members => members

end

theorem inertTree_member {object : Node} (inert : object.InertTree) (name : String) :
    (member object name).InertTree := by
  refine inertTree_of_children [object, identifier name]
    (inert_ofDeclared .memberExpression rfl (by decide)) rfl ?_
  rw [List.forall_mem_cons, List.forall_mem_singleton]
  exact ⟨inert, inertTree_identifier name⟩

/-- A check is called as a member of the library, and by no name of its own. -/
theorem inertTree_checkCall (library check : String) {argument : Node}
    (inert : argument.InertTree) : (checkCall library check argument).InertTree := by
  have here : (checkCall library check argument).Inert :=
    { declared := declared_ofDeclared _ _
      undeclaring := rfl
      unassigned := fun absurd => nomatch absurd
      unnamed := fun _ => rfl }
  refine inertTree_of_children [member (identifier library) check, argument] here
    (congrArg (_ ++ ·) (List.append_nil _)) ?_
  rw [List.forall_mem_cons, List.forall_mem_singleton]
  exact ⟨inertTree_member (inertTree_identifier library) check, inert⟩

private theorem inertTree_object {entries : List (String × Node)}
    (each : ∀ entry ∈ entries, entry.2.InertTree) : (object entries).InertTree := by
  refine inertTree_objectOf fun p mem => ?_
  obtain ⟨entry, entryMem, rfl⟩ := List.mem_map.mp mem
  exact inertTree_property entry.1 (each entry entryMem)

mutual

theorem Validator.inertTree_toNode (library : String) :
    (validator : Validator) → (validator.toNode library).InertTree
  | .primitive kind => inertTree_member (inertTree_identifier library) kind.checkName
  | .shape entries =>
      inertTree_checkCall library "shape"
        (inertTree_object (Assoc.forall_mem_ofPairs (Entry.inertTree_toPairs library entries)))
  | .arrayOf element => inertTree_checkCall library "arrayOf" (element.inertTree_toNode library)
  | .oneOf values => by
      refine inertTree_checkCall library "oneOf" (inertTree_array fun element mem => ?_)
      obtain ⟨value, -, rfl⟩ := List.mem_map.mp mem
      exact inertTree_literal value
  | .oneOfType members =>
      inertTree_checkCall library "oneOfType"
        (inertTree_array (Validator.inertTree_toNodes library members))
  | .required inner => inertTree_member (inner.inertTree_toNode library) "isRequired"
  | .any => inertTree_member (inertTree_identifier library) "any"
termination_by structural validator => validator

theorem Validator.inertTree_toNodes (library : String) :
    (validators : List Validator) → ∀ n ∈ Validator.toNodes library validators, n.InertTree
  | [] => fun _ mem => nomatch mem
  | validator :: validators =>
      List.forall_mem_cons.mpr
        ⟨validator.inertTree_toNode library, Validator.inertTree_toNodes library validators⟩
termination_by structural validators => validators

theorem Entry.inertTree_toPair (library : String) :
    (entry : Entry) → (entry.toPair library).2.InertTree
  | ⟨_, validator, _⟩ => validator.inertTree_toNode library
termination_by structural entry => entry

theorem Entry.inertTree_toPairs (library : String) :
    (entries : List Entry) → ∀ pair ∈ Entry.toPairs library entries, pair.2.InertTree
  | [] => fun _ mem => nomatch mem
  | entry :: entries =>
      List.forall_mem_cons.mpr
        ⟨entry.inertTree_toPair library, Entry.inertTree_toPairs library entries⟩
termination_by structural entries => entries

end

/-- Entries that are merged into a new object are inert. -/
theorem inertTree_mergeEntries (library : String) (entries : List Entry) :
    (mergeEntries library none entries).InertTree := by
  refine inertTree_objectOf fun p mem => ?_
  obtain ⟨entry, -, rfl⟩ := List.mem_map.mp mem
  exact inertTree_property entry.prop (entry.validator.inertTree_toNode library)

/-- Nothing stands in the way of writing into an inert node. -/
theorem Ast.Node.Inert.writable {n : Node} (inert : n.Inert) : n.Tidy ∧ n.PlainParts := by
  obtain ⟨declared, undeclaring, -, -⟩ := inert
  refine ⟨fun key mem => absurd mem (declared key), fun isInterface => ?_, fun isEnum => ?_⟩
  · simp [isDeclaration, isInterface] at undeclaring
  · simp [isDeclaration, isEnum] at undeclaring

theorem Ast.Node.InertTree.settled {n : Node} (inert : n.InertTree) : n.Settled :=
  fun m mem => (inert m mem).writable

/-- A key of an object literal leads to what is written for the member of that name. -/
theorem exists_of_propertyValue?_ofMembers {members : List (String × Json)} {name : String}
    {node : Node} (found : (objectOf (ofMembers members)).propertyValue? name = some node) :
    ∃ value, (name, value) ∈ members ∧ node = ofJson value := by
  have isObject : (objectOf (ofMembers members)).kind = .objectExpression := rfl
  rw [propertyValue?, if_pos isObject, children_objectOf] at found
  obtain ⟨p, pFound, valueEq⟩ := Option.bind_eq_some_iff.mp found
  have named := List.find?_some pFound
  have mem : ∀ members : List (String × Json), p ∈ ofMembers members →
      ∃ member ∈ members, p = property member.1 (ofJson member.2) := by
    intro members pMem
    induction members with
    | nil => cases pMem
    | cons member members ih =>
        rcases List.mem_cons.mp pMem with rfl | rest
        · exact ⟨member, List.mem_cons_self, rfl⟩
        · obtain ⟨other, otherMem, eq⟩ := ih rest
          exact ⟨other, List.mem_cons_of_mem _ otherMem, eq⟩
  obtain ⟨⟨key, value⟩, memberMem, rfl⟩ := mem members (List.mem_of_find?_eq_some pFound)
  rw [Bool.and_eq_true, beq_iff_eq, beq_iff_eq, propertyName?_property] at named
  rw [child?_property] at valueEq
  obtain rfl := Option.some_inj.mp named.2
  exact ⟨value, memberMem, (Option.some_inj.mp valueEq).symm⟩

theorem propertyValue?_of_kind {n : Node} (kind : Kind) (kindEq : n.kind = kind)
    (notObject : kind ≠ .objectExpression) (name : String) : n.propertyValue? name = none :=
  if_neg (kindEq ▸ notObject)

theorem plain_nullLiteral : nullLiteral.Plain where
  kind := .inr (.inr (.inl rfl))
  sound := fresh_nullLiteral.1
  options name value found := by
    rw [propertyValue?_of_kind .nullLiteral rfl (by decide)] at found
    cases found

theorem plain_keysArray (fields : List Field) : (keysArray fields).Plain where
  kind := .inl rfl
  sound := by
    refine (fresh_array fun element mem => ?_).1
    obtain ⟨f, -, rfl⟩ := List.mem_map.mp mem
    exact fresh_stringLiteral f.name
  options name value found := by
    rw [propertyValue?_of_kind .arrayExpression rfl (by decide)] at found
    cases found

theorem inertTree_keysArray (fields : List Field) : (keysArray fields).InertTree := by
  refine inertTree_array fun element mem => ?_
  obtain ⟨f, -, rfl⟩ := List.mem_map.mp mem
  exact inertTree_literal (.text f.name)

private theorem exists_of_mem_describeFields {fields : List Field} {member : String × Json}
    (mem : member ∈ describeFields fields) : ∃ members, member.2 = .object members := by
  induction fields with
  | nil => cases mem
  | cons field fields ih =>
      obtain ⟨name, shape, optional, default⟩ := field
      rcases List.mem_cons.mp mem with rfl | rest
      · exact ⟨_, rfl⟩
      · exact ih rest

/-- Every field of an object is described by an object. -/
theorem plain_describeProps (fields : List Field) : (ofJson (describeProps fields)).Plain where
  kind := .inr (.inl rfl)
  sound := (fresh_ofJson _).1
  options name value found := by
    obtain ⟨json, mem, rfl⟩ := exists_of_propertyValue?_ofMembers found
    obtain ⟨members, eq⟩ := Assoc.forall_mem_ofPairs
      (fun member mem => exists_of_mem_describeFields mem) _ mem
    rw [show json = .object members from eq]
    rfl

end PropValidators
