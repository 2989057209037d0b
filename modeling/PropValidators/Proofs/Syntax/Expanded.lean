import PropValidators.Ast.Calls
import PropValidators.Proofs.Syntax.Rewriting
import PropValidators.Proofs.Types.FromOutline

/-!
# Trees with calls expanded

In a tree some calls are replaced by plain nodes: by null, by an array, by an object or by an
assignment.  The tree stays sound, and outside of what was replaced each node has the fields that
it had.  Neither a call nor a plain node is a name, so the names that are read off nodes stay the
same.
-/

namespace PropValidators.Ast

namespace Node

/-- What may stand for a call: null, an array, an assignment, or an object every plain key of which
leads to an object. -/
structure Plain (r : Node) : Prop where
  kind : r.kind = .arrayExpression ∨ r.kind = .objectExpression ∨ r.kind = .nullLiteral ∨
    r.kind = .assignmentExpression
  sound : r.Sound
  options : ∀ name value, r.propertyValue? name = some value → value.kind = .objectExpression

/-- In the second tree some calls of the first one are replaced by plain nodes. -/
inductive Expanded : Node → Node → Prop
  | replaced {c r : Node} (isCall : c.kind = .callExpression) (plain : r.Plain) : Expanded c r
  | within {n : Node} {change : Slot → Node → Node}
      (each : ∀ slot c, n.inSlot? slot = some c → Expanded c (change slot c)) :
      Expanded n (n.mapSlots change)

/-- The kinds of calls and of what may stand for them. -/
def muteKinds : List Kind :=
  [.callExpression, .arrayExpression, .objectExpression, .nullLiteral, .assignmentExpression]

/-- A node is a call or may stand for one. -/
def Mute (n : Node) : Prop :=
  n.kind = .callExpression ∨ n.kind = .arrayExpression ∨ n.kind = .objectExpression ∨
    n.kind = .nullLiteral ∨ n.kind = .assignmentExpression

/-- Only calls are replaced in a tree, and by plain nodes only. -/
def Expands (n : Node) (replace : Place → Node → Option Node) : Prop :=
  ∀ place c r, n.at? place = some c → replace place c = some r →
    c.kind = .callExpression ∧ r.Plain

section

variable {n m c : Node} {slot : Slot} {place : Place} {replace : Place → Node → Option Node}

theorem Expands.of_at? (expands : n.Expands replace) (found : n.at? place = some m) :
    m.Expands fun inner => replace (place ++ inner) := by
  intro inner d r at? replaced
  refine expands (place ++ inner) d r ?_ replaced
  rw [at?_append, found]
  exact at?

theorem Expands.of_inSlot? (expands : n.Expands replace) (found : n.inSlot? slot = some c) :
    c.Expands fun inner => replace (slot :: inner) := by
  have here : n.at? [slot] = some c := by
    rw [at?, found]
    rfl
  exact expands.of_at? here

/-- Wherever calls are replaced by plain nodes, the tree is expanded. -/
theorem expanded_rewrite (expands : n.Expands replace) : Expanded n (n.rewrite replace) := by
  induction sizeEq : sizeOf n using Nat.strong_induction_on generalizing n replace with
  | _ size ih =>
      subst sizeEq
      rw [rewrite_eq]
      refine .within fun slot c found => ?_
      rw [rewriteIn]
      cases replaced : replace [slot] c with
      | some r =>
          obtain ⟨isCall, plain⟩ := expands [slot] c r (by rw [at?, found]; rfl) replaced
          exact .replaced isCall plain
      | none => exact ih _ (sizeOf_inSlot? found) (expands.of_inSlot? found) rfl

theorem expanded_rewriteIn (expands : n.Expands replace) (found : n.inSlot? slot = some c) :
    Expanded c (rewriteIn replace slot c) := by
  rw [rewriteIn]
  cases replaced : replace [slot] c with
  | some r =>
      obtain ⟨isCall, plain⟩ := expands [slot] c r (by rw [at?, found]; rfl) replaced
      exact .replaced isCall plain
  | none => exact expanded_rewrite (expands.of_inSlot? found)

end

section

variable {n after : Node}

theorem Plain.mute {r : Node} (plain : r.Plain) : r.Mute :=
  .inr plain.kind

/-- A node that was not replaced has the type that it had. -/
theorem Expanded.type_eq_or (expanded : Expanded n after) :
    after.type = n.type ∨ (n.kind = .callExpression ∧ after.Plain) := by
  cases expanded with
  | replaced isCall plain => exact .inr ⟨isCall, plain⟩
  | within each => exact .inl rfl

/-- No node becomes or stops being of a kind that neither a call nor what stands for it has. -/
theorem Expanded.kind_eq_iff (expanded : Expanded n after) {kind : Kind}
    (apart : kind ∉ muteKinds) :
    after.kind = kind ↔ n.kind = kind := by
  have notMute : ∀ m : Node, m.Mute → m.kind ≠ kind := by
    rintro m mute rfl
    simp only [muteKinds, List.mem_cons, List.not_mem_nil, or_false] at apart
    exact apart mute
  cases expanded with
  | replaced isCall plain =>
      exact iff_of_false (notMute _ plain.mute) (notMute _ (.inl isCall))
  | within each => exact Iff.rfl

/-- A node that is not a call stays, and only nodes below it are replaced. -/
theorem Expanded.within_of_kind (expanded : Expanded n after) (notCall : n.kind ≠ .callExpression) :
    ∃ change : Slot → Node → Node, after = n.mapSlots change ∧
      ∀ slot c, n.inSlot? slot = some c → Expanded c (change slot c) := by
  cases expanded with
  | replaced isCall _ => exact absurd isCall notCall
  | within each => exact ⟨_, rfl, each⟩

/-- Where a call may stand, any other node may stand. -/
theorem fitsNode_of_call {kind : Kind} {name : FieldName}
    (isCall : n.kind = .callExpression)
    (fits : FieldType.FitsNode (kind.typeOfField? name) n.type) (other : String) :
    FieldType.FitsNode (kind.typeOfField? name) other := by
  have noBody : ∀ spec ∈ kind.fields, spec.type ≠ .body .callExpression := by
    cases kind <;> decide
  cases typeEq : kind.typeOfField? name with
  | none => trivial
  | some type =>
      rw [typeEq] at fits
      cases type with
      | body body =>
          have bodyEq : body = .callExpression := by
            rw [← isCall, Node.kind, show n.type = body.tag from fits, Kind.ofType_tag]
          subst bodyEq
          cases name with
          | unknown key => cases typeEq
          | declared key =>
              obtain ⟨spec, found, specType⟩ := Option.map_eq_some_iff.mp typeEq
              exact absurd specType (noBody spec (Kind.mem_of_specOfKey? found))
      | node => trivial
      | optionalNode => trivial
      | name => trivial
      | _ => exact fits.elim

theorem Expanded.sound (expanded : Expanded n after) (sound : n.Sound) : after.Sound := by
  induction expanded with
  | replaced _ plain => exact plain.sound
  | @within n change each ih =>
      refine sound.mapSlots fun slot c found => ⟨ih slot c found (sound.of_inSlot? found), ?_⟩
      intro fits
      rcases (each slot c found).type_eq_or with typeEq | ⟨isCall, -⟩
      · rwa [typeEq]
      · exact fitsNode_of_call isCall fits _

end

private theorem forall₂_filterMap_node? {items : List Value} {change : Nat → Node → Node}
    (each : ∀ i c, items[i]? = some (.node c) → Expanded c (change i c)) :
    List.Forall₂ Expanded (items.filterMap Value.node?)
      ((items.mapIdx fun i item => item.mapNode (change i)).filterMap Value.node?) := by
  induction items generalizing change with
  | nil => exact .nil
  | cons item items ih =>
      have rest := @ih (fun i => change (i + 1)) fun i c itemEq => each (i + 1) c itemEq
      rw [List.mapIdx_cons]
      cases item with
      | node c => exact .cons (each 0 c rfl) rest
      | list others => exact rest
      | data json => exact rest

section Within

variable {n : Node} {change : Slot → Node → Node}
  (each : ∀ slot c, n.inSlot? slot = some c → Expanded c (change slot c))

include each

/-- Whatever is read off a child is read off the child that it becomes, if that makes no
difference for the child alone. -/
theorem bind_child?_mapSlots {β : Type} {read : Node → Option β} {key : String}
    (same : ∀ c, n.child? key = some c → ∀ after, Expanded c after → read after = read c) :
    ((n.mapSlots change).child? key).bind read = (n.child? key).bind read := by
  rw [child?_mapSlots]
  cases held : n.child? key with
  | none => rfl
  | some c => exact same c held _ (each ⟨.declared key, none⟩ c held)

theorem map_child?_mapSlots {β : Type} {read : Node → β} {key : String}
    (same : ∀ c, n.child? key = some c → ∀ after, Expanded c after → read after = read c) :
    ((n.mapSlots change).child? key).map read = (n.child? key).map read := by
  rw [Option.map_eq_bind, Option.map_eq_bind]
  exact bind_child?_mapSlots each fun c held after expanded =>
    congrArg some (same c held after expanded)

/-- The children in a field become one by one what they are expanded to. -/
theorem forall₂_children (key : String) :
    List.Forall₂ Expanded (n.children key) ((n.mapSlots change).children key) := by
  rw [children, children, items, items, get?, get?, field?_mapSlots]
  cases held : n.field? (.declared key) with
  | none => exact .nil
  | some value =>
      have inValue : ∀ index c, value.pick? index = some c →
          Expanded c (change ⟨.declared key, index⟩ c) :=
        fun index c picked => each ⟨.declared key, index⟩ c ((inSlot?_of_field? held).trans picked)
      cases value with
      | list items =>
          refine forall₂_filterMap_node? fun i c itemEq => inValue (some i) c ?_
          rw [Value.pick?, Value.list?, Option.getD_some]
          exact Option.bind_eq_some_iff.mpr ⟨_, itemEq, rfl⟩
      | node m =>
          have empty : ∀ m : Node, (Value.node m).items.filterMap Value.node? = [] :=
            fun m => Value.filterMap_node?_items_of_list?_eq_none rfl
          change List.Forall₂ Expanded ((Value.node m).items.filterMap Value.node?)
            ((Value.node (change _ m)).items.filterMap Value.node?)
          rw [empty, empty]
          exact .nil
      | data json =>
          change List.Forall₂ Expanded ((Value.data json).items.filterMap Value.node?)
            ((Value.data json).items.filterMap Value.node?)
          rw [Value.filterMap_node?_items_of_list?_eq_none rfl]
          exact .nil

end Within

/-- Two fields are alike: both are absent, or hold a node and what it is expanded to, or lists,
or the same data. -/
inductive Alike : Option Value → Option Value → Prop
  | absent : Alike none none
  | node {c after : Node} (expanded : Expanded c after) :
      Alike (some (.node c)) (some (.node after))
  | list {items others : List Value} : Alike (some (.list items)) (some (.list others))
  | data {json : Json} : Alike (some (.data json)) (some (.data json))

section Alike

variable {n : Node} {change : Slot → Node → Node}
  (each : ∀ slot c, n.inSlot? slot = some c → Expanded c (change slot c))

include each

theorem alike_field? (name : FieldName) :
    Alike (n.field? name) ((n.mapSlots change).field? name) := by
  rw [field?_mapSlots]
  cases held : n.field? name with
  | none => exact .absent
  | some value =>
      cases value with
      | node c =>
          refine .node (each ⟨name, none⟩ c ?_)
          rw [inSlot?_of_field? held]
          rfl
      | list items => exact .list
      | data json => exact .data

theorem alike_attribute? (label : String) :
    Alike (n.attribute? label) ((n.mapSlots change).attribute? label) := by
  have alike := alike_field? each (n.kind.nameOf label)
  rw [attribute?, attribute?, kind_mapSlots]
  generalize n.field? (n.kind.nameOf label) = held at alike ⊢
  generalize (n.mapSlots change).field? (n.kind.nameOf label) = heldAfter at alike ⊢
  cases alike with
  | absent => exact .absent
  | node expanded => exact .node expanded
  | list => exact .list
  | @data json =>
      cases json with
      | null => exact .absent
      | _ => exact .data

private theorem alike_typeArgumentsValue? :
    Alike n.typeArgumentsValue? (n.mapSlots change).typeArgumentsValue? := by
  have orElse : ∀ first second,
      Alike (n.attribute? first <|> n.attribute? second)
        ((n.mapSlots change).attribute? first <|> (n.mapSlots change).attribute? second) := by
    intro first second
    have firstAlike := alike_attribute? each first
    generalize n.attribute? first = held at firstAlike ⊢
    generalize (n.mapSlots change).attribute? first = heldAfter at firstAlike ⊢
    cases firstAlike with
    | absent => exact alike_attribute? each second
    | node expanded => exact .node expanded
    | list => exact .list
    | data => exact .data
  rw [typeArgumentsValue?, typeArgumentsValue?, kind_mapSlots]
  split
  · exact orElse _ _
  · exact orElse _ _

end Alike

section Names

variable {n after : Node}

theorem Mute.entityName?_eq_none (mute : n.Mute) : n.entityName? = none := by
  rw [entityName?.eq_def]
  rcases mute with kindEq | kindEq | kindEq | kindEq | kindEq <;> rw [kindEq]

theorem Mute.plainKey?_eq_none (mute : n.Mute) : n.plainKey? = none := by
  rw [plainKey?]
  rcases mute with kindEq | kindEq | kindEq | kindEq | kindEq <;> rw [kindEq]

theorem entityName?_expanded (sound : n.Sound) (expanded : Expanded n after) :
    after.entityName? = n.entityName? := by
  induction sizeEq : sizeOf n using Nat.strong_induction_on generalizing n after with
  | _ size ih =>
      subst sizeEq
      have afterSound := expanded.sound sound
      cases expanded with
      | replaced isCall plain =>
          rw [plain.mute.entityName?_eq_none, Mute.entityName?_eq_none (.inl isCall)]
      | @within n change each =>
          have part : ∀ key, ((n.mapSlots change).child? key).bind entityName? =
              (n.child? key).bind entityName? := fun key =>
            bind_child?_mapSlots each fun c held after expanded =>
              ih _ (sizeOf_child? held) (sound.of_child? held) expanded rfl
          by_cases qualified : n.kind = .qualifiedName
          · rw [entityName?_of_qualifiedName sound qualified,
              entityName?_of_qualifiedName afterSound qualified, part, part]
          · rw [entityName?.eq_def, entityName?.eq_def n, kind_mapSlots]
            split
            · exact text?_mapSlots change n "name"
            · contradiction
            · rfl

theorem plainKey?_expanded (expanded : Expanded n after) : after.plainKey? = n.plainKey? := by
  cases expanded with
  | replaced isCall plain =>
      rw [plain.mute.plainKey?_eq_none, Mute.plainKey?_eq_none (.inl isCall)]
  | within each =>
      simp [plainKey?]

theorem propertyName?_mapSlots {change : Slot → Node → Node}
    (each : ∀ slot c, n.inSlot? slot = some c → Expanded c (change slot c)) :
    (n.mapSlots change).propertyName? = n.propertyName? := by
  rw [propertyName?, propertyName?, flag_mapSlots]
  refine bind_child?_mapSlots each fun c _ after expanded => ?_
  rw [keyName?, keyName?, plainKey?_expanded expanded]

end Names

section Parameters

variable {n after : Node} {change : Slot → Node → Node}

/-- A list of type arguments stays one, and its items become what they are expanded to. -/
theorem map_params_expanded {β : Type} {read : Value → β} (sound : n.Sound)
    (expanded : Expanded n after)
    (same : n.kind = .typeArguments → ∀ c ∈ n.children "params", ∀ other, Expanded c other →
      read (.node other) = read (.node c)) :
    (if after.kind = .typeArguments then after.items "params" else []).map read =
      (if n.kind = .typeArguments then n.items "params" else []).map read := by
  by_cases isList : n.kind = .typeArguments
  · obtain ⟨change, rfl, each⟩ := expanded.within_of_kind (by rw [isList]; decide)
    have specEq : n.kind.specOfKey? "params" = some ⟨"params", "params", .nodes⟩ :=
      Node.specOfKey?_of_kind isList rfl
    rw [if_pos isList, if_pos ((kind_mapSlots change n).trans isList),
      sound.items_eq_map_node specEq rfl,
      (expanded.sound sound).items_eq_map_node specEq rfl, List.map_map, List.map_map]
    exact map_eq_of_forall₂ (forall₂_children each "params") (same isList)
  · have isNone : ¬after.kind = .typeArguments :=
      fun eq => isList ((expanded.kind_eq_iff (by decide)).mp eq)
    rw [if_neg isList, if_neg isNone]

/-- What is read off the type arguments at a node is read off them after the expansion. -/
theorem map_typeArguments_mapSlots {β : Type} {read : Value → β} (sound : n.Sound)
    (each : ∀ slot c, n.inSlot? slot = some c → Expanded c (change slot c))
    (same : ∀ c, .node c ∈ n.typeArguments → ∀ after, Expanded c after →
      read (.node after) = read (.node c)) :
    (n.mapSlots change).typeArguments.map read = n.typeArguments.map read := by
  have alike := alike_typeArgumentsValue? each
  have listSound := fun list (held : n.typeArgumentsValue? = some (.node list)) =>
    sound.of_typeArgumentsValue? held
  rw [typeArguments] at same
  rw [typeArguments, typeArguments]
  generalize n.typeArgumentsValue? = held at alike listSound same ⊢
  generalize (n.mapSlots change).typeArgumentsValue? = heldAfter at alike ⊢
  cases alike with
  | absent => rfl
  | @node list after expanded =>
      dsimp only at same ⊢
      refine map_params_expanded (listSound list rfl) expanded fun isList c mem => same c ?_
      obtain ⟨item, itemMem, node⟩ := List.mem_filterMap.mp mem
      rw [if_pos isList]
      exact eq_node_of_node? node ▸ itemMem
  | list => rfl
  | data => rfl

theorem parameterName_expanded (sound : n.Sound) (expanded : Expanded n after)
    (isParameter : n.kind = .typeParameter) : parameterName after = parameterName n := by
  obtain ⟨change, rfl, each⟩ := expanded.within_of_kind (by rw [isParameter]; decide)
  have alike := alike_field? each (.declared "name")
  have nameSound := fun name (held : n.get? "name" = some (.node name)) =>
    (sound.fits_of_field? held).sound
  rw [get?] at nameSound
  rw [parameterName, parameterName, get?, get?]
  generalize n.field? (.declared "name") = held at alike nameSound ⊢
  generalize (n.mapSlots change).field? (.declared "name") = heldAfter at alike ⊢
  cases alike with
  | absent => rfl
  | @node name after expanded =>
      dsimp only
      rw [entityName?_expanded (nameSound name rfl) expanded]
  | list => rfl
  | data => rfl

/-- The names of the type parameters of a declaration stay the same. -/
theorem typeParameterNames_mapSlots (sound : n.Sound)
    (each : ∀ slot c, n.inSlot? slot = some c → Expanded c (change slot c)) :
    (n.mapSlots change).typeParameterNames = n.typeParameterNames := by
  have alike := alike_attribute? each "type_parameters"
  have listSound := fun list (held : n.attribute? "type_parameters" = some (.node list)) =>
    sound.of_attribute? held
  rw [typeParameterNames, typeParameterNames, typeParameters, typeParameters]
  generalize n.attribute? "type_parameters" = held at alike listSound ⊢
  generalize (n.mapSlots change).attribute? "type_parameters" = heldAfter at alike ⊢
  cases alike with
  | absent => rfl
  | list => rfl
  | data => rfl
  | @node list after expanded =>
      dsimp only
      by_cases isList : list.kind = .typeParameters
      · obtain ⟨change, rfl, each⟩ := expanded.within_of_kind (by rw [isList]; decide)
        rw [if_pos isList, if_pos ((kind_mapSlots change list).trans isList),
          ← List.filterMap_eq_map, List.filterMap_filter, List.filterMap_filter]
        refine filterMap_eq_of_forall₂ (forall₂_children each "params")
          fun c mem other expanded => ?_
        have parameterSound := (listSound list rfl).of_mem_children mem
        simp only [expanded.kind_eq_iff (show Kind.typeParameter ∉ _ by decide)]
        split
        · rename_i isParameter
          rw [Function.comp_apply, Function.comp_apply,
            parameterName_expanded parameterSound expanded (by simpa using isParameter)]
        · rfl
      · have isNone : ¬after.kind = .typeParameters :=
          fun eq => isList ((expanded.kind_eq_iff (by decide)).mp eq)
        rw [if_neg isList, if_neg isNone]

end Parameters

end Node

end PropValidators.Ast
