import PropValidators.Proofs.Syntax.Respelling

/-!
# What is read off respelled trees

The nodes of a respelled tree correspond to those of the tree.  Names, type arguments, type
parameters, and whatever is read off a node by other keys than those of its type arguments are the
same, or respelled with it.
-/

namespace PropValidators.Ast

/-- Each thing on either side has one on the other side that it is related to. -/
structure Matched (R : Node → Node → Prop) (nodes others : List Node) : Prop where
  forth : ∀ c ∈ nodes, ∃ d ∈ others, R c d
  back : ∀ d ∈ others, ∃ c ∈ nodes, R c d

namespace Matched

variable {R S : Node → Node → Prop} {nodes others more rest : List Node}

theorem nil : Matched R [] [] :=
  ⟨by simp, by simp⟩

theorem append (left : Matched R nodes others) (right : Matched R more rest) :
    Matched R (nodes ++ more) (others ++ rest) := by
  constructor
  · intro c mem
    rcases List.mem_append.mp mem with inLeft | inRight
    · obtain ⟨d, otherMem, related⟩ := left.forth c inLeft
      exact ⟨d, List.mem_append_left _ otherMem, related⟩
    · obtain ⟨d, otherMem, related⟩ := right.forth c inRight
      exact ⟨d, List.mem_append_right _ otherMem, related⟩
  · intro d mem
    rcases List.mem_append.mp mem with inLeft | inRight
    · obtain ⟨c, otherMem, related⟩ := left.back d inLeft
      exact ⟨c, List.mem_append_left _ otherMem, related⟩
    · obtain ⟨c, otherMem, related⟩ := right.back d inRight
      exact ⟨c, List.mem_append_right _ otherMem, related⟩

theorem cons {c d : Node} (head : R c d) (tail : Matched R nodes others) :
    Matched R (c :: nodes) (d :: others) := by
  have single : Matched R [c] [d] := by
    constructor <;> simpa using head
  exact single.append tail

/-- What is so of all related nodes is so of the matched ones. -/
theorem imp (matched : Matched R nodes others)
    (implies : ∀ c ∈ nodes, ∀ d, R c d → S c d) : Matched S nodes others := by
  constructor
  · intro c mem
    obtain ⟨d, otherMem, related⟩ := matched.forth c mem
    exact ⟨d, otherMem, implies c mem d related⟩
  · intro d mem
    obtain ⟨c, otherMem, related⟩ := matched.back d mem
    exact ⟨c, otherMem, implies c otherMem d related⟩

end Matched

/-- The nodes below the value of a field that may be absent. -/
def Node.treeAt (n : Node) (name : FieldName) : List Node :=
  ((n.field? name).map Value.tree).getD []

theorem Node.mem_treeOfFields {n : Node} (layout : Layout n.kind (n.fields.map Prod.fst))
    {c : Node} : c ∈ treeOfFields n.fields ↔ ∃ name, c ∈ n.treeAt name := by
  rw [treeOfFields_eq_flatMap, List.mem_flatMap]
  constructor
  · rintro ⟨⟨name, value⟩, mem, below⟩
    refine ⟨name, ?_⟩
    rw [treeAt, field?, find?_of_mem layout.nodup mem]
    exact below
  · rintro ⟨name, below⟩
    rw [treeAt, field?] at below
    cases found : n.fields.find? fun field => field.1 == name with
    | none =>
        rw [found] at below
        cases below
    | some field =>
        rw [found] at below
        exact ⟨field, List.mem_of_find?_eq_some found, below⟩

/-- The nodes below two nodes are matched when they are below fields that go with each other. -/
theorem Node.matched_treeOfFields {R : Node → Node → Prop} {n m : Node}
    (nLayout : Layout n.kind (n.fields.map Prod.fst))
    (mLayout : Layout m.kind (m.fields.map Prod.fst)) (partner : FieldName ≃ FieldName)
    (each : ∀ name, Matched R (n.treeAt name) (m.treeAt (partner name))) :
    Matched R (treeOfFields n.fields) (treeOfFields m.fields) := by
  constructor
  · intro c mem
    obtain ⟨name, below⟩ := (mem_treeOfFields nLayout).mp mem
    obtain ⟨d, otherBelow, related⟩ := (each name).forth c below
    exact ⟨d, (mem_treeOfFields mLayout).mpr ⟨partner name, otherBelow⟩, related⟩
  · intro d mem
    obtain ⟨other, below⟩ := (mem_treeOfFields mLayout).mp mem
    rw [← partner.apply_symm_apply other] at below
    obtain ⟨c, otherBelow, related⟩ := (each (partner.symm other)).back d below
    exact ⟨c, (mem_treeOfFields nLayout).mpr ⟨partner.symm other, otherBelow⟩, related⟩

/-- The nodes of a respelled tree are the respelled nodes of the tree. -/
theorem Node.Respelled.matched_tree {n m : Node} (respelled : n.Respelled m) (sound : n.Sound) :
    Matched Respelled n.tree m.tree := by
  induction respelled using Node.Respelled.rec
    (motive_2 := fun held other _ => ∀ type, (∀ value, held = some value → value.Fits type) →
      Matched Respelled ((held.map Value.tree).getD []) ((other.map Value.tree).getD []))
    (motive_3 := fun value other _ => ∀ type, value.Fits type →
      Matched Respelled value.tree other.tree ∧
        Matched Respelled value.treeInList other.treeInList)
    (motive_4 := fun items others _ => ∀ type, FitItems type items →
      Matched Respelled (treeOfItems items) (treeOfItems others)) with
  | kept typeEq layout same ih =>
      rw [tree_eq, tree_eq]
      refine .cons (.kept typeEq layout same)
        (matched_treeOfFields sound.layout layout (.refl _) fun name => ?_)
      exact ih name _ fun _ => sound.fits_of_field?
  | @moved n m spelling typeEq layout spelled only left put same putIh ih =>
      rw [tree_eq, tree_eq]
      refine .cons (.moved typeEq layout spelled only left put same)
        (matched_treeOfFields sound.layout layout
          (.swap (.declared spelling.first) (.unknown spelling.second)) fun name => ?_)
      -- The two fields for the type arguments go with each other, and the rest with themselves.
      by_cases isFirst : name = .declared spelling.first
      · rw [isFirst, Equiv.swap_apply_left]
        exact putIh _ fun _ => sound.fits_of_field?
      · by_cases isSecond : name = .unknown spelling.second
        · rw [isSecond, Equiv.swap_apply_right, treeAt, treeAt, only, left]
          exact .nil
        · rw [Equiv.swap_apply_of_ne_of_ne isFirst isSecond]
          exact ih name isFirst isSecond _ fun _ => sound.fits_of_field?
  | some _ ih =>
      rename_i fits
      exact (ih _ (fits _ rfl)).1
  | none => exact .nil
  | node _ ih =>
      rename_i fits
      exact ⟨ih fits.2, ih fits.2⟩
  | list _ ih =>
      rename_i fits
      obtain ⟨item, -, itemsFit⟩ := fits
      exact ⟨ih item itemsFit, .nil⟩
  | data => exact ⟨.nil, .nil⟩
  | nil => exact .nil
  | cons _ _ headIh ih =>
      rename_i fits
      exact (headIh _ fits.1).2.append (ih _ fits.2)

/-- The names of the fields for type arguments, as they are reported. -/
def argumentLabels : List String :=
  ["super_type_parameters", "type_parameters", "superTypeArguments", "typeArguments"]

private theorem nameOf_notMem_argumentFields {label : String} (apart : label ∉ argumentLabels)
    (kind : Kind) : kind.nameOf label ∉ argumentFields := by
  have labels : ∀ spec ∈ kind.fields, .declared spec.key ∈ argumentFields →
      spec.label ∈ argumentLabels := by
    cases kind <;> decide
  rw [Kind.nameOf]
  split
  · decide
  · split
    · rename_i spec found
      intro mem
      have labelEq : spec.label = label := by simpa using List.find?_some found
      exact apart (labelEq ▸ labels spec (List.mem_of_find?_eq_some found) mem)
    · intro mem
      simp only [argumentFields, List.mem_cons, reduceCtorEq, FieldName.unknown.injEq,
        List.not_mem_nil, false_or, or_false] at mem
      rcases mem with rfl | rfl
      · exact apart (by decide)
      · exact apart (by decide)

namespace Node.Respelled

variable {n m : Node} {key : String}

theorem get? (respelled : n.Respelled m) (apart : .declared key ∉ argumentFields) :
    Option.Rel (Value.Related Respelled) (n.get? key) (m.get? key) :=
  respelled.field? apart

theorem child? (respelled : n.Respelled m) (apart : .declared key ∉ argumentFields) :
    Option.Rel Respelled (n.child? key) (m.child? key) := by
  have related := respelled.get? apart
  rw [Node.child?, Node.child?]
  generalize n.get? key = held at related ⊢
  generalize m.get? key = other at related ⊢
  cases related with
  | none => exact .none
  | some related => exact related.node?

theorem children (respelled : n.Respelled m) (apart : .declared key ∉ argumentFields) :
    List.Forall₂ Respelled (n.children key) (m.children key) := by
  have related := respelled.get? apart
  rw [Node.children, Node.children, items, items]
  generalize n.get? key = held at related ⊢
  generalize m.get? key = other at related ⊢
  cases related with
  | none => exact .nil
  | some related => exact related.nodes

theorem text?_eq (respelled : n.Respelled m) (apart : .declared key ∉ argumentFields) :
    m.text? key = n.text? key := by
  have related := respelled.get? apart
  rw [text?, text?]
  generalize n.get? key = held at related ⊢
  generalize m.get? key = other at related ⊢
  cases related with
  | none => rfl
  | some related => exact related.text?_eq

theorem flag_eq (respelled : n.Respelled m) (apart : .declared key ∉ argumentFields) :
    m.flag key = n.flag key := by
  have related := respelled.get? apart
  rw [flag, flag]
  generalize n.get? key = held at related ⊢
  generalize m.get? key = other at related ⊢
  cases related with
  | none => rfl
  | some related => cases related <;> rfl

theorem number?_eq (respelled : n.Respelled m) (apart : .declared key ∉ argumentFields) :
    m.number? key = n.number? key := by
  have related := respelled.get? apart
  rw [number?, number?]
  generalize n.get? key = held at related ⊢
  generalize m.get? key = other at related ⊢
  cases related with
  | none => rfl
  | some related => cases related <;> rfl

theorem hasType_eq (respelled : n.Respelled m) (type : String) :
    m.hasType type = n.hasType type := by
  have isNoneEq : (m.child? "type").isNone = (n.child? "type").isNone := by
    have related := respelled.child? (show .declared "type" ∉ argumentFields by decide)
    generalize n.child? "type" = held at related ⊢
    generalize m.child? "type" = other at related ⊢
    cases related <;> rfl
  rw [hasType, hasType, respelled.type_eq, isNoneEq]

theorem attribute? (respelled : n.Respelled m) {label : String}
    (apart : label ∉ argumentLabels) :
    Option.Rel (Value.Related Respelled) (n.attribute? label) (m.attribute? label) := by
  rw [Node.attribute?, Node.attribute?, respelled.kind_eq]
  exact rel_filter_isNull (respelled.field? (nameOf_notMem_argumentFields apart n.kind))

/-- A node without type arguments has the same attributes under all labels. -/
theorem attribute?_of_spelling?_eq_none (respelled : n.Respelled m)
    (unspelled : n.kind.spelling? = none) (label : String) :
    Option.Rel (Value.Related Respelled) (n.attribute? label) (m.attribute? label) := by
  rw [Node.attribute?, Node.attribute?, respelled.kind_eq]
  exact rel_filter_isNull (respelled.field?_of_spelling?_eq_none unspelled _)

end Node.Respelled

/-- Type arguments are looked for in the field for the first spelling and then in that for the
second one. -/
theorem Node.typeArgumentsValue?_of_spelling? {n : Node} {spelling : Spelling}
    (spelled : n.kind.spelling? = some spelling) :
    n.typeArgumentsValue? =
      ((n.field? (.declared spelling.first)).filter (fun value => !value.isNull) <|>
        (n.field? (.unknown spelling.second)).filter fun value => !value.isNull) := by
  rw [Kind.spelling?.eq_def] at spelled
  split at spelled <;> cases spelled <;>
    · rename_i kindEq
      rw [typeArgumentsValue?, Node.attribute?, Node.attribute?, Node.attribute?, Node.attribute?,
        kindEq]
      rfl

/-- What holds the type arguments of a node is respelled with it. -/
theorem Node.Respelled.typeArgumentsValue? {n m : Node} (respelled : n.Respelled m) :
    Option.Rel (Value.Related Respelled) n.typeArgumentsValue? m.typeArgumentsValue? := by
  cases spelled : n.kind.spelling? with
  | none =>
      have same := respelled.attribute?_of_spelling?_eq_none spelled
      rw [Node.typeArgumentsValue?, Node.typeArgumentsValue?, respelled.kind_eq]
      split
      · exact rel_orElse (same _) (same _)
      · exact rel_orElse (same _) (same _)
  | some spelling =>
      have spelledAfter : m.kind.spelling? = some spelling := by
        rw [respelled.kind_eq, spelled]
      rw [typeArgumentsValue?_of_spelling? spelled, typeArgumentsValue?_of_spelling? spelledAfter]
      cases respelled with
      | kept _ _ same => exact rel_orElse (rel_filter_isNull (same _)) (rel_filter_isNull (same _))
      | moved _ _ own only left put _ =>
          cases spelled.symm.trans own
          rw [only, left, Option.filter_none]
          exact rel_orElse_none (rel_filter_isNull put)

/-- The type arguments at a sound node are respelled one by one. -/
theorem Node.Respelled.typeArguments {n m : Node} (respelled : n.Respelled m) (sound : n.Sound) :
    List.Forall₂ (Value.Related Respelled) n.typeArguments m.typeArguments := by
  have related := respelled.typeArgumentsValue?
  have listSound := fun list (held : n.typeArgumentsValue? = some (.node list)) =>
    sound.of_typeArgumentsValue? held
  rw [Node.typeArguments, Node.typeArguments]
  generalize n.typeArgumentsValue? = held at related listSound ⊢
  generalize m.typeArgumentsValue? = other at related ⊢
  cases related with
  | none => exact .nil
  | some related =>
      cases related with
      | list => exact .nil
      | data => exact .nil
      | @node list other respelled =>
          dsimp only
          rw [respelled.kind_eq]
          split
          · rename_i isList
            have specEq : list.kind.specOfKey? "params" = some ⟨"params", "params", .nodes⟩ :=
              Node.specOfKey?_of_kind isList rfl
            have specEqAfter : other.kind.specOfKey? "params" = some ⟨"params", "params", .nodes⟩ :=
              respelled.kind_eq.symm ▸ specEq
            rw [(listSound list rfl).items_eq_map_node specEq rfl,
              (respelled.sound (listSound list rfl)).items_eq_map_node specEqAfter rfl,
              List.forall₂_map_left_iff, List.forall₂_map_right_iff]
            exact (respelled.children (by decide)).imp fun _ _ => .node
          · exact .nil

/-- What is read off the type arguments at a node is read off those of its respellings, if that
makes no difference for any of them. -/
theorem Node.Respelled.map_typeArguments {β : Type} {read : Value → β} {n m : Node}
    (respelled : n.Respelled m) (sound : n.Sound)
    (same : ∀ c, .node c ∈ n.typeArguments → ∀ other, c.Respelled other →
      read (.node other) = read (.node c)) :
    m.typeArguments.map read = n.typeArguments.map read := by
  have nodes := fun value (mem : value ∈ n.typeArguments) =>
    exists_node_of_mem_typeArguments sound mem
  have related := respelled.typeArguments sound
  generalize n.typeArguments = arguments at related nodes same ⊢
  generalize m.typeArguments = others at related ⊢
  induction related with
  | nil => rfl
  | @cons argument other _ _ head _ ih =>
      rw [List.forall_mem_cons] at nodes
      obtain ⟨⟨c, rfl, -⟩, rest⟩ := nodes
      cases head with
      | node respelled =>
          rw [List.map_cons, List.map_cons, same c List.mem_cons_self _ respelled,
            ih rest fun d mem => same d (List.mem_cons_of_mem _ mem)]

namespace Node.Respelled

variable {n m : Node}

/-- Whatever is read off a child is read off the child of the respelled node, if that makes no
difference for the child alone. -/
theorem bind_child? {β : Type} {read : Node → Option β} {key : String} (respelled : n.Respelled m)
    (apart : .declared key ∉ argumentFields)
    (same : ∀ c, n.child? key = some c → ∀ other, c.Respelled other → read other = read c) :
    (m.child? key).bind read = (n.child? key).bind read := by
  have related := respelled.child? apart
  generalize n.child? key = held at related same ⊢
  generalize m.child? key = other at related ⊢
  cases related with
  | none => rfl
  | some respelled => exact same _ rfl _ respelled

theorem map_child? {β : Type} {read : Node → β} {key : String} (respelled : n.Respelled m)
    (apart : .declared key ∉ argumentFields)
    (same : ∀ c, n.child? key = some c → ∀ other, c.Respelled other → read other = read c) :
    (m.child? key).map read = (n.child? key).map read := by
  rw [Option.map_eq_bind, Option.map_eq_bind]
  exact respelled.bind_child? apart fun c held other respelled =>
    congrArg some (same c held other respelled)

theorem entityName?_eq (respelled : n.Respelled m) (sound : n.Sound) :
    m.entityName? = n.entityName? := by
  induction sizeEq : sizeOf n using Nat.strong_induction_on generalizing n m with
  | _ size ih =>
      subst sizeEq
      have part : ∀ key, .declared key ∉ argumentFields →
          (m.child? key).bind entityName? = (n.child? key).bind entityName? := fun key apart =>
        respelled.bind_child? apart fun c held other respelled =>
          ih _ (sizeOf_child? held) respelled (sound.of_child? held) rfl
      by_cases qualified : n.kind = .qualifiedName
      · rw [entityName?_of_qualifiedName sound qualified,
          entityName?_of_qualifiedName (respelled.sound sound) (respelled.kind_eq.trans qualified),
          part _ (by decide), part _ (by decide)]
      · rw [entityName?.eq_def, entityName?.eq_def n, respelled.kind_eq]
        split
        · exact respelled.text?_eq (by decide)
        · contradiction
        · rfl

theorem entityText?_eq (respelled : n.Respelled m) (sound : n.Sound) :
    m.entityText? = n.entityText? := by
  rw [sound.entityText?_eq, (respelled.sound sound).entityText?_eq, respelled.entityName?_eq sound]

private theorem plainKey?_eq (respelled : n.Respelled m) : m.plainKey? = n.plainKey? := by
  rw [plainKey?, plainKey?, respelled.kind_eq, respelled.text?_eq (by decide),
    respelled.text?_eq (by decide)]

theorem propertyName?_eq (respelled : n.Respelled m) : m.propertyName? = n.propertyName? := by
  rw [propertyName?, propertyName?, respelled.flag_eq (by decide)]
  refine respelled.bind_child? (by decide) fun c _ other respelled => ?_
  rw [keyName?, keyName?, respelled.plainKey?_eq]

private theorem parameterName_eq (respelled : n.Respelled m) (sound : n.Sound) :
    parameterName m = parameterName n := by
  have related := respelled.get? (show .declared "name" ∉ argumentFields by decide)
  have nameSound := fun name (held : n.get? "name" = some (.node name)) =>
    (sound.fits_of_field? held).sound
  rw [parameterName, parameterName]
  generalize n.get? "name" = held at related nameSound ⊢
  generalize m.get? "name" = other at related ⊢
  cases related with
  | none => rfl
  | some related =>
      cases related with
      | node respelled =>
          dsimp only
          rw [respelled.entityName?_eq (nameSound _ rfl)]
      | list => rfl
      | data => rfl

/-- The names of the type parameters of a declaration, which has no type arguments itself. -/
theorem typeParameterNames_eq (respelled : n.Respelled m) (sound : n.Sound)
    (unspelled : n.kind.spelling? = none) : m.typeParameterNames = n.typeParameterNames := by
  have related := respelled.attribute?_of_spelling?_eq_none unspelled "type_parameters"
  have listSound := fun list (held : n.attribute? "type_parameters" = some (.node list)) =>
    sound.of_attribute? held
  rw [typeParameterNames, typeParameterNames, typeParameters, typeParameters]
  generalize n.attribute? "type_parameters" = held at related listSound ⊢
  generalize m.attribute? "type_parameters" = other at related ⊢
  cases related with
  | none => rfl
  | some related =>
      cases related with
      | list => rfl
      | data => rfl
      | @node list other respelled =>
          dsimp only
          rw [respelled.kind_eq]
          split
          · rw [← List.filterMap_eq_map, List.filterMap_filter, List.filterMap_filter]
            apply filterMap_eq_of_forall₂ (respelled.children (by decide))
            intro c mem other respelled
            have cSound := (listSound list rfl).of_mem_children mem
            rw [respelled.kind_eq, Function.comp_apply, Function.comp_apply,
              respelled.parameterName_eq cSound]
          · rfl

end Node.Respelled

end PropValidators.Ast
