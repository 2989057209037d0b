import PropValidators.Proofs.Patching.Faults

/-!
# Own declarations and imported ones

The declarations of imported modules are registered before those of the module itself.  One more
declaration of a name takes the place of what was kept for it, except that an interface is added
where only interfaces are kept.  So what is kept for a name in the end is settled by its own
declarations alone, one after the other, from what was kept before.

It follows that the declarations of a module shadow those of the imported modules, unless the name
stands for nothing but interfaces on both sides.  In that case all of them are kept, the imported
ones first.
-/

namespace PropValidators

open Ast

/-! ## What is kept for one name -/

namespace Registry

variable {α : Type}

/-- What is kept for a name after one more declaration of it. -/
def settle (isInterface : α → Bool) (kept : List α) (declaration : α) : List α :=
  if isInterface declaration && kept.all isInterface then kept ++ [declaration] else [declaration]

/-- What is kept for a name after all of its declarations. -/
def settled (isInterface : α → Bool) (kept declarations : List α) : List α :=
  declarations.foldl (settle isInterface) kept

/-- The declarations under a name, in order.  Nothing is declared under the empty name. -/
def declaredUnder (key : String) (declarations : List (Option String × α)) : List α :=
  declarations.filterMap fun d => if d.1 = some key ∧ key ≠ "" then some d.2 else none

@[simp]
theorem declaredUnder_empty (declarations : List (Option String × α)) :
    declaredUnder "" declarations = [] := by
  simp [declaredUnder]

section Settled

variable {isInterface : α → Bool} {kept declarations : List α}

@[simp]
theorem settle_nil (declaration : α) : settle isInterface [] declaration = [declaration] := by
  rw [settle]
  split <;> rfl

/-- Interfaces are added to interfaces. -/
theorem settled_of_all (keptAll : kept.all isInterface = true)
    (all : declarations.all isInterface = true) :
    settled isInterface kept declarations = kept ++ declarations := by
  induction declarations generalizing kept with
  | nil => exact (List.append_nil kept).symm
  | cons declaration declarations ih =>
      rw [List.all_cons, Bool.and_eq_true] at all
      have step : settle isInterface kept declaration = kept ++ [declaration] := by
        rw [settle, all.1, keptAll]
        rfl
      have stepAll : (kept ++ [declaration]).all isInterface = true := by
        rw [List.all_append, keptAll, List.all_cons, all.1]
        rfl
      rw [settled, List.foldl_cons, step, ← settled, ih stepAll all.2, List.append_assoc,
        List.singleton_append]

/-- In all other cases nothing stays of what was kept before. -/
theorem settled_of_mixed (nonempty : declarations ≠ [])
    (mixed : ¬ (kept.all isInterface = true ∧ declarations.all isInterface = true)) :
    settled isInterface kept declarations = settled isInterface [] declarations := by
  induction declarations generalizing kept with
  | nil => exact absurd rfl nonempty
  | cons declaration declarations ih =>
      rw [settled, settled, List.foldl_cons, List.foldl_cons, settle_nil]
      by_cases added : (isInterface declaration && kept.all isInterface) = true
      · -- The declaration is added, so that something else comes after it.
        obtain ⟨isAdded, keptAll⟩ := (Bool.and_eq_true _ _).mp added
        have later : ¬ declarations.all isInterface = true := by
          intro all
          exact mixed ⟨keptAll, by rw [List.all_cons, isAdded, all]; rfl⟩
        have some : declarations ≠ [] := by
          rintro rfl
          exact later rfl
        exact (ih some fun all => later all.2).trans (ih some fun all => later all.2).symm
      · rw [settle, if_neg added]

end Settled

variable (isInterface : α → Bool)

theorem get_add (registry : Registry α) (name : Option String) (declaration : α) (key : String) :
    (registry.add isInterface name declaration).get key =
      if name = some key ∧ key ≠ "" then settle isInterface (registry.get key) declaration
      else registry.get key := by
  cases name with
  | none => rfl
  | some name =>
      rw [add]
      by_cases empty : name = ""
      · rw [if_pos empty, if_neg]
        rintro ⟨same, notEmpty⟩
        exact notEmpty ((Option.some.inj same).symm.trans empty)
      · rw [if_neg empty]
        by_cases same : name = key
        · subst same
          rw [if_pos ⟨rfl, empty⟩, get, Assoc.get?_put_self, Option.getD_some, settle]
        · rw [if_neg fun both => same (Option.some.inj both.1), get,
            Assoc.get?_put_of_ne (Ne.symm same)]
          rfl

/-- What is kept for a name depends on nothing but its own declarations and what was kept for it
before them. -/
theorem get_foldl_add (registry : Registry α) (declarations : List (Option String × α))
    (key : String) :
    (declarations.foldl (fun registry d => registry.add isInterface d.1 d.2) registry).get key =
      settled isInterface (registry.get key) (declaredUnder key declarations) := by
  induction declarations generalizing registry with
  | nil => rfl
  | cons declaration declarations ih =>
      rw [List.foldl_cons, ih, get_add, declaredUnder, declaredUnder, List.filterMap_cons]
      by_cases under : declaration.1 = some key ∧ key ≠ ""
      · rw [if_pos under, if_pos under, settled, settled, List.foldl_cons]
      · rw [if_neg under, if_neg under]

theorem get_ofList (declarations : List (Option String × α)) (key : String) :
    (ofList isInterface declarations).get key =
      settled isInterface [] (declaredUnder key declarations) :=
  get_foldl_add isInterface empty declarations key

/-- Later declarations of a name are settled from what the earlier ones left. -/
theorem get_ofList_append (first second : List (Option String × α)) (key : String) :
    (ofList isInterface (first ++ second)).get key =
      settled isInterface ((ofList isInterface first).get key) (declaredUnder key second) := by
  rw [ofList, List.foldl_append]
  exact get_foldl_add isInterface _ second key

end Registry

/-! ## The declarations of a module and of the modules it imports -/

@[simp]
theorem isInterface_ofNode (n : Node) :
    (Declaration.ofNode n).isInterface = (n.kind == .interfaceDeclaration) := by
  rw [Declaration.ofNode]
  split
  · rename_i isInterface
    rw [isInterface]
    split <;> rfl
  · rename_i isAlias
    rw [isAlias]
    split <;> rfl
  · rename_i notInterface _
    rw [beq_eq_false_iff_ne.mpr notInterface]
    split <;> rfl

/-- Declarations with the names under which they are registered. -/
def namedDeclarations (nodes : List Node) : List (Option String × Declaration) :=
  nodes.map fun n => (declaredName? n, Declaration.ofNode n)

/-- The registry of declaration nodes is made of the nodes, and each is then read. -/
theorem registryOfRegistrations_eq_map (nodes : List Node) :
    registryOfRegistrations (nodes.map registration) =
      (Registry.ofList (fun n : Node => n.kind == .interfaceDeclaration)
        (nodes.map fun n => (declaredName? n, n))).map Declaration.ofNode := by
  let named : List (Option String × Node) := nodes.map fun n => (declaredName? n, n)
  let register (n : Node) : Bool × Declaration :=
    (n.kind == .interfaceDeclaration, Declaration.ofNode n)
  let isInterfaceNode (n : Node) : Bool := n.kind == .interfaceDeclaration
  have registered : nodes.map registration = named.map fun d => (d.1, register d.2) := by
    rw [List.map_map]
    rfl
  have sameRegistered : ∀ n, (register n).1 = isInterfaceNode n := fun _ => rfl
  calc registryOfRegistrations (nodes.map registration)
      = ((Registry.ofList isInterfaceNode named).map register).map Prod.snd := by
        rw [registryOfRegistrations, registered, Registry.map_ofList sameRegistered]
    _ = (Registry.ofList isInterfaceNode named).map Declaration.ofNode :=
        Registry.map_map _ _ _

/-- The registry of declaration nodes is that of what they declare. -/
theorem registryOfRegistrations_eq (nodes : List Node) :
    registryOfRegistrations (nodes.map registration) =
      Registry.ofList Declaration.isInterface (namedDeclarations nodes) := by
  let named : List (Option String × Node) := nodes.map fun n => (declaredName? n, n)
  have declared : namedDeclarations nodes =
      named.map fun d => (d.1, Declaration.ofNode d.2) := by
    rw [List.map_map]
    rfl
  rw [registryOfRegistrations_eq_map, declared, Registry.map_ofList isInterface_ofNode]

theorem declaredUnder_namedDeclarations {nodes : List Node} {name : String} (named : name ≠ "") :
    Registry.declaredUnder name (namedDeclarations nodes) =
      (nodes.filter fun n => declaredName? n == some name).map Declaration.ofNode := by
  induction nodes with
  | nil => rfl
  | cons n nodes ih =>
      rw [namedDeclarations, Registry.declaredUnder] at ih
      rw [namedDeclarations, Registry.declaredUnder, List.map_cons, List.filterMap_cons, ih]
      by_cases under : declaredName? n = some name
      · simp [under, named]
      · simp [under]

section Modules

variable {imports : List Node} {root : Node} {name : String}

theorem get_registryOf (modules : List Node) (name : String) :
    (registryOf modules).get name = Registry.settled Declaration.isInterface []
      (Registry.declaredUnder name (namedDeclarations (modules.flatMap declarationNodes))) := by
  rw [registryOf_eq, registryOfRegistrations_eq, Registry.get_ofList]

/-- What is in sight under a name is settled by the declarations of the module, from what the
imported modules leave. -/
theorem get_ofModule (sound : root.Sound) (imports : List Node) (options : Options)
    (name : String) :
    (Workspace.ofModule imports root options).registry.get name =
      Registry.settled Declaration.isInterface ((registryOf imports).get name)
        (Registry.declaredUnder name (namedDeclarations (declarationNodes root))) := by
  rw [registry_ofModule sound, ← List.map_append, registryOfRegistrations_eq, namedDeclarations,
    List.map_append, ← namedDeclarations, ← namedDeclarations, Registry.get_ofList_append,
    registryOf_eq, registryOfRegistrations_eq]

/-- The declarations of a name in a module are added to the imported ones: nothing but interfaces
is imported under the name, and nothing but interfaces is declared under it. -/
def AddsUp (imports : List Node) (root : Node) (name : String) : Prop :=
  (∀ declaration ∈ (registryOf imports).get name, declaration.isInterface = true) ∧
    ∀ n ∈ declarationNodes root, declaredName? n = some name → n.kind = .interfaceDeclaration

private theorem addsUp_iff (named : name ≠ "") :
    AddsUp imports root name ↔
      ((registryOf imports).get name).all Declaration.isInterface = true ∧
        (Registry.declaredUnder name (namedDeclarations (declarationNodes root))).all
          Declaration.isInterface = true := by
  rw [AddsUp, declaredUnder_namedDeclarations named, List.all_eq_true, List.all_map,
    List.all_filter, List.all_eq_true]
  simp [Decidable.imp_iff_not_or]

/-- Modules that keep to their fields can be opened together. -/
theorem openingFault?_eq_none (sound : root.Sound) (importsSound : ∀ m ∈ imports, m.Sound) :
    openingFault? imports root = none := by
  rw [openingFault?_of_sound sound, registrationFault?_of_modules importsSound]

/-- A module can be opened with the modules it imports.  What is in sight under a name that it
declares are its own declarations of the name as if nothing was imported, unless they add up with
imported ones; then the imported ones stand before them.  So its own declarations shadow the
imported ones just where nothing is imported under the name, or something other than an interface
is imported or declared under it. -/
theorem own_declarations_shadow_iff (sound : root.Sound) (importsSound : ∀ m ∈ imports, m.Sound)
    (options : Options) (declared : ∃ n ∈ declarationNodes root, declaredName? n = some name) :
    let inSight := (Workspace.ofModule imports root options).registry.get name
    let own := (Workspace.ofModule [] root options).registry.get name
    let imported := (registryOf imports).get name
    openingFault? imports root = none ∧
      (AddsUp imports root name → inSight = imported ++ own) ∧
      (¬ AddsUp imports root name → inSight = own) ∧
      (inSight = own ↔ imported = [] ∨ ¬ AddsUp imports root name) := by
  intro inSight own imported
  let declarations := Registry.declaredUnder name (namedDeclarations (declarationNodes root))
  have inSightEq : inSight = Registry.settled Declaration.isInterface imported declarations :=
    get_ofModule sound imports options name
  have ownEq : own = Registry.settled Declaration.isInterface [] declarations :=
    get_ofModule sound [] options name
  have both : (AddsUp imports root name → inSight = imported ++ own) ∧
      (¬ AddsUp imports root name → inSight = own) := by
    by_cases named : name = ""
    · -- Nothing is registered under the empty name.
      have none : imported = [] ∧ declarations = [] := by
        subst named
        exact ⟨(get_registryOf imports "").trans (by rw [Registry.declaredUnder_empty]; rfl),
          Registry.declaredUnder_empty _⟩
      rw [inSightEq, ownEq, none.1, none.2]
      exact ⟨fun _ => rfl, fun _ => rfl⟩
    · rw [inSightEq, ownEq, addsUp_iff named]
      constructor
      · rintro ⟨importedAll, all⟩
        rw [Registry.settled_of_all importedAll all, Registry.settled_of_all rfl all,
          List.nil_append]
      · refine Registry.settled_of_mixed ?_
        rw [declaredUnder_namedDeclarations named]
        obtain ⟨n, mem, under⟩ := declared
        exact List.ne_nil_of_mem (List.mem_map_of_mem (List.mem_filter.mpr ⟨mem, by simp [under]⟩))
  refine ⟨openingFault?_eq_none sound importsSound, both.1, both.2, ?_⟩
  by_cases adds : AddsUp imports root name
  · rw [both.1 adds, List.append_left_eq_self]
    simp [adds]
  · simp [adds, both.2 adds]

end Modules

/-! ## One name in two modules -/

/-- An interface with one field. -/
def propsInterface (field : String) : Node :=
  interfaceDeclaration "Props" [propertySignatureOf (identifier field) textType false] [] []

/-- What the interface declares. -/
def propsDeclaration (field : String) : Declaration :=
  .interface [] [] [.property field (.annotated (.primitive .string)) false]

@[simp]
theorem ofNode_propsInterface (field : String) :
    Declaration.ofNode (propsInterface field) = propsDeclaration field := by
  have memberFresh := fresh_propertySignatureOf (fresh_identifier field) fresh_textType
  have membersEq : TypeMember.ofBody (propsInterface field) =
      [.property field (.annotated (.primitive .string)) false] := by
    change TypeMember.ofNodes [propertySignatureOf (identifier field) textType false] = _
    rw [ofNodes_of_sound (List.forall_mem_singleton.mpr memberFresh.1),
      List.filterMap_cons_some (ofNode?_propertySignatureOf field fresh_textType), ofNode_textType]
    rfl
  rw [propsDeclaration, ← membersEq]
  rfl

/-- A module that is written with the interface. -/
def propsModule (field : String) : Node :=
  program [propsInterface field]

/-- The module as it is written. -/
def propsJson (field : String) : Json :=
  programJson [nodeJson "TSInterfaceDeclaration" [("id", identifierJson "Props"),
    ("typeParameters", .null), ("extends", .null),
    ("body", nodeJson "TSInterfaceBody" [("body", .array [textSignatureJson field])])]]

theorem distinct_propsJson (field : String) : (propsJson field).Distinct := by
  simp [propsJson]

@[simp]
theorem readDocument_propsJson (field : String) :
    readDocument 0 (propsJson field) = .ok (propsModule field) := by
  rfl

theorem sound_propsModule (field : String) : (propsModule field).Sound :=
  sound_of_readNode (distinct_propsJson field) (readDocument_propsJson field)

@[simp]
theorem declarationNodes_propsModule (field : String) :
    declarationNodes (propsModule field) = [propsInterface field] := by
  rw [declarationNodes, Node.walk_eq_tree]
  rfl

@[simp]
theorem declaredName?_propsInterface (field : String) :
    declaredName? (propsInterface field) = some "Props" :=
  entityName?_identifier "Props"

theorem declared_propsModule (field : String) :
    ∃ n ∈ declarationNodes (propsModule field), declaredName? n = some "Props" := by
  rw [declarationNodes_propsModule]
  exact ⟨_, List.mem_singleton_self _, declaredName?_propsInterface field⟩

/-- What is in sight under the name in the module with the field `text`. -/
theorem get_ofModule_props (imports : List Node) :
    (Workspace.ofModule imports (propsModule "text") {}).registry.get "Props" =
      Registry.settle Declaration.isInterface ((registryOf imports).get "Props")
        (propsDeclaration "text") := by
  rw [get_ofModule (sound_propsModule "text"), declarationNodes_propsModule, namedDeclarations,
    List.map_singleton, declaredName?_propsInterface, ofNode_propsInterface]
  rfl

@[simp]
theorem get_registryOf_props :
    (registryOf [propsModule "a"]).get "Props" = [propsDeclaration "a"] := by
  rw [get_registryOf, List.flatMap_singleton, declarationNodes_propsModule, namedDeclarations,
    List.map_singleton, declaredName?_propsInterface, ofNode_propsInterface]
  rfl

/-- The fields of two interfaces of the name come together. -/
theorem outcome_resolveName_props {context : Context}
    (declared : context.registry.get "Props" = [propsDeclaration "a", propsDeclaration "text"])
    (fresh : context.visited.contains "Props" = false) (shallow : context.tooDeep = false) :
    (resolveName context "Props" []).outcome =
      .ok (.object [⟨"a", .primitive .string, false, false⟩,
        ⟨"text", .primitive .string, false, false⟩]) := by
  have fields (inner : Context) : (resolveInterfaces inner []
      [propsDeclaration "a", propsDeclaration "text"]).outcome =
        .ok [[⟨"a", .primitive .string, false, false⟩],
          [⟨"text", .primitive .string, false, false⟩]] := by
    simp only [propsDeclaration, resolveInterfaces, resolveHeritage, resolveMembers,
      resolveNullable, resolveUnwrapped, resolveType, Traced.outcome_bind, Traced.outcome_within,
      Traced.outcome_pure]
    rfl
  rw [Resolution.outcome_resolveName_of_interfaces declared (List.cons_ne_nil _ _) rfl fresh
    shallow, fields]
  rfl

/-- An imported interface is not shadowed by an interface of its name, and its field is a field
of the type. -/
theorem imported_interface_adds_field :
    let context := (Workspace.ofModule [propsModule "a"] (propsModule "text") {}).context
    readDocument 0 (propsJson "a") = .ok (propsModule "a") ∧
      readDocument 0 (propsJson "text") = .ok (propsModule "text") ∧
      (resolveName context "Props" []).outcome =
        .ok (.object [⟨"a", .primitive .string, false, false⟩,
          ⟨"text", .primitive .string, false, false⟩]) ∧
      ¬ ∀ (imports : List Node) (root : Node) (options : Options) (name : String), root.Sound →
        (∀ m ∈ imports, m.Sound) →
        (∃ n ∈ declarationNodes root, declaredName? n = some name) →
          (Workspace.ofModule imports root options).registry.get name =
            (Workspace.ofModule [] root options).registry.get name := by
  intro context
  have inSight : context.registry.get "Props" =
      [propsDeclaration "a", propsDeclaration "text"] := by
    change (Workspace.ofModule [propsModule "a"] (propsModule "text") {}).registry.get "Props" = _
    rw [get_ofModule_props, get_registryOf_props]
    rfl
  refine ⟨readDocument_propsJson "a", readDocument_propsJson "text",
    outcome_resolveName_props inSight rfl rfl, ?_⟩
  intro claim
  have same := claim [propsModule "a"] (propsModule "text") {} "Props" (sound_propsModule "text")
    (List.forall_mem_singleton.mpr (sound_propsModule "a")) (declared_propsModule "text")
  rw [get_ofModule_props, get_ofModule_props, get_registryOf_props] at same
  cases congrArg List.length same

/-- A module with an alias of the same name. -/
def aliasModule : Node :=
  program [typeAlias "Props" textType []]

/-- The module as it is written. -/
def aliasModuleJson : Json :=
  programJson [typeAliasJson "Props" (nodeJson "TSStringKeyword" [])]

private theorem sound_aliasModule : aliasModule.Sound := by
  have distinct : aliasModuleJson.Distinct := by
    simp [aliasModuleJson]
  have read : readDocument 0 aliasModuleJson = .ok aliasModule := by
    rfl
  exact sound_of_readNode distinct read

/-- The alias takes the place of an interface that was imported before it. -/
@[simp]
theorem get_registryOf_alias :
    (registryOf [propsModule "a", aliasModule]).get "Props" =
      [Declaration.ofNode (typeAlias "Props" textType [])] := by
  have nodes : [propsModule "a", aliasModule].flatMap declarationNodes =
      [propsInterface "a", typeAlias "Props" textType []] := by
    rw [List.flatMap_cons, List.flatMap_singleton, declarationNodes_propsModule,
      declarationNodes, Node.walk_eq_tree]
    rfl
  have aliasName : declaredName? (typeAlias "Props" textType []) = some "Props" :=
    entityName?_identifier "Props"
  rw [get_registryOf, nodes, namedDeclarations, List.map_cons, List.map_singleton,
    declaredName?_propsInterface, aliasName]
  generalize Declaration.ofNode (propsInterface "a") = first
  have notInterface : (Declaration.ofNode (typeAlias "Props" textType [])).isInterface = false :=
    isInterface_ofNode _
  generalize Declaration.ofNode (typeAlias "Props" textType []) = last at notInterface
  change Registry.settle _ (Registry.settle _ [] first) last = [last]
  rw [Registry.settle_nil, Registry.settle, notInterface]
  rfl

/-- An alias is imported under the name of the interface, and shadowed by it. -/
theorem own_declarations_shadow_alias :
    (propsModule "text").Sound ∧ (∀ m ∈ [propsModule "a", aliasModule], m.Sound) ∧
      (∃ n ∈ declarationNodes (propsModule "text"), declaredName? n = some "Props") ∧
      openingFault? [propsModule "a", aliasModule] (propsModule "text") = none ∧
      ¬ AddsUp [propsModule "a", aliasModule] (propsModule "text") "Props" ∧
      (Workspace.ofModule [propsModule "a", aliasModule] (propsModule "text") {}).registry.get
        "Props" = [propsDeclaration "text"] := by
  have importsSound : ∀ m ∈ [propsModule "a", aliasModule], m.Sound :=
    List.forall_mem_cons.mpr
      ⟨sound_propsModule "a", List.forall_mem_singleton.mpr sound_aliasModule⟩
  have notAdded : ¬ AddsUp [propsModule "a", aliasModule] (propsModule "text") "Props" := by
    rintro ⟨importedAll, -⟩
    rw [get_registryOf_alias, List.forall_mem_singleton, isInterface_ofNode] at importedAll
    cases importedAll
  have sound := sound_propsModule "text"
  have declared := declared_propsModule "text"
  obtain ⟨opens, -, shadowed, -⟩ := own_declarations_shadow_iff sound importsSound {} declared
  refine ⟨sound, importsSound, declared, opens, notAdded, ?_⟩
  rw [shadowed notAdded, get_ofModule_props]
  rfl

end PropValidators
