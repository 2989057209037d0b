import PropValidators.Proofs.Patching.Idempotence
import PropValidators.Proofs.Resolution.Modules

/-!
# What stops resolution and patching

The classes of modules that can be read are planned and patched as long as the types of their props
can be resolved.  So patching stops only where a resolution does: where fields are selected by an
integer that cannot be written, or where a name is too deep for a limit that cannot be written.
-/

namespace PropValidators

open Ast

section Patching

variable {modules : List Node} {context : Context}

/-- Planning the change of a class returns where the type of its props is resolved. -/
theorem returns_planClass (readable : Readable modules)
    (declared : context.registry = registryOf modules) (options : Options) {c : Node}
    (stands : StandsIn modules c) (isClass : c.kind = .classDeclaration) :
    ReturnsIf (WritableIn modules context) (planClass options context c).outcome := by
  have sound := readable.sound_of_standsIn stands
  rw [outcome_planClass sound isClass, planReading]
  split
  · exact .ok _
  · rename_i propsType typeEq
    obtain ⟨argument, head, rfl⟩ := Option.map_eq_some_iff.mp typeEq
    have mem := List.mem_of_head? head
    obtain ⟨m, rfl, -⟩ := Node.exists_node_of_mem_typeArguments sound mem
    have argumentStands := stands.below (Node.below_of_mem_typeArguments mem)
    exact (Resolution.returns_resolveType readable declared argumentStands).map _

/-- Transforming a module returns where the types of the props of its classes are resolved. -/
theorem returns_transformModule {imports : List Node} {root : Node}
    (readable : Readable (imports ++ [root])) (options : Options) :
    ReturnsIf (AllWritable (imports ++ [root]) ∧ options.maxDepth.Writable)
      (transformModule options imports root).report.outcome := by
  have rootMem : root ∈ imports ++ [root] := List.mem_append_right _ (List.mem_singleton_self root)
  have sound := readable.sound rootMem
  have opens : openingFault? imports root = none := by
    rw [openingFault?_of_sound sound]
    exact (readable.mono (List.subset_append_left imports [root])).registrationFault?_eq_none
  have declared : (openContext options imports root).registry = registryOf (imports ++ [root]) :=
    registry_ofModule_eq_registryOf sound options
  -- Nothing is bound where a module is opened, so only the limit and the values in the modules
  -- count.
  have unbound : ∀ frame ∈ (openContext options imports root).bindings.head?, ∀ binding ∈ frame,
      binding.2.Values Literal.Writable := by
    intro frame head
    cases head
  have plans : ∀ t ∈ (classNodes root).map (planClass options (openContext options imports root)),
      ReturnsIf (AllWritable (imports ++ [root]) ∧ options.maxDepth.Writable) t.outcome := by
    intro t mem
    obtain ⟨c, classMem, rfl⟩ := List.mem_map.mp mem
    have stands : StandsIn (imports ++ [root]) c :=
      ⟨root, rootMem, (List.mem_filter.mp classMem).1⟩
    have returns :=
      returns_planClass readable declared options stands (isClass_of_mem_classNodes classMem)
    exact returns.imp fun all => ⟨all.1, unbound, all.2⟩
  rw [transformModule, opens]
  dsimp only
  rw [patchClasses]
  refine .bind (.ok ()) fun _ => .bind ?_ fun results => .bind (.ok ()) fun _ => .ok results
  exact .bind (.mapM_id plans) fun plans => .ok (plans.map Prod.fst)

end Patching

/-- In modules that can be read a resolution returns in every state, for every name and on every
node, and so does the planning and the patching of classes.  They stop only at an integer that
cannot be written: where fields are selected by it, or where it is the limit for which a name is too
deep.  What cannot be seen is unknown, and the props with defaults can always be told. -/
theorem returns_of_readable {modules : List Node} (readable : Readable modules) :
    (∀ context : Context, context.registry = registryOf modules →
      (∀ name arguments,
        ReturnsIf
            (AllWritable modules ∧ (∀ shape ∈ arguments, shape.Values Literal.Writable) ∧
              context.maxDepth.Writable)
            (resolveName context name arguments).outcome ∧
          (Resolution.Closed context name →
            (resolveName context name arguments).outcome = .ok .unknown)) ∧
      (∀ n, StandsIn modules n →
        ReturnsIf (WritableIn modules context) (resolveType context (.ofNode n)).outcome ∧
          ReturnsIf (WritableIn modules context) (resolveNullable context (.ofNode n)).outcome ∧
          (Resolution.Obscure context (.ofNode n) →
            (resolveType context (.ofNode n)).outcome = .ok .unknown)) ∧
      (∀ nodes, (∀ n ∈ nodes, StandsIn modules n) →
        ReturnsIf (WritableIn modules context)
          (memberFields context (TypeMember.ofNodes nodes)).outcome) ∧
      ∀ options c, StandsIn modules c → c.kind = .classDeclaration →
        ReturnsIf (WritableIn modules context) (planClass options context c).outcome ∧
          ∃ names, (classDefaults options.defaultsProperty c).outcome = .ok names) ∧
    ∀ options imports root, imports ++ [root] ⊆ modules →
      ReturnsIf (AllWritable (imports ++ [root]) ∧ options.maxDepth.Writable)
        (transformModule options imports root).report.outcome := by
  constructor
  · intro context declared
    refine ⟨fun name arguments => ⟨?name, ?closed⟩, fun n stands => ⟨?type, ?nullable, ?obscure⟩,
      fun nodes stand => ?members, fun options c stands isClass => ⟨?plan, ?defaults⟩⟩
    case name => exact Resolution.returns_resolveName readable declared name arguments
    case closed => exact fun closed => Resolution.outcome_resolveName_of_closed closed arguments
    case type => exact Resolution.returns_resolveType readable declared stands
    case nullable => exact Resolution.returns_resolveNullable readable declared stands
    case obscure => exact Resolution.outcome_resolveType_of_obscure
    case members => exact Resolution.returns_memberFields readable declared stand
    case plan => exact returns_planClass readable declared options stands isClass
    case defaults =>
      exact ⟨_, outcome_classDefaults (readable.sound_of_standsIn stands) isClass _⟩
  · intro options imports root subset
    exact returns_transformModule (readable.mono subset) options

/-- An enum whose first member has a value, which the second one follows. -/
def numberedEnum (n : Int) : Node :=
  enumDeclaration "E" [("M0", some (numericLiteral (.int n))), ("M1", none)]

/-- A type that selects from an object without fields by the members of the enum. -/
def selection : Node :=
  reference "Pick" [typeLiteral [], reference "E" []]

/-- A module with the enum, an alias for the selection, and a class that has it as props type. -/
def selectingModule (n : Int) : Node :=
  program [numberedEnum n, typeAlias "P" selection [],
    classDeclaration "C" (some (reference "P" [])) [] "Component"]

/-- The enum and the alias as they are written. -/
def selectingDeclarationsJson (n : Int) : List Json :=
  [enumDeclarationJson "E" [enumMemberJson "M0" (numericLiteralJson n), enumMemberJson "M1" .null],
    typeAliasJson "P" (genericReferenceJson "Pick" [typeLiteralJson [], referenceJson "E"])]

/-- The module as it is written. -/
def selectingJson (n : Int) : Json :=
  programJson (selectingDeclarationsJson n ++
    [classDeclarationJson "C" (referenceJson "P") []])

@[simp]
theorem readDocument_selectingJson (n : Int) :
    readDocument 0 (selectingJson n) = .ok (selectingModule n) := by
  rfl

private theorem distinct_selectingJson (n : Int) : (selectingJson n).Distinct := by
  simp [selectingJson, selectingDeclarationsJson]

theorem readable_selectingModule (n : Int) : Readable [selectingModule n] := by
  constructor
  · rw [List.forall_mem_singleton]
    exact ⟨selectingJson n, 0, distinct_selectingJson n, readDocument_selectingJson n⟩
  · exact List.forall_mem_singleton.mpr (wrapsNodes_of_unwrapped (by rfl))

theorem sound_of_getElem? {n : Int} {m : Node} (index : Nat)
    (found : (selectingModule n).tree[index]? = some m) : m.Sound :=
  (selectingModule n).sound_of_mem_tree
    ((readable_selectingModule n).sound (List.mem_singleton_self _)) m (List.mem_of_getElem? found)

/-- The type of the selection. -/
def selectionType : TypeExpr :=
  .reference (some "Pick") [.object [], .reference (some "E") []]

@[simp]
theorem ofNode_selection : TypeExpr.ofNode selection = selectionType := by
  have selectionSound : selection.Sound := sound_of_getElem? (n := 0) 10 rfl
  have objectSound : (typeLiteral []).Sound := sound_of_getElem? (n := 0) 13 rfl
  have object : TypeExpr.ofNode (typeLiteral []) = .object [] := by
    rw [ofNode_of_sound objectSound]
    rfl
  rw [ofNode_of_sound selectionSound]
  change TypeExpr.reference (identifier "Pick").entityName?
    [.ofNode (typeLiteral []), .ofNode (reference "E" [])] = _
  rw [entityName?_identifier, object, ofNode_reference, selectionType]

/-- What the enum declares. -/
def numberedMembers (n : Int) : List EnumValue :=
  [.literal (.number (.int n)), .implicit]

/-- What is declared in the module. -/
def selectingRegistry (n : Int) : Registry Declaration :=
  ⟨[("E", [.enumeration (numberedMembers n)]), ("P", [.alias [] selectionType])]⟩

@[simp]
theorem registryOf_selectingModule (n : Int) :
    registryOf [selectingModule n] = selectingRegistry n := by
  have declarations : [selectingModule n].flatMap declarationNodes =
      [numberedEnum n, typeAlias "P" selection []] := by
    rw [List.flatMap_singleton, declarationNodes, Node.walk_eq_tree]
    rfl
  have enumEq : registration (numberedEnum n) =
      (some "E", false, .enumeration (numberedMembers n)) := by
    have sound : (numberedEnum n).Sound := sound_of_getElem? (n := n) 1 rfl
    rw [registration, ofNode_of_enum sound rfl]
    change ((identifier "E").entityName?, _) = _
    rw [entityName?_identifier]
    rfl
  have aliasEq : registration (typeAlias "P" selection []) =
      (some "P", false, .alias [] selectionType) := by
    change ((identifier "P").entityName?, false, Declaration.alias [] (TypeExpr.ofChild _ _)) = _
    rw [entityName?_identifier, ofChild_eq]
    exact congrArg (fun type => (some "P", false, Declaration.alias [] type)) ofNode_selection
  rw [registryOf_eq, declarations, List.map_cons, List.map_singleton, enumEq, aliasEq]
  rfl

/-- The context of the module. -/
def selectingContext (n : Int) : Context where
  registry := selectingRegistry n
  maxDepth := .int 10

@[simp]
theorem enumShape_numberedMembers (n : Int) :
    enumShape (numberedMembers n) = .oneOf [.number (.int n), .number (.int (n + 1))] := by
  have apart : Literal.same (.number (.int n)) (.number (.int (n + 1))) = false := by
    change (n == n + 1) = false
    rw [beq_eq_false_iff_ne]
    omega
  change Shape.oneOf (dedupe Literal.same [.number (.int n), .number (.int (n + 1))]) = _
  simp [dedupe, apart]

/-- The alias cannot be resolved if the value after that of the first member has too many
digits. -/
theorem outcome_resolveName_of_long {n : Int} (long : (Number.int (n + 1)).isUnwritable = true) :
    (resolveName (selectingContext n) "P" []).outcome = .error .unwritableInteger := by
  have declared : (selectingContext n).registry.get "P" = [.alias [] selectionType] := by rfl
  rw [Resolution.outcome_resolveName_of_last declared rfl rfl rfl]
  change (resolveType _ selectionType).outcome.map Shape.returned = _
  generalize scopeEq : ((selectingContext n).entering "P").nested.binding
    (Frame.ofArguments [] []) = scope
  have object : (resolveType scope (.object [])).outcome = .ok (.object []) := by
    have shallow : scope.tooDeep = false := by rw [← scopeEq]; rfl
    rw [resolveType, if_neg (by rw [shallow]; decide), resolveMembers]
    rfl
  have keys : (resolveType scope (.reference (some "E") [])).outcome =
      .ok (.oneOf [.number (.int n), .number (.int (n + 1))]) := by
    have unbound : scope.bound? "E" = none := by rw [← scopeEq]; rfl
    have contained : scope.registry.contains "E" = true := by rw [← scopeEq]; rfl
    have declared : scope.registry.get "E" = [.enumeration (numberedMembers n)] := by
      rw [← scopeEq]
      rfl
    rw [resolveType]
    simp only [unbound, contained, if_true, resolveAll, pure_bind]
    rw [Resolution.outcome_resolveName_of_last declared rfl (by rw [← scopeEq]; rfl)
      (by rw [← scopeEq]; rfl), ← enumShape_numberedMembers]
    rfl
  have fault : Shape.selectFault? (.object [])
      (.oneOf [.number (.int n), .number (.int (n + 1))]) = some .unwritableInteger := by
    simp [Shape.selectFault?, Literal.isUnwritable, long]
  rw [selectionType, Resolution.outcome_resolveType_pick (by rw [← scopeEq]; rfl)
    (by rw [← scopeEq]; rfl) object keys, fault]
  rfl

/-- The selection is read from a module and still cannot be resolved, as the value after the
greatest integer that can be written is a key. -/
theorem stops_of_long_enum :
    ¬ ∀ modules, Readable modules → ∀ context : Context, context.registry = registryOf modules →
      ∀ name arguments, ∃ shape, (resolveName context name arguments).outcome = .ok shape := by
  intro returns
  obtain ⟨n, next⟩ : ∃ n : Int, n + 1 = Number.firstUnwritable :=
    ⟨Number.firstUnwritable - 1, Int.sub_add_cancel _ _⟩
  have long : (Number.int (n + 1)).isUnwritable = true := by
    rw [next, Number.isUnwritable, Int.natAbs_natCast]
    exact decide_eq_true (Nat.le_refl _)
  obtain ⟨shape, returned⟩ := returns _ (readable_selectingModule n) (selectingContext n)
    (registryOf_selectingModule n).symm "P" []
  rw [outcome_resolveName_of_long long] at returned
  cases returned

private theorem allWritable_selectingModule : AllWritable [selectingModule 7] := by
  rw [AllWritable, List.forall_mem_singleton]
  exact literalsAllowed_of_writesAll (by decide +kernel)

/-- With a short integer the alias is resolved, and the class is patched. -/
theorem returns_of_readable_selectingModule :
    Readable [selectingModule 7] ∧ AllWritable [selectingModule 7] ∧
      (∃ shape, (resolveName (selectingContext 7) "P" []).outcome = .ok shape) ∧
      ∃ results, (transformModule {} [] (selectingModule 7)).report.outcome = .ok results := by
  obtain ⟨resolution, patching⟩ := returns_of_readable (readable_selectingModule 7)
  refine ⟨readable_selectingModule 7, allWritable_selectingModule, ?_, ?_⟩
  · have named := (resolution (selectingContext 7) (registryOf_selectingModule 7).symm).1 "P" []
    exact named.1.exists_ok
      ⟨allWritable_selectingModule, fun shape mem => (by cases mem), writable_maxDepth_default⟩
  · exact (patching {} [] (selectingModule 7) (List.Subset.refl _)).exists_ok
      ⟨allWritable_selectingModule, writable_maxDepth_default⟩

end PropValidators
