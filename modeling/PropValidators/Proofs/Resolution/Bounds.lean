import PropValidators.Proofs.Resolution.Admission
import PropValidators.Proofs.Resolution.Growth

/-!
# How deep resolved shapes are, and what values are in them

The answer to a question is no deeper than the shapes that the question comes with and what is added
on top of them: the levels left, once for the question and once for each application inside another
one in it.  The literals in an answer are those that were met.
-/

namespace PropValidators

namespace Resolution

open Script Contract

/-! ## The contract -/

/-- How deep the shapes are that a question comes with.  The arguments of a name count only if it
is registered. -/
def Query.outset (context : Context) : Query → Nat
  | .name called arguments =>
      if context.registry.contains called then nestingOf arguments else 0
  | .interface _ _ _ arguments => nestingOf arguments
  | .members _ | .nullable _ | .type _ => nestingOf context.boundShapes

/-- How deep the answer to a question can be. -/
def Query.bound (context : Context) (query : Query) : Nat :=
  query.outset context +
    (heightOf context.registry.applications query.parts + 1) * context.growth

/-- The shapes in an answer are within bounds. -/
def Query.AnswerWithin (allowed : Literal → Prop) (bound : Nat) :
    (query : Query) → query.Answer → Prop
  | .name _ _, shape | .type _, shape => Shape.Within allowed bound shape
  | .interface _ _ _ _, fields | .members _, fields =>
      ∀ field ∈ fields, field.shape.Within allowed bound
  | .nullable _, answer => Shape.Within allowed bound answer.1

/-- Where all that is met is admitted, answers are within bounds, or there is a fault that is
admitted. -/
def boundContract (admission : Admission) : Contract where
  Asks context query := admission.AdmitsAround context ∧
    (query.isOpen → admission.AdmitsInnermost context) ∧ admission.AdmitsQuery query
  Holds context query := query.AnswerWithin admission.literal (query.bound context)
  Admits := admission.fault

/-! ## The scripts of open questions -/

variable {admission : Admission} {context : Context} {levels : Nat}

theorem keeps_askName_within {name : String} {arguments : List Shape}
    (around : admission.AdmitsAround context)
    (values : ∀ shape ∈ arguments, shape.Values admission.literal) {bound : Nat}
    (le : (if context.registry.contains name then nestingOf arguments else 0) + context.growth ≤
      bound) :
    (boundContract admission).Keeps (Shape.Within admission.literal bound)
      (askName context name arguments) := by
  have asks : (boundContract admission).Asks context (.name name arguments) :=
    ⟨around, (fun isOpen => by cases isOpen), values⟩
  refine (keeps_question asks).imp fun shape within => Shape.Within.mono within (le_trans ?_ le)
  change _ + (0 + 1) * context.growth ≤ _
  rw [Nat.zero_add, Nat.one_mul]
  exact le_rfl

section Open

variable (around : admission.AdmitsAround context)
  (innermost : admission.AdmitsInnermost context)

include around innermost

theorem keeps_askType_within {type : TypeExpr} (admits : admission.Admits type)
    (lower : TypeExpr.division.height context.registry.applications type ≤ levels) :
    (boundContract admission).Keeps (Shape.Within admission.literal (context.reach levels))
      (askType context type) := by
  have asks : (boundContract admission).Asks context (.type type) :=
    ⟨around, fun _ => innermost, admits⟩
  refine (keeps_question asks).imp fun shape within =>
    Shape.Within.mono within (Context.reach_mono ?_)
  rwa [Query.parts, heightOf_singleton]

theorem keeps_askNullable_within {type : TypeExpr} (admits : admission.Admits type)
    (lower : TypeExpr.division.height context.registry.applications type ≤ levels) :
    (boundContract admission).Keeps
      (fun answer => answer.1.Within admission.literal (context.reach levels))
      (askNullable context type) := by
  have asks : (boundContract admission).Asks context (.nullable type) :=
    ⟨around, fun _ => innermost, admits⟩
  refine (keeps_question asks).imp fun answer within =>
    Shape.Within.mono within (Context.reach_mono ?_)
  rwa [Query.parts, heightOf_singleton]

theorem keeps_askMembers_within {members : List TypeMember}
    (admits : admission.AdmitsMembers members)
    (lower : heightOf context.registry.applications (memberTypes members) ≤ levels) :
    (boundContract admission).Keeps
      (fun fields => ∀ field ∈ fields,
        field.shape.Within admission.literal (context.reach levels))
      (askMembers context members) := by
  have asks : (boundContract admission).Asks context (.members members) :=
    ⟨around, fun _ => innermost, admits⟩
  exact (keeps_question asks).imp fun fields within field mem =>
    (within field mem).mono (Context.reach_mono lower)

theorem keeps_askTypes_within {types : List TypeExpr}
    (admits : ∀ type ∈ types, admission.Admits type)
    (lower : heightOf context.registry.applications types ≤ levels) :
    (boundContract admission).Keeps
      (fun shapes => shapes.length = types.length ∧
        ∀ shape ∈ shapes, shape.Within admission.literal (context.reach levels))
      (askTypes context types) :=
  keeps_collect fun type mem => keeps_askType_within around innermost (admits type mem)
    ((height_le_heightOf mem).trans lower)

/-- The arguments of a reference are resolved before the name, and the levels of the name come on
top of theirs. -/
theorem keeps_application_within (name : String) {arguments : List TypeExpr}
    (admits : ∀ argument ∈ arguments, admission.Admits argument)
    (lower : TypeExpr.division.height context.registry.applications
      (.reference (some name) arguments) ≤ levels) :
    (boundContract admission).Keeps (Shape.Within admission.literal (context.reach levels))
      (do
        let shapes ← askTypes context arguments
        askName context name shapes) := by
  rw [height_eq_add_heightOf] at lower
  refine keeps_bind (keeps_askTypes_within around innermost admits le_rfl)
    fun shapes within => ?_
  refine keeps_askName_within around (fun shape mem => (within.2 shape mem).values) ?_
  have growthLe := context.growth_le_mul levels
  have start : context.reach levels =
    nestingOf context.boundShapes + (levels + 1) * context.growth := rfl
  -- An unregistered name is unknown whatever its arguments are, so there they do not count.
  by_cases registered : context.registry.contains name
  · rw [if_pos registered]
    cases arguments with
    | nil =>
        obtain rfl := List.length_eq_zero_iff.mp within.1
        change 0 + context.growth ≤ _
        omega
    | cons first rest =>
        have weight : context.registry.applications (.reference (some name) (first :: rest)) = 1 :=
          if_pos registered
        change context.registry.applications _ +
          heightOf context.registry.applications (first :: rest) ≤ levels at lower
        have shapesLe : nestingOf shapes ≤
            context.reach (heightOf context.registry.applications (first :: rest)) :=
          nestingOf_le_iff.mpr fun shape mem => (within.2 shape mem).nesting_le
        calc nestingOf shapes + context.growth
          _ ≤ context.reach (heightOf context.registry.applications (first :: rest)) +
                context.growth := Nat.add_le_add_right shapesLe _
          _ = context.reach (heightOf context.registry.applications (first :: rest) + 1) :=
              Context.reach_succ context _
          _ ≤ context.reach levels := Context.reach_mono (by omega)
  · rw [if_neg registered]
    omega

theorem keeps_askFirst_within {types : List TypeExpr}
    (admits : ∀ type ∈ types, admission.Admits type)
    (lower : heightOf context.registry.applications types ≤ levels) :
    (boundContract admission).Keeps (Shape.Within admission.literal (context.reach levels))
      (askFirst context types) := by
  cases types with
  | nil => exact keeps_pure Shape.within_unknown
  | cons type more =>
      exact keeps_askType_within around innermost (admits type List.mem_cons_self)
        ((height_le_heightOf List.mem_cons_self).trans lower)

theorem keeps_memberField_within {members : List TypeMember}
    (admits : admission.AdmitsMembers members)
    (lower : heightOf context.registry.applications (memberTypes members) ≤ levels)
    (member : TypeMember) : member ∈ members → (boundContract admission).Keeps
      (fun field => field.shape.Within admission.literal (context.reach levels))
      (match member with
        | .property name type optional => do
            let (shape, nullable) ← askNullable context type
            return ⟨name, shape, optional || nullable, false⟩
        | .method name optional => return ⟨name, .primitive .function, optional, false⟩
        | .malformed fault => .done (.error fault) : Script Field) := by
  intro mem
  cases member with
  | property name type optional =>
      have typeMem := mem_memberTypes_of_property mem
      exact keeps_bind (keeps_askNullable_within around innermost (admits.types type typeMem)
        ((height_le_heightOf typeMem).trans lower)) fun answer within => keeps_pure within
  | method name optional => exact keeps_pure (Shape.within_primitive .function)
  | malformed fault => exact keeps_fault (admits.faults fault mem)

theorem keeps_scriptOfMembers_within {members : List TypeMember}
    (admits : admission.AdmitsMembers members)
    (lower : heightOf context.registry.applications (memberTypes members) ≤ levels) :
    (boundContract admission).Keeps
      (fun fields => ∀ field ∈ fields,
        field.shape.Within admission.literal (context.reach levels))
      (scriptOfMembers context members) := by
  refine keeps_bind (keeps_collect fun member mem =>
    keeps_memberField_within around innermost admits lower member mem)
    fun fields within => keeps_pure (Shape.within_of_mem_mergeFields fun group mem => ?_)
  obtain rfl := List.mem_singleton.mp mem
  exact within.2

theorem keeps_scriptOfNullable_within {type : TypeExpr} (admits : admission.Admits type)
    (lower : TypeExpr.division.height context.registry.applications type ≤ levels) :
    (boundContract admission).Keeps
      (fun answer => answer.1.Within admission.literal (context.reach levels))
      (scriptOfNullable context type) := by
  have bareAdmits := admits.bare
  have bareLower := (height_bare_le context.registry.applications type).trans lower
  unfold scriptOfNullable
  split
  · exact keeps_pure Shape.within_unknown
  · rename_i types bareEq
    rw [bareEq] at bareAdmits
    rw [bareEq, height_eq_add_heightOf] at bareLower
    have keptLower : heightOf context.registry.applications
        (types.filter fun type => !type.isNullish) ≤ levels :=
      (heightOf_mono (List.filter_subset_self types)).trans ((Nat.le_add_left _ _).trans bareLower)
    refine keeps_bind (keeps_askTypes_within around innermost (fun type mem => ?_) keptLower)
      fun shapes within => keeps_pure (Shape.within_unionShape within.2)
    exact bareAdmits.part (List.mem_filter.mp mem).1
  · exact keeps_bind (keeps_askType_within around innermost bareAdmits bareLower)
      fun shape within => keeps_pure within

theorem keeps_scriptOfSelection_within (keep : Bool) {shape : Shape}
    (within : shape.Within admission.literal (context.reach levels)) {keys : List TypeExpr}
    (admits : ∀ type ∈ keys, admission.Admits type)
    (lower : heightOf context.registry.applications keys ≤ levels) :
    (boundContract admission).Keeps (Shape.Within admission.literal (context.reach levels))
      (scriptOfSelection context keep shape keys) := by
  refine keeps_bind (keeps_askFirst_within around innermost admits lower)
    fun names namesWithin => ?_
  refine keeps_bind (keeps_check fun fault faultEq => ?_) fun _ _ =>
    keeps_pure (within.select keep names)
  rw [Shape.selectFault?.eq_def] at faultEq
  split at faultEq
  · split at faultEq
    · rename_i some
      cases faultEq
      obtain ⟨key, keyMem, unwritable⟩ := List.any_eq_true.mp some
      exact admission.unwritable key (Shape.within_oneOf.mp namesWithin key keyMem) unwritable
    · cases faultEq
  · cases faultEq

theorem keeps_scriptOfUtility_within (utility : Utility) {target : TypeExpr}
    {keys : List TypeExpr} (admits : ∀ type ∈ target :: keys, admission.Admits type)
    (lower : heightOf context.registry.applications (target :: keys) ≤ levels) :
    (boundContract admission).Keeps (Shape.Within admission.literal (context.reach levels))
      (scriptOfUtility context utility target keys) := by
  rw [List.forall_mem_cons] at admits
  have keysLower := (heightOf_mono (List.subset_cons_self target keys)).trans lower
  have targetLower := (height_le_heightOf List.mem_cons_self).trans lower
  refine keeps_bind (keeps_askType_within around innermost admits.1 targetLower)
    fun shape within => ?_
  split
  · exact keeps_pure within
  · exact keeps_pure (within.markOptional true)
  · exact keeps_pure (within.markOptional false)
  · exact keeps_scriptOfSelection_within around innermost true within admits.2 keysLower
  · exact keeps_scriptOfSelection_within around innermost false within admits.2 keysLower

theorem keeps_scriptOfReference_within (name : String) {arguments : List TypeExpr}
    (admits : ∀ argument ∈ arguments, admission.Admits argument)
    (lower : TypeExpr.division.height context.registry.applications
      (.reference (some name) arguments) ≤ levels) :
    (boundContract admission).Keeps (Shape.Within admission.literal (context.reach levels))
      (scriptOfReference context name arguments) := by
  have below : heightOf context.registry.applications arguments ≤ levels := by
    rw [height_eq_add_heightOf] at lower
    exact (Nat.le_add_left _ _).trans lower
  rw [scriptOfReference.eq_def]
  split
  · rename_i shape bound
    obtain ⟨frame, head, inFrame⟩ := Option.bind_eq_some_iff.mp bound
    obtain ⟨⟨other, held⟩, find, rfl⟩ := Option.map_eq_some_iff.mp inFrame
    have bindingMem := List.mem_reverse.mp (List.mem_of_find?_eq_some find)
    have shapeMem : held ∈ context.boundShapes := by
      rw [Context.boundShapes, head]
      exact List.mem_map_of_mem bindingMem
    refine keeps_pure ((innermost frame head _ bindingMem).within.mono ?_)
    exact (nesting_le_nestingOf shapeMem).trans (Nat.le_add_right _ _)
  · split
    · exact keeps_application_within around innermost name admits lower
    · split
      · split
        · exact keeps_pure (Shape.within_array.mpr Shape.within_unknown)
        · exact keeps_bind (keeps_askType_within around innermost
            (admits _ List.mem_cons_self) ((height_le_heightOf List.mem_cons_self).trans below))
            fun shape within => keeps_pure (Shape.within_array.mpr within)
      · split
        · exact keeps_scriptOfUtility_within around innermost _ admits below
        · split
          · exact keeps_pure (Shape.within_primitive _)
          · refine keeps_askName_within around (List.forall_mem_nil _) ?_
            have growthLe := context.growth_le_mul levels
            have outset : (if context.registry.contains name then nestingOf [] else 0) = 0 :=
              ite_self 0
            rw [outset, Nat.zero_add]
            exact growthLe.trans (Nat.le_add_left _ _)

theorem keeps_scriptOfType_within {type : TypeExpr} (admits : admission.Admits type)
    (lower : TypeExpr.division.height context.registry.applications type ≤ levels) :
    (boundContract admission).Keeps (Shape.Within admission.literal (context.reach levels))
      (scriptOfType Context.tooDeep context type) := by
  have below : heightOf context.registry.applications type.parts ≤ levels := by
    rw [height_eq_add_heightOf] at lower
    exact (Nat.le_add_left _ _).trans lower
  have part : ∀ {inner}, inner ∈ type.parts → (boundContract admission).Keeps
      (Shape.Within admission.literal (context.reach levels)) (askType context inner) :=
    fun mem => keeps_askType_within around innermost (admits.part mem)
      ((height_le_heightOf mem).trans below)
  have parts : (boundContract admission).Keeps (fun shapes => shapes.length = type.parts.length ∧
      ∀ shape ∈ shapes, shape.Within admission.literal (context.reach levels))
      (askTypes context type.parts) :=
    keeps_askTypes_within around innermost (fun _ => admits.part) below
  cases type with
  | primitive kind => exact keeps_pure (Shape.within_primitive kind)
  | function => exact keeps_pure (Shape.within_primitive .function)
  | template => exact keeps_pure (Shape.within_primitive .string)
  | literal value =>
      exact keeps_pure (Shape.within_oneOf.mpr (List.forall_mem_singleton.mpr admits.here))
  | reference name arguments =>
      cases name with
      | none => exact keeps_pure Shape.within_unknown
      | some name =>
          exact keeps_scriptOfReference_within around innermost name
            (fun _ => admits.part) lower
  | object members =>
      simp only [scriptOfType]
      split
      · exact keeps_pure Shape.within_unknown
      · rename_i shallow
        have nested : admission.AdmitsAround context.nested := ⟨around.registry, around.limit⟩
        have inner : admission.AdmitsInnermost context.nested := innermost
        refine keeps_bind (keeps_askMembers_within nested inner admits.members below)
          fun fields within => keeps_pure ?_
        have deeper := Context.reach_nested_lt (Bool.eq_false_iff.mpr shallow) levels
        exact Shape.Within.mono (Shape.within_object.mpr ⟨_, rfl, within⟩) deeper
  | array element =>
      exact keeps_bind (part (List.mem_singleton_self _)) fun shape within =>
        keeps_pure (Shape.within_array.mpr within)
  | tuple elements =>
      exact keeps_bind parts fun shapes within =>
        keeps_pure (Shape.within_array.mpr (Shape.within_unionShape within.2))
  | union types =>
      exact keeps_bind (keeps_askNullable_within around innermost admits lower)
        fun answer within => keeps_pure within
  | intersection operands =>
      exact keeps_bind parts fun shapes within =>
        keeps_pure (Shape.within_intersect within.2)
  | parenthesized inner => exact part (List.mem_singleton_self _)
  | annotated inner =>
      cases inner with
      | annotated deeper => exact keeps_pure Shape.within_unknown
      | _ => exact part (List.mem_singleton_self _)
  | keyof target =>
      exact keeps_bind (part (List.mem_singleton_self _)) fun shape _ =>
        keeps_pure (Shape.within_keys admission.text shape)
  | modified inner => exact part (List.mem_singleton_self _)
  | malformed fault => exact keeps_fault admits.here
  | _ => exact keeps_pure Shape.within_unknown

end Open

/-! ## The scripts of names and interfaces -/

section Closed

variable {arguments : List Shape} (around : admission.AdmitsAround context)
  (values : ∀ shape ∈ arguments, shape.Values admission.literal)

include values

theorem admitsInnermost_binding (parameters : List String) :
    admission.AdmitsInnermost (context.binding (Frame.ofArguments parameters arguments)) := by
  intro frame head binding mem
  cases head
  exact (within_of_mem_ofArguments admission.mapOrigin values mem).values

/-- Inside a declaration, no shape is bound that is deeper than the arguments. -/
theorem reach_binding_le (parameters : List String) (applications : Nat) :
    (context.binding (Frame.ofArguments parameters arguments)).reach applications ≤
      nestingOf arguments + (applications + 1) * context.growth := by
  refine Nat.add_le_add_right (nestingOf_le_iff.mpr fun shape mem => ?_) _
  obtain ⟨binding, bindingMem, rfl⟩ := List.mem_map.mp mem
  exact (within_of_mem_ofArguments admission.mapOrigin values bindingMem).nesting_le

include around

theorem keeps_scriptOfInterface_within {parameters : List String} {heritage : List Heritage}
    {members : List TypeMember}
    (admits : admission.AdmitsDeclaration (.interface parameters heritage members)) :
    (boundContract admission).Keeps
      (fun fields => ∀ field ∈ fields, field.shape.Within admission.literal
        ((Query.interface parameters heritage members arguments).bound context))
      (scriptOfInterface context parameters heritage members arguments) := by
  let scope := context.binding (Frame.ofArguments parameters arguments)
  let parts := (Declaration.interface parameters heritage members).parts
  have scopeAround : admission.AdmitsAround scope := ⟨around.registry, around.limit⟩
  have innermost : admission.AdmitsInnermost scope := admitsInnermost_binding values parameters
  have scopeLe : scope.reach (heightOf context.registry.applications parts) ≤
      (Query.interface parameters heritage members arguments).bound context :=
    reach_binding_le values parameters _
  have clauseLower : ∀ clause ∈ heritage,
      TypeExpr.division.height scope.registry.applications clause.reference ≤
        heightOf context.registry.applications parts := fun clause mem =>
    height_le_heightOf (List.mem_append_left _ (List.mem_map_of_mem mem))
  have membersLower : heightOf scope.registry.applications (memberTypes members) ≤
      heightOf context.registry.applications parts :=
    heightOf_mono (List.subset_append_right _ _)
  refine keeps_bind (keeps_collect fun clause mem => keeps_application_within scopeAround innermost
    clause.name (admits.1 clause mem) (clauseLower clause mem)) fun parents parentsWithin => ?_
  refine keeps_bind (keeps_askMembers_within scopeAround innermost admits.2 membersLower)
    fun own ownWithin => keeps_pure ?_
  rw [List.forall_mem_map]
  intro field mem
  rw [Field.returned, Field.shape_mapOrigins]
  refine (Shape.Within.returned admission.mapOrigin ?_).mono scopeLe
  refine Shape.within_of_mem_mergeFields (fun group groupMem => ?_) field mem
  rcases List.mem_append.mp groupMem with inherited | last
  · obtain ⟨parent, parentMem, fieldsEq⟩ := List.mem_flatMap.mp inherited
    cases parent with
    | object fields =>
        obtain rfl := List.mem_singleton.mp fieldsEq
        exact (parentsWithin.2 _ parentMem).fields_of_object
    | _ => cases fieldsEq
  · obtain rfl := List.mem_singleton.mp last
    exact ownWithin

theorem keeps_askGroup_within {declaration : Declaration}
    (admits : admission.AdmitsDeclaration declaration) :
    (boundContract admission).Keeps
      (fun fields => ∀ field ∈ fields, field.shape.Within admission.literal
        (nestingOf arguments +
          (heightOf context.registry.applications declaration.parts + 1) * context.growth))
      (askGroup context arguments declaration) := by
  cases declaration with
  | interface parameters heritage members =>
      have asks : (boundContract admission).Asks context
          (.interface parameters heritage members arguments) :=
        ⟨around, (fun isOpen => by cases isOpen), admits, values⟩
      exact keeps_question asks
  | _ => exact keeps_pure (List.forall_mem_nil _)

theorem keeps_askAlias_within {parameters : List String} {body : TypeExpr}
    (admits : admission.AdmitsDeclaration (.alias parameters body)) :
    (boundContract admission).Keeps
      (Shape.Within admission.literal
        (nestingOf arguments +
          (heightOf context.registry.applications (Declaration.alias parameters body).parts + 1) *
            context.growth))
      (do
        let shape ← askType (context.binding (Frame.ofArguments parameters arguments)) body
        return shape.returned) := by
  rw [Declaration.parts, heightOf_singleton]
  have scopeAround : admission.AdmitsAround
      (context.binding (Frame.ofArguments parameters arguments)) := ⟨around.registry, around.limit⟩
  exact keeps_bind (keeps_askType_within scopeAround
    (admitsInnermost_binding values parameters) admits le_rfl) fun shape within =>
      keeps_pure ((within.returned admission.mapOrigin).mono (reach_binding_le values parameters _))

omit around values in
theorem within_enumShape {members : List EnumValue}
    (admits : admission.AdmitsDeclaration (.enumeration members)) (bound : Nat) :
    (enumShape members).Within admission.literal bound := by
  rw [enumShape]
  split
  · rename_i listed valuesEq
    exact Shape.within_dedupe (admits listed valuesEq)
  · exact Shape.within_unknown

omit around values in
/-- A registered name adds one level, and what can be added in the levels further down. -/
theorem bound_of_registered {name : String} (registered : context.registry.contains name = true)
    (shallow : context.tooDeep = false) (arguments : List Shape) :
    (Query.name name arguments).bound context =
      nestingOf arguments +
        (context.registry.deepest + 1) * (context.entering name).nested.growth + 1 := by
  have grown : context.growth =
      (context.registry.deepest + 1) * (context.entering name).nested.growth + 1 :=
    Context.growth_of_shallow shallow
  change (if context.registry.contains name then nestingOf arguments else 0) +
    (0 + 1) * context.growth = _
  rw [if_pos registered, grown]
  omega

omit around values in
/-- No declaration has more applications inside one another than the deepest. -/
theorem declaration_bound_le {name : String} {declaration : Declaration}
    (mem : declaration ∈ context.registry.get name) (arguments : List Shape) (levels : Nat) :
    nestingOf arguments +
        (heightOf context.registry.applications declaration.parts + 1) * levels ≤
      nestingOf arguments + (context.registry.deepest + 1) * levels :=
  Nat.add_le_add_left
    (Nat.mul_le_mul_right _ (Nat.succ_le_succ (Registry.heightOf_le_deepest mem))) _

theorem keeps_scriptOfName_within (name : String) :
    (boundContract admission).Keeps
      (Shape.Within admission.literal ((Query.name name arguments).bound context))
      (scriptOfName Context.tooDeep context name arguments) := by
  unfold scriptOfName
  split
  · exact keeps_pure Shape.within_unknown
  · cases declared : context.registry.get name with
    | nil => exact keeps_pure Shape.within_unknown
    | cons first more =>
        dsimp only
        split
        · exact keeps_bind (keeps_check around.limit) fun _ _ => keeps_pure Shape.within_unknown
        · rename_i shallow
          let inner := (context.entering name).nested
          have innerAround : admission.AdmitsAround inner := ⟨around.registry, around.limit⟩
          have admits : ∀ declaration ∈ first :: more, admission.AdmitsDeclaration declaration :=
            fun declaration mem => around.registry name declaration (declared ▸ mem)
          have registered : context.registry.contains name = true := by
            refine List.contains_iff_mem.mpr (Registry.mem_names_of_get_ne_nil ?_)
            rw [declared]
            exact List.cons_ne_nil first more
          have lower : ∀ declaration ∈ first :: more, nestingOf arguments +
              (heightOf context.registry.applications declaration.parts + 1) * inner.growth ≤
                nestingOf arguments + (context.registry.deepest + 1) * inner.growth :=
            fun declaration mem => declaration_bound_le (declared ▸ mem) arguments inner.growth
          rw [bound_of_registered registered (Bool.eq_false_iff.mpr shallow)]
          split
          · refine keeps_bind (keeps_collect fun declaration mem =>
              (keeps_askGroup_within innerAround values (admits declaration mem)).imp
                fun fields within field fieldMem =>
                  (within field fieldMem).mono (lower declaration mem)) fun groups within => ?_
            exact keeps_pure (Shape.within_object.mpr
              ⟨_, rfl, Shape.within_of_mem_mergeFields within.2⟩)
          · have lastAdmits := admits _ (getLast?_getD_mem first more)
            have lastLower := lower _ (getLast?_getD_mem first more)
            split
            · rename_i parameters body found
              rw [found] at lastAdmits lastLower
              exact (keeps_askAlias_within innerAround values lastAdmits).imp fun shape within =>
                Shape.Within.mono within (lastLower.trans (Nat.le_succ _))
            · rename_i members found
              exact keeps_pure (within_enumShape (found ▸ lastAdmits) _)
            · exact keeps_pure Shape.within_unknown

end Closed

/-! ## Answers -/

theorem keeps_script_within {query : Query} (asks : (boundContract admission).Asks context query) :
    (boundContract admission).Keeps ((boundContract admission).Holds context query)
      (script Context.tooDeep context query) := by
  obtain ⟨around, innermost, admits⟩ := asks
  cases query with
  | name name arguments => exact keeps_scriptOfName_within around admits name
  | interface parameters heritage members arguments =>
      exact keeps_scriptOfInterface_within around admits.2 admits.1
  | members members =>
      exact keeps_scriptOfMembers_within around (innermost rfl) admits le_rfl
  | nullable type =>
      exact keeps_scriptOfNullable_within around (innermost rfl) admits
        (height_le_heightOf List.mem_cons_self)
  | type type =>
      exact keeps_scriptOfType_within around (innermost rfl) admits
        (height_le_heightOf List.mem_cons_self)

/-- The outcomes of questions are within bounds, or faults that are admitted. -/
theorem arrives_within {query : Query} (asks : (boundContract admission).Asks context query) :
    (boundContract admission).Arrives
      (query.AnswerWithin admission.literal (query.bound context)) (resolved context query) :=
  arrives_resolved (fun _ _ => keeps_script_within) asks

end Resolution

end PropValidators
