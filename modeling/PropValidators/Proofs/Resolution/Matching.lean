import PropValidators.Proofs.Resolution.Alike
import PropValidators.Proofs.Resolution.Levels

/-!
# What the shape of a type depends on

Contexts run alongside each other if they have the same declarations, the same names being
resolved and the same depth, and if limits that differ are further away than a resolution can go.
They match for a question if moreover the same shapes are bound in their innermost frames; on
these bindings, questions about a name or an interface do not depend at all.  Contexts that match
for a question match for all the questions of its script, so they have the same answer.

The main statement is that type parameters are in scope nowhere but in their own declaration.
-/

namespace PropValidators.Resolution

open Script

/-- Contexts that differ in their bindings, and in limits that are out of reach for some levels
and for the declarations that are still to come. -/
structure Alongside (first second : Context) (levels : Nat) : Prop where
  registry : first.registry = second.registry
  visited : ∀ name, first.visited.contains name = second.visited.contains name
  depth : first.depth = second.depth
  limits : first.maxDepth = second.maxDepth ∨
    (first.depth + levels + first.levelsLeft : Nat) ≤ first.limit ∧
      (first.depth + levels + first.levelsLeft : Nat) ≤ second.limit

namespace Alongside

variable {first second : Context} {levels fewer : Nat}

theorem mono (alongside : Alongside first second levels) (le : fewer ≤ levels) :
    Alongside first second fewer where
  registry := alongside.registry
  visited := alongside.visited
  depth := alongside.depth
  limits := alongside.limits.imp_right fun ⟨firstLimit, secondLimit⟩ => ⟨by omega, by omega⟩

/-- The limits cut off the same, where a level or a declaration is still to come. -/
theorem tooDeep_eq (alongside : Alongside first second levels)
    (deeper : 0 < levels + first.levelsLeft) : first.tooDeep = second.tooDeep := by
  have depthEq := alongside.depth
  rw [Context.tooDeep, Context.tooDeep]
  rcases alongside.limits with same | ⟨firstLimit, secondLimit⟩
  · rw [Context.limit, Context.limit, same, depthEq]
  · rw [decide_eq_false (by omega), decide_eq_false (by omega)]

/-- Where a limit cuts off although a level or a declaration is still to come, it is the limit of
both. -/
theorem maxDepth_eq (alongside : Alongside first second levels)
    (deeper : 0 < levels + first.levelsLeft) (deep : first.tooDeep = true) :
    first.maxDepth = second.maxDepth := by
  refine alongside.limits.resolve_right fun ⟨firstLimit, _⟩ => ?_
  have reached := of_decide_eq_true deep
  omega

theorem nested (alongside : Alongside first second (1 + levels)) :
    Alongside first.nested second.nested levels where
  registry := alongside.registry
  visited := alongside.visited
  depth := congrArg Nat.succ alongside.depth
  limits := by
    refine alongside.limits.imp_right fun ⟨firstLimit, secondLimit⟩ => ?_
    change (first.depth + 1 + levels + first.levelsLeft : Nat) ≤ first.limit ∧
      (first.depth + 1 + levels + first.levelsLeft : Nat) ≤ second.limit
    omega

/-- Inside a name that is not being resolved, there are as many levels as in a declaration. -/
theorem entering {name : String} {declaration : Declaration}
    (alongside : Alongside first second 0) (fresh : first.visited.contains name = false)
    (mem : declaration ∈ first.registry.get name) :
    Alongside (first.entering name).nested (second.entering name).nested
      (heightOf TypeExpr.levels declaration.parts) where
  registry := alongside.registry
  visited other := by
    change (first.entering name).visited.contains other =
      (second.entering name).visited.contains other
    rw [Context.contains_visited_entering, Context.contains_visited_entering, alongside.visited]
  depth := congrArg Nat.succ alongside.depth
  limits := by
    have left := Context.levels_add_levelsLeft_entering_le fresh mem
    rw [Declaration.levels] at left
    refine alongside.limits.imp_right fun ⟨firstLimit, secondLimit⟩ => ?_
    change (first.depth + 1 + _ + (first.entering name).levelsLeft : Nat) ≤ first.limit ∧
      (first.depth + 1 + _ + (first.entering name).levelsLeft : Nat) ≤ second.limit
    omega

/-- Bindings make no difference. -/
theorem binding (alongside : Alongside first second levels) (frame : Frame) :
    Alongside (first.binding frame) (second.binding frame) levels :=
  ⟨alongside.registry, alongside.visited, alongside.depth, alongside.limits⟩

end Alongside

/-- Contexts in which a question has the same answer. -/
structure Matching (first second : Context) (query : Query) : Prop where
  alongside : Alongside first second (heightOf TypeExpr.levels query.parts)
  innermost : query.isOpen → first.bindings.head? = second.bindings.head?

section Scripts

variable {first second : Context}

theorem alike_askName (alongside : Alongside first second 0) (name : String)
    (arguments : List Shape) :
    Alike Matching (askName first name arguments) (askName second name arguments) :=
  .question ⟨alongside, fun isOpen => by cases isOpen⟩

variable {levels : Nat} (alongside : Alongside first second levels)
  (innermost : first.bindings.head? = second.bindings.head?)

include alongside innermost

theorem alike_askType {type : TypeExpr}
    (lower : TypeExpr.division.height TypeExpr.levels type ≤ levels) :
    Alike Matching (askType first type) (askType second type) :=
  .question ⟨alongside.mono (by rwa [Query.parts, heightOf_singleton]), fun _ => innermost⟩

theorem alike_askNullable {type : TypeExpr}
    (lower : TypeExpr.division.height TypeExpr.levels type ≤ levels) :
    Alike Matching (askNullable first type) (askNullable second type) :=
  .question ⟨alongside.mono (by rwa [Query.parts, heightOf_singleton]), fun _ => innermost⟩

theorem alike_askTypes {types : List TypeExpr}
    (lower : heightOf TypeExpr.levels types ≤ levels) :
    Alike Matching (askTypes first types) (askTypes second types) :=
  .collect fun _ mem => alike_askType alongside innermost ((height_le_heightOf mem).trans lower)

theorem alike_askMembers {members : List TypeMember}
    (lower : heightOf TypeExpr.levels (memberTypes members) ≤ levels) :
    Alike Matching (askMembers first members) (askMembers second members) :=
  .question ⟨alongside.mono lower, fun _ => innermost⟩

private theorem alike_askFirst {types : List TypeExpr}
    (lower : heightOf TypeExpr.levels types ≤ levels) :
    Alike Matching (askFirst first types) (askFirst second types) := by
  cases types with
  | nil => exact .pure _
  | cons type more =>
      exact alike_askType alongside innermost
        ((height_le_heightOf List.mem_cons_self).trans lower)

private theorem alike_scriptOfMembers {members : List TypeMember}
    (lower : heightOf TypeExpr.levels (memberTypes members) ≤ levels) :
    Alike Matching (scriptOfMembers first members) (scriptOfMembers second members) := by
  refine .bind (.collect fun member mem => ?_) fun fields => .pure _
  cases member with
  | property name type optional =>
      have typeLower : TypeExpr.division.height TypeExpr.levels type ≤
          heightOf TypeExpr.levels (memberTypes members) :=
        height_le_heightOf (mem_memberTypes_of_property mem)
      exact .bind (alike_askNullable alongside innermost (typeLower.trans lower))
        fun answer => .pure _
  | method name optional => exact .pure _
  | malformed fault => exact .done _

private theorem alike_scriptOfNullable {type : TypeExpr}
    (lower : TypeExpr.division.height TypeExpr.levels type ≤ levels) :
    Alike Matching (scriptOfNullable first type) (scriptOfNullable second type) := by
  have bareLower := (height_bare_le TypeExpr.levels type).trans lower
  unfold scriptOfNullable
  split
  · exact .pure _
  · rename_i types bareEq
    rw [bareEq, height_eq_add_heightOf] at bareLower
    have keptLower : heightOf TypeExpr.levels (types.filter fun type => !type.isNullish) ≤ levels :=
      (heightOf_mono (List.filter_subset_self types)).trans ((Nat.le_add_left _ _).trans bareLower)
    exact .bind (alike_askTypes alongside innermost keptLower) fun shapes => .pure _
  · exact .bind (alike_askType alongside innermost bareLower) fun shape => .pure _

private theorem alike_scriptOfSelection (keep : Bool) (shape : Shape) {keys : List TypeExpr}
    (lower : heightOf TypeExpr.levels keys ≤ levels) :
    Alike Matching (scriptOfSelection first keep shape keys)
      (scriptOfSelection second keep shape keys) :=
  .bind (alike_askFirst alongside innermost lower) fun _ =>
    .bind (.check _) fun _ => .pure _

private theorem alike_scriptOfUtility (utility : Utility) {target : TypeExpr} {keys : List TypeExpr}
    (lower : heightOf TypeExpr.levels (target :: keys) ≤ levels) :
    Alike Matching (scriptOfUtility first utility target keys)
      (scriptOfUtility second utility target keys) := by
  have keysLower := (heightOf_mono (List.subset_cons_self target keys)).trans lower
  have targetLower := (height_le_heightOf List.mem_cons_self).trans lower
  refine .bind (alike_askType alongside innermost targetLower) fun shape => ?_
  split
  · exact .pure _
  · exact .pure _
  · exact .pure _
  · exact alike_scriptOfSelection alongside innermost true shape keysLower
  · exact alike_scriptOfSelection alongside innermost false shape keysLower

private theorem alike_scriptOfReference (name : String) {arguments : List TypeExpr}
    (lower : heightOf TypeExpr.levels arguments ≤ levels) :
    Alike Matching (scriptOfReference first name arguments)
      (scriptOfReference second name arguments) := by
  have boundEq : first.bound? name = second.bound? name := by
    rw [Context.bound?, Context.bound?, innermost]
  have named := alike_askName (alongside.mono (Nat.zero_le _)) name
  rw [scriptOfReference.eq_def, scriptOfReference.eq_def, boundEq, alongside.registry]
  split
  · exact .pure _
  · split
    · exact .bind (alike_askTypes alongside innermost lower) fun shapes => named shapes
    · split
      · split
        · exact .pure _
        · exact .bind (alike_askType alongside innermost
            ((height_le_heightOf List.mem_cons_self).trans lower)) fun shape => .pure _
      · split
        · exact alike_scriptOfUtility alongside innermost _ lower
        · split
          · exact .pure _
          · exact named []

private theorem alike_scriptOfType {type : TypeExpr}
    (lower : TypeExpr.division.height TypeExpr.levels type ≤ levels) :
    Alike Matching (scriptOfType Context.tooDeep first type)
      (scriptOfType Context.tooDeep second type) := by
  have below : heightOf TypeExpr.levels type.parts ≤ levels := by
    rw [height_eq_add_heightOf] at lower
    exact (Nat.le_add_left _ _).trans lower
  have part : ∀ {inner}, inner ∈ type.parts →
      Alike Matching (askType first inner) (askType second inner) :=
    fun mem => alike_askType alongside innermost ((height_le_heightOf mem).trans below)
  cases type with
  | reference name arguments =>
      cases name with
      | none => exact .pure _
      | some name => exact alike_scriptOfReference alongside innermost name below
  | object members =>
      have inside : Alongside first second
          (1 + heightOf TypeExpr.levels (memberTypes members)) := by
        rw [height_eq_add_heightOf] at lower
        exact alongside.mono lower
      rw [scriptOfType, scriptOfType, inside.tooDeep_eq (by omega)]
      split
      · exact .pure _
      · exact .bind (alike_askMembers inside.nested innermost le_rfl) fun fields => .pure _
  | array element => exact .bind (part (List.mem_singleton_self _)) fun shape => .pure _
  | tuple elements => exact .bind (alike_askTypes alongside innermost below) fun shapes => .pure _
  | union types => exact .bind (alike_askNullable alongside innermost lower) fun answer => .pure _
  | intersection operands =>
      exact .bind (alike_askTypes alongside innermost below) fun shapes => .pure _
  | parenthesized inner => exact part (List.mem_singleton_self _)
  | annotated inner =>
      cases inner with
      | annotated deeper => exact .pure _
      | _ => exact part (List.mem_singleton_self _)
  | keyof target => exact .bind (part (List.mem_singleton_self _)) fun shape => .pure _
  | modified inner => exact part (List.mem_singleton_self _)
  | malformed fault => exact .done _
  | _ => exact .pure _

omit alongside innermost

private theorem alike_askParent (alongside : Alongside first second levels)
    (innermost : first.bindings.head? = second.bindings.head?) {clause : Heritage}
    (lower : TypeExpr.division.height TypeExpr.levels clause.reference ≤ levels) :
    Alike Matching
      (do
        let shapes ← askTypes first clause.arguments
        askName first clause.name shapes)
      (do
        let shapes ← askTypes second clause.arguments
        askName second clause.name shapes) := by
  rw [height_eq_add_heightOf] at lower
  refine .bind (alike_askTypes alongside innermost ((Nat.le_add_left _ _).trans lower))
    fun shapes => ?_
  exact alike_askName (alongside.mono (Nat.zero_le _)) clause.name shapes

private theorem alike_scriptOfInterface {parameters : List String} {heritage : List Heritage}
    {members : List TypeMember} (arguments : List Shape)
    (alongside : Alongside first second
      (heightOf TypeExpr.levels (Declaration.interface parameters heritage members).parts)) :
    Alike Matching (scriptOfInterface first parameters heritage members arguments)
      (scriptOfInterface second parameters heritage members arguments) := by
  -- Both contexts bind the parameters to the same arguments.
  have scope := alongside.binding (Frame.ofArguments parameters arguments)
  refine .bind (.collect fun clause mem => ?_) fun parents => .bind ?_ fun own => .pure _
  · exact alike_askParent scope rfl
      (height_le_heightOf (List.mem_append_left _ (List.mem_map_of_mem mem)))
  · exact alike_askMembers scope rfl (heightOf_mono (List.subset_append_right _ _))

private theorem alike_scriptOfName (alongside : Alongside first second 0) (name : String)
    (arguments : List Shape) :
    Alike Matching (scriptOfName Context.tooDeep first name arguments)
      (scriptOfName Context.tooDeep second name arguments) := by
  rw [scriptOfName, scriptOfName, ← alongside.visited, ← alongside.registry]
  cases fresh : first.visited.contains name with
  | true => exact .pure _
  | false =>
      rw [if_neg Bool.false_ne_true, if_neg Bool.false_ne_true]
      cases declared : first.registry.get name with
      | nil => exact .pure _
      | cons declaration more =>
          have inner : ∀ other ∈ declaration :: more,
              Alongside (first.entering name).nested (second.entering name).nested
                (heightOf TypeExpr.levels other.parts) :=
            fun other mem => alongside.entering fresh (declared ▸ mem)
          have left := Context.levels_add_levelsLeft_entering_le fresh
            (declared ▸ List.mem_cons_self : declaration ∈ first.registry.get name)
          rw [Declaration.levels] at left
          dsimp only
          rw [← alongside.tooDeep_eq (by omega)]
          split
          · rename_i deep
            rw [alongside.maxDepth_eq (by omega) deep]
            exact .bind (.check _) fun _ => .pure _
          · split
            · refine .bind (.collect fun other mem => ?_) fun groups => .pure _
              cases other with
              | interface parameters heritage members =>
                  exact .question ⟨inner _ mem, fun isOpen => by cases isOpen⟩
              | _ => exact .pure _
            · have mem := getLast?_getD_mem declaration more
              split
              · rename_i parameters body found
                have scope :=
                  (inner _ (found ▸ mem)).binding (Frame.ofArguments parameters arguments)
                exact .bind (alike_askType scope rfl (height_le_heightOf List.mem_cons_self))
                  fun shape => .pure _
              · exact .pure _
              · exact .pure _

/-- Contexts that match for a question have scripts for it that are alike. -/
theorem alike_script {query : Query} (matching : Matching first second query) :
    Alike Matching (script Context.tooDeep first query) (script Context.tooDeep second query) := by
  obtain ⟨alongside, innermost⟩ := matching
  cases query with
  | name name arguments => exact alike_scriptOfName alongside name arguments
  | interface parameters heritage members arguments =>
      exact alike_scriptOfInterface arguments alongside
  | members members => exact alike_scriptOfMembers alongside (innermost rfl) le_rfl
  | nullable type =>
      exact alike_scriptOfNullable alongside (innermost rfl) (height_le_heightOf List.mem_cons_self)
  | type type =>
      exact alike_scriptOfType alongside (innermost rfl) (height_le_heightOf List.mem_cons_self)

/-- Questions have the same answers in contexts that match. -/
theorem resolved_eq_of_matching (query : Query) (matching : Matching first second query) :
    resolved first query = resolved second query :=
  resolved_eq_of_alike (fun matching => alike_script matching) matching

end Scripts

/-- Type parameters are in scope in their own declaration only.  In contexts that differ in their
bindings, every name has the same shape with the same arguments; and if the innermost frames are
the same, then so are the shapes of all types and the fields of all members. -/
theorem outcome_eq_of_other_bindings {first second : Context}
    (registry : first.registry = second.registry) (limit : first.maxDepth = second.maxDepth)
    (visited : ∀ name, name ∈ first.visited ↔ name ∈ second.visited)
    (depth : first.depth = second.depth) :
    (∀ (name : String) (arguments : List Shape),
        (resolveName first name arguments).outcome =
          (resolveName second name arguments).outcome) ∧
      (first.bindings.head? = second.bindings.head? →
        (∀ type, (resolveType first type).outcome = (resolveType second type).outcome) ∧
          (∀ type, (resolveNullable first type).outcome =
            (resolveNullable second type).outcome) ∧
          ∀ members, (memberFields first members).outcome =
            (memberFields second members).outcome) := by
  have alongside : ∀ levels, Alongside first second levels := by
    intro levels
    refine ⟨registry, fun name => ?_, depth, .inl limit⟩
    rw [Bool.eq_iff_iff, List.contains_iff_mem, List.contains_iff_mem]
    exact visited name
  refine ⟨fun name arguments => ?_, fun innermost => ⟨fun type => ?_, fun type => ?_,
    fun members => ?_⟩⟩
  · exact resolved_eq_of_matching (.name name arguments)
      ⟨alongside _, fun isOpen => by cases isOpen⟩
  · exact resolved_eq_of_matching (.type type) ⟨alongside _, fun _ => innermost⟩
  · exact resolved_eq_of_matching (.nullable type) ⟨alongside _, fun _ => innermost⟩
  · exact resolved_eq_of_matching (.members members) ⟨alongside _, fun _ => innermost⟩

/-- A parameter that lacks an argument is unknown, also where another parameter of its name is
bound. -/
theorem outcome_eq_of_other_bindings_box :
    let outside : Context :=
      { registry := ⟨[("Box", [.alias ["T"] (.object
          [.property "value" (.reference (some "T") []) false])])]⟩
        maxDepth := .int 5 }
    let inside : Context := { outside with bindings := [[("T", .primitive .string)]] }
    let deeper : Context := { inside with bindings := inside.bindings ++ [[("U", .unknown)]] }
    let box : Shape := .object [⟨"value", .unknown, false, false⟩]
    (resolveName outside "Box" []).outcome = .ok box ∧
      (resolveName inside "Box" []).outcome = .ok box ∧
      inside.bindings.head? = deeper.bindings.head? ∧
      (resolveType deeper (.reference (some "T") [])).outcome = .ok (.primitive .string) := by
  intro outside inside deeper box
  have boxEq : (resolveName outside "Box" []).outcome = .ok box := by
    let scope := (outside.entering "Box").nested.binding [("T", .unknown)]
    have shallow : scope.tooDeep = false := rfl
    have bound? : scope.nested.bound? "T" = some .unknown := rfl
    have script : scriptOfName Context.tooDeep outside "Box" [] = (do
        let shape ← askType scope (.object [.property "value" (.reference (some "T") []) false])
        return shape.returned) := rfl
    rw [← runWith_scriptOfName, script]
    simp only [runWith_bind, runWith_askType, resolveType, shallow, bound?, resolveMembers,
      resolveNullable, resolveUnwrapped, Traced.outcome_bind, Traced.outcome_within,
      Traced.outcome_pure, Bool.false_eq_true, if_false]
    rfl
  have boundEq : (resolveType inside (.reference (some "T") [])).outcome =
      .ok (.primitive .string) := by
    have bound? : inside.bound? "T" = some (.primitive .string) := rfl
    simp [resolveType, bound?]
  have outsideInside : outside.registry = inside.registry := rfl
  have insideDeeper : inside.registry = deeper.registry := rfl
  have namesEq := (outcome_eq_of_other_bindings outsideInside rfl (fun _ => Iff.rfl) rfl).1 "Box" []
  have typesEq := ((outcome_eq_of_other_bindings insideDeeper rfl (fun _ => Iff.rfl) rfl).2 rfl).1
    (.reference (some "T") [])
  exact ⟨boxEq, namesEq ▸ boxEq, rfl, typesEq ▸ boundEq⟩

end PropValidators.Resolution
