import PropValidators.Proofs.Registry.Shadowing
import PropValidators.Proofs.Resolution.PairedScripts

/-!
# Declarations out of sight

A type may be resolved where not all declarations are in sight.  Names that are not declared are
unknown then, and whatever is made of them is to be no stricter than it is with their
declarations.  In particular, a set of literals is to be the same.

Two resolutions are compared, the second of which has more declarations.  Whatever the first one
leaves of the shapes it answers is kept in the answers of the second one, as long as nothing is
left out where shapes are put together.  That is so if every operand of an intersection and every
parent of an interface is told to be an object or not, and if no union is one object that several
alternatives come together in.

Otherwise it need not be so.  An operand that is not in sight is left out of an intersection, and
the names of the other fields are a set of literals that is too small.
-/

namespace PropValidators

namespace Resolution

open Script

/-- The names of fields are those of the members, whatever can be seen. -/
theorem names_eq_of_memberFields {context other : Context} {members : List TypeMember}
    {fields others : List Field} (returned : (memberFields context members).outcome = .ok fields)
    (otherReturned : (memberFields other members).outcome = .ok others) :
    fields.map Field.name = others.map Field.name := by
  rw [memberFields, Traced.outcome_bind, bind_eq_ok] at returned otherReturned
  obtain ⟨own, ownEq, fieldsEq⟩ := returned
  obtain ⟨another, anotherEq, othersEq⟩ := otherReturned
  have names : own.map Field.name = another.map Field.name := by
    refine List.map_injective_iff.mpr (Option.some_injective String) ?_
    rw [List.map_map, List.map_map]
    exact (names_of_resolveMembers ownEq).trans (names_of_resolveMembers anotherEq).symm
  cases fieldsEq
  cases othersEq
  exact names_mergeFields_congr (.cons names .nil)

/-- What is left of an answer is kept where more can be seen, if nothing is left out on the way. -/
theorem persists_of_whole {context : Context} {query : Query}
    (asks : shapeContract.Asks context query)
    (whole : WholeThroughout context query) : Persists context query := by
  refine below_wellFounded.induction
    (C := fun asked => shapeContract.Asks asked.1 asked.2 → WholeThroughout asked.1 asked.2 →
      Persists asked.1 asked.2) (context, query) ?_ asks whole
  rintro ⟨context, query⟩ ih asks whole other another extended kept answer reply answerEq replyEq
  by_cases isMembers : ∃ members, query = .members members
  · -- nothing is required of what is asked about members, as only their names matter
    obtain ⟨members, rfl⟩ := isMembers
    cases kept
    exact names_eq_of_memberFields answerEq replyEq
  · rw [not_exists] at isMembers
    rw [← runWith_script] at answerEq replyEq
    refine paired_script extended asks.1 isMembers (whole _ _ (.self _ _)) kept ?_ answer reply
      answerEq replyEq
    intro inner asked onTheWay
    have below := onTheWay.of_allAsk (script_below Context.tooDeep context query)
    have innerAsks : shapeContract.Asks inner asked :=
      onTheWay.of_keeps (keeps_script query asks) fun _ other _ otherAsks returned =>
        answerWellFormed_of_resolved other otherAsks.1 otherAsks.2 returned
    exact ih (inner, asked) below innerAsks fun last final meets =>
      whole last final (.step isMembers onTheWay meets)

/-- A set of literals stays the same where more can be seen, if nothing is left out on the way to
it.  The resolution may stop at a fault then, though not in modules that can be read and written. -/
theorem literals_kept_of_whole {registry more : Registry Declaration}
    (extended : registry.ExtendedBy more) {context : Context} (formed : context.BindingsWellFormed)
    {type : TypeExpr} {values : List Literal}
    (whole : WholeThroughout { context with registry } (.type type))
    (returned : (resolveType { context with registry } type).outcome = .ok (.oneOf values)) :
    (∀ shape, (resolveType { context with registry := more } type).outcome = .ok shape →
        shape = .oneOf values) ∧
      ∀ (modules : List Ast.Node) (n : Ast.Node), Readable modules → more = registryOf modules →
        StandsIn modules n → type = .ofNode n →
        WritableIn modules { context with registry := more } →
        (resolveType { context with registry := more } type).outcome = .ok (.oneOf values) := by
  have same : ∀ shape, (resolveType { context with registry := more } type).outcome = .ok shape →
      shape = .oneOf values := by
    intro shape otherReturned
    have bindings : Option.Rel Frame.KeptIn context.bindings.head? context.bindings.head? := by
      cases context.bindings.head? with
      | none => exact .none
      | some frame => exact .some (List.forall₂_same.mpr fun b _ => ⟨rfl, Shape.keptIn_refl b.2⟩)
    have contexts :
        Context.ExtendedBy { context with registry } { context with registry := more } :=
      ⟨extended, rfl, rfl, rfl, bindings⟩
    have asks : shapeContract.Asks { context with registry } (.type type) := ⟨formed, trivial⟩
    have kept := persists_of_whole asks whole _ _ contexts (.type type) _ _ returned otherReturned
    exact kept.values values rfl
  refine ⟨same, ?_⟩
  rintro modules n readable rfl stands rfl writable
  obtain ⟨shape, shapeEq⟩ := (returns_resolveType readable rfl stands).exists_ok writable
  rw [shapeEq, same shape shapeEq]

open Ast

/-- The names of the fields of some types together. -/
def keysOf (types : List Node) : Node :=
  .ofDeclared "TSTypeOperator"
    [("operator", .text "keyof"), ("typeAnnotation", .node (intersection types))]

def keysOfJson (types : List Json) : Json :=
  nodeJson "TSTypeOperator"
    [("operator", .string "keyof"), ("typeAnnotation", intersectionJson types)]

theorem ofNode_keysOf {types : List Node} (fresh : ∀ type ∈ types, Fresh type) :
    TypeExpr.ofNode (keysOf types) = .keyof (.intersection (types.map TypeExpr.ofNode)) := by
  have keysFresh : Fresh (keysOf types) :=
    fresh_ofDeclared [("operator", .text), ("typeAnnotation", .node)] (by decide)
      (.cons ⟨rfl, freshIn_text "keyof"⟩ (.cons ⟨rfl, (fresh_intersection fresh).freshIn⟩ .nil))
  rw [ofNode_of_sound keysFresh.1, ← ofNode_intersection fresh]
  change TypeExpr.keyof (TypeExpr.ofChild (keysOf types) "typeAnnotation") = _
  rw [ofChild_eq]
  rfl

theorem fresh_titledType : Fresh (typeLiteral [titleMember]) :=
  fresh_typeLiteral (List.forall_mem_singleton.mpr fresh_titleMember)

/-- A module with an interface extends what is in sight elsewhere, if its name is new there. -/
theorem extendedBy_propsModule {modules : List Node}
    (new : (registryOf modules).contains "Props" = false) (field : String) :
    (registryOf modules).ExtendedBy (registryOf (modules ++ [propsModule field])) := by
  refine Registry.extendedBy_append fun n mem name declared => ?_
  rw [List.flatMap_singleton, declarationNodes_propsModule, List.mem_singleton] at mem
  rw [mem, declaredName?_propsInterface] at declared
  cases declared
  exact ⟨new, by decide⟩

section Keys

variable {context : Context}

/-- The keys are those of the object alone when the other operand is unknown, and those of both
when it is an object. -/
theorem outcome_keyof_titledProps {operand : TypeExpr} {shape : Shape}
    (shallow : context.tooDeep = false)
    (returned : (resolveType context operand).outcome = .ok shape) :
    (resolveType context (.keyof (.intersection [titledProps, operand]))).outcome =
      .ok (Shape.intersect [.object [titledField], shape]).keys := by
  rw [resolveType, resolveType]
  simp only [resolveAll, Traced.outcome_bind, outcome_resolveType_titledProps shallow, returned]
  rfl

private theorem outcome_resolveType_props {field : String}
    (declared : context.registry.get "Props" = [propsDeclaration field])
    (unbound : context.bound? "Props" = none) (fresh : context.visited.contains "Props" = false)
    (shallow : context.tooDeep = false) :
    (resolveType context (.reference (some "Props") [])).outcome =
      .ok (.object [⟨field, .primitive .string, false, false⟩]) := by
  have contained := Registry.contains_of_get declared
  have fields (inner : Context) : (resolveInterfaces inner [] [propsDeclaration field]).outcome =
      .ok [[⟨field, .primitive .string, false, false⟩]] := by
    simp only [propsDeclaration, resolveInterfaces, resolveHeritage, resolveMembers,
      resolveNullable, resolveUnwrapped, resolveType, Traced.outcome_bind, Traced.outcome_within,
      Traced.outcome_pure]
    rfl
  rw [resolveType]
  simp only [unbound, contained, if_true, resolveAll, pure_bind]
  rw [outcome_resolveName_of_interfaces declared (List.cons_ne_nil _ _) rfl fresh shallow, fields]
  rfl

end Keys

/-- An object type with a field whose type is declared elsewhere. -/
def headedType : Node :=
  typeLiteral [propertySignature "head" (reference "Props" []) false]

/-- What the object type is read as. -/
def headedProps : TypeExpr :=
  .object [.property "head" (.annotated (.reference (some "Props") [])) false]

theorem fresh_headedType : Fresh headedType :=
  fresh_typeLiteral (List.forall_mem_singleton.mpr
    (fresh_propertySignatureOf (fresh_propertyKey "head") (fresh_reference "Props")))

@[simp]
theorem ofNode_headedType : TypeExpr.ofNode headedType = headedProps := by
  let signature := propertySignature "head" (reference "Props" []) false
  have fresh : Fresh signature :=
    fresh_propertySignatureOf (fresh_propertyKey "head") (fresh_reference "Props")
  have memberEq : TypeMember.ofNode? signature =
      some (.property "head" (.annotated (.reference (some "Props") [])) false) := by
    rw [← ofNode_reference]
    exact ofNode?_propertySignatureOf "head" (fresh_reference "Props")
  change TypeExpr.ofNode (typeLiteral [signature]) = _
  rw [ofNode_typeLiteral (List.forall_mem_singleton.mpr fresh),
    List.filterMap_cons_some memberEq]
  rfl

/-- The names of the fields of that type and of another one together. -/
def headedKeys : Node :=
  keysOf [typeLiteral [titleMember], headedType]

@[simp]
theorem ofNode_headedKeys :
    TypeExpr.ofNode headedKeys = .keyof (.intersection [titledProps, headedProps]) := by
  have fresh : ∀ type ∈ [typeLiteral [titleMember], headedType], Fresh type :=
    List.forall_mem_cons.mpr ⟨fresh_titledType, List.forall_mem_singleton.mpr fresh_headedType⟩
  rw [headedKeys, ofNode_keysOf fresh, List.map_cons, List.map_singleton, ofNode_titledProps,
    ofNode_headedType]

/-- A module with an alias for the names. -/
def keysModule : Node :=
  program [typeAlias "Keys" headedKeys []]

/-- The module as it is written. -/
def keysJson : Json :=
  let head := nodeJson "TSPropertySignature" [("key", identifierJson "head"),
    ("typeAnnotation", nodeJson "TSTypeAnnotation" [("typeAnnotation", referenceJson "Props")]),
    ("optional", .bool false)]
  programJson [typeAliasJson "Keys" (keysOfJson [titledTypeJson, typeLiteralJson [head]])]

@[simp]
theorem readDocument_keysJson : readDocument 0 keysJson = .ok keysModule := by
  rfl

private theorem readable_keysModule : Readable [keysModule, propsModule "a"] := by
  have distinct : keysJson.Distinct := by
    simp [keysJson, keysOfJson, titledTypeJson]
  constructor
  · refine List.forall_mem_cons.mpr ⟨⟨keysJson, 0, distinct, readDocument_keysJson⟩, ?_⟩
    exact List.forall_mem_singleton.mpr
      ⟨propsJson "a", 0, distinct_propsJson "a", readDocument_propsJson "a"⟩
  · exact List.forall_mem_cons.mpr ⟨wrapsNodes_of_unwrapped (by rfl),
      List.forall_mem_singleton.mpr (wrapsNodes_of_unwrapped (by rfl))⟩

private theorem allWritable_keysModule : AllWritable [keysModule, propsModule "a"] :=
  List.forall_mem_cons.mpr ⟨literalsAllowed_of_writesAll (by decide +kernel),
    List.forall_mem_singleton.mpr (literalsAllowed_of_writesAll (by decide +kernel))⟩

private theorem standsIn_headedKeys : StandsIn [keysModule, propsModule "a"] headedKeys := by
  refine ⟨keysModule, List.mem_cons_self, ?_⟩
  rw [Node.walk_eq_tree]
  exact List.mem_of_getElem? (rfl : keysModule.tree[3]? = _)

@[simp]
theorem not_declared_keysModule : (registryOf [keysModule]).contains "Props" = false := by
  rw [← Bool.not_eq_true]
  intro declared
  obtain ⟨-, n, mem, named⟩ := contains_registryOf_iff.mp declared
  have declarations : declarationNodes keysModule = [typeAlias "Keys" headedKeys []] := by
    rw [declarationNodes, Node.walk_eq_tree]
    rfl
  rw [List.flatMap_singleton, declarations, List.mem_singleton] at mem
  rw [mem] at named
  have name : declaredName? (typeAlias "Keys" headedKeys []) = some "Keys" :=
    entityName?_identifier "Keys"
  rw [name] at named
  exact absurd (Option.some.inj named) (by decide)

/-- What is in sight in some modules, with the limit that holds where none is given. -/
def sightOf (modules : List Node) : Context where
  registry := registryOf modules
  maxDepth := .int 10

/-- The field has a type out of sight, so it is unknown. -/
@[simp]
theorem outcome_headedProps :
    (resolveType (sightOf [keysModule]) headedProps).outcome =
      .ok (.object [⟨"head", .unknown, false, false⟩]) := by
  have unseen : (resolveType (sightOf [keysModule]).nested (.reference (some "Props") [])).outcome =
      .ok .unknown :=
    outcome_resolveType_of_obscure
      ⟨rfl, not_declared_keysModule, by decide, .inr rfl, by decide⟩
  rw [headedProps, resolveType, if_neg (by decide)]
  simp only [resolveMembers, resolveNullable, resolveUnwrapped, Traced.outcome_bind,
    Traced.outcome_within, unseen]
  rfl

@[simp]
theorem outcome_headedKeys :
    (resolveType (sightOf [keysModule]) (.ofNode headedKeys)).outcome =
      .ok (.oneOf [.text "text", .text "head"]) := by
  rw [ofNode_headedKeys, outcome_keyof_titledProps rfl outcome_headedProps]
  rfl

private theorem wholeThroughout_object (context : Context) (members : List TypeMember) :
    WholeThroughout context (.type (.object members)) := by
  refine wholeThroughout_of_asked trivial fun inner asked onTheWay => ?_
  simp only [script, scriptOfType] at onTheWay
  split at onTheWay
  · exact absurd onTheWay not_asked_pure
  · simp only [asked_bind_iff, asked_askMembers_iff, not_asked_pure, and_false, exists_false,
      or_false] at onTheWay
    obtain ⟨rfl, rfl⟩ := onTheWay
    exact wholeThroughout_members _ members

/-- Both operands are told to be objects. -/
theorem wholeThroughout_headedOperands :
    WholeThroughout (sightOf [keysModule]) (.type (.intersection [titledProps, headedProps])) := by
  refine wholeThroughout_of_asked ?told fun inner asked onTheWay => ?_
  case told =>
    intro shapes returned shape mem
    have first : (resolveType (sightOf [keysModule]) titledProps).outcome =
        .ok (.object [titledField]) := outcome_resolveType_titledProps rfl
    simp only [resolveAll, Traced.outcome_bind, first, outcome_headedProps] at returned
    cases returned
    rw [List.mem_pair] at mem
    rcases mem with rfl | rfl
    · exact .inl ⟨_, rfl⟩
    · exact .inl ⟨_, rfl⟩
  simp only [script, scriptOfType, askTypes, collect, asked_bind_iff, asked_askType_iff,
    not_asked_pure, and_false, exists_false, or_false] at onTheWay
  rcases onTheWay with ⟨rfl, rfl⟩ | ⟨_, -, rfl, rfl⟩
  · exact wholeThroughout_object _ _
  · exact wholeThroughout_object _ _

private theorem wholeThroughout_headedKeys :
    WholeThroughout (sightOf [keysModule]) (.type (.ofNode headedKeys)) := by
  rw [ofNode_headedKeys]
  refine wholeThroughout_of_asked trivial fun inner asked onTheWay => ?_
  simp only [script, scriptOfType, asked_bind_iff, asked_askType_iff, not_asked_pure, and_false,
    exists_false, or_false] at onTheWay
  obtain ⟨rfl, rfl⟩ := onTheWay
  exact wholeThroughout_headedOperands

/-- The names of the fields are the same with the module that declares the type of one of them. -/
theorem literals_kept_of_whole_titled :
    let modules := [keysModule]
    let more := [keysModule, propsModule "a"]
    let type : TypeExpr := .ofNode headedKeys
    let values : List Literal := [.text "text", .text "head"]
    (registryOf modules).ExtendedBy (registryOf more) ∧ (sightOf modules).BindingsWellFormed ∧
      WholeThroughout (sightOf modules) (.type type) ∧
      (resolveType (sightOf modules) type).outcome = .ok (.oneOf values) ∧
      Readable more ∧ StandsIn more headedKeys ∧ WritableIn more (sightOf more) ∧
      (resolveType (sightOf more) type).outcome = .ok (.oneOf values) := by
  intro modules more type values
  have extended : (registryOf modules).ExtendedBy (registryOf more) :=
    extendedBy_propsModule not_declared_keysModule "a"
  have formed : (sightOf modules).BindingsWellFormed := by
    intro frame mem
    cases mem
  have writable : WritableIn more (sightOf more) :=
    ⟨allWritable_keysModule, fun frame mem => (by cases mem), writable_maxDepth_default⟩
  refine ⟨extended, formed, wholeThroughout_headedKeys, outcome_headedKeys, readable_keysModule,
    standsIn_headedKeys, writable, ?_⟩
  exact (literals_kept_of_whole extended formed wholeThroughout_headedKeys outcome_headedKeys).2
    more headedKeys readable_keysModule rfl standsIn_headedKeys rfl writable

/-- The names of the fields of an object and of a type that is declared elsewhere. -/
def titledKeys : Node :=
  keysOf [typeLiteral [titleMember], reference "Props" []]

/-- The type as it is written. -/
def titledKeysJson : Json :=
  keysOfJson [titledTypeJson, referenceJson "Props"]

@[simp]
theorem readDocument_titledKeysJson : readDocument 0 titledKeysJson = .ok titledKeys := by
  rfl

private theorem sound_titledKeys : titledKeys.Sound := by
  have distinct : titledKeysJson.Distinct := by
    simp [titledKeysJson, keysOfJson, titledTypeJson]
  exact sound_of_readNode distinct readDocument_titledKeysJson

@[simp]
theorem ofNode_titledKeys : TypeExpr.ofNode titledKeys =
    .keyof (.intersection [titledProps, .reference (some "Props") []]) := by
  have fresh : ∀ type ∈ [typeLiteral [titleMember], reference "Props" []], Fresh type :=
    List.forall_mem_cons.mpr
      ⟨fresh_titledType, List.forall_mem_singleton.mpr (fresh_reference "Props")⟩
  rw [titledKeys, ofNode_keysOf fresh, List.map_cons, List.map_singleton, ofNode_titledProps,
    ofNode_reference]

/-- An operand of an intersection that is not declared is left out, and the names of the other
fields are a set of literals.  With the declaration of the operand there is one more name. -/
theorem unseen_operand_hides_literal :
    readDocument 0 titledKeysJson = .ok titledKeys ∧
      readDocument 0 (propsJson "a") = .ok (propsModule "a") ∧
      ¬ ∀ (modules more : List Node) (n : Node), (∀ m ∈ n :: modules ++ more, m.Sound) →
        (registryOf modules).ExtendedBy (registryOf more) →
          ∃ bound : Int, ∀ limit ≥ bound, ∀ values : List Literal,
            (resolveType { registry := registryOf modules, maxDepth := .int limit }
                (.ofNode n)).outcome = .ok (.oneOf values) →
              (resolveType { registry := registryOf more, maxDepth := .int limit }
                (.ofNode n)).outcome = .ok (.oneOf values) := by
  refine ⟨readDocument_titledKeysJson, readDocument_propsJson "a", fun claim => ?_⟩
  have sound : ∀ m ∈ [titledKeys, propsModule "a"], m.Sound :=
    List.forall_mem_cons.mpr
      ⟨sound_titledKeys, List.forall_mem_singleton.mpr (sound_propsModule "a")⟩
  obtain ⟨bound, same⟩ := claim [] [propsModule "a"] titledKeys sound
    (extendedBy_propsModule (by rfl) "a")
  let limit := max bound 10
  have shallow : ∀ registry : Registry Declaration,
      ({ registry, maxDepth := .int limit } : Context).tooDeep = false := by
    intro registry
    have reached : (10 : Int) ≤ limit := le_max_right bound 10
    rw [Context.tooDeep, decide_eq_false_iff_not]
    change ¬ limit ≤ 0
    omega
  have unseen : (resolveType { registry := registryOf [], maxDepth := .int limit }
      (.reference (some "Props") [])).outcome = .ok .unknown :=
    outcome_resolveType_of_obscure ⟨rfl, by rfl, by decide, .inr rfl, by decide⟩
  have seen : (resolveType { registry := registryOf [propsModule "a"], maxDepth := .int limit }
      (.reference (some "Props") [])).outcome =
        .ok (.object [⟨"a", .primitive .string, false, false⟩]) :=
    outcome_resolveType_props get_registryOf_props rfl rfl (shallow _)
  have keys := same limit (le_max_left bound 10) [.text "text"] (by
    rw [ofNode_titledKeys, outcome_keyof_titledProps (shallow _) unseen]
    rfl)
  rw [ofNode_titledKeys, outcome_keyof_titledProps (shallow _) seen] at keys
  cases keys

end Resolution

end PropValidators
