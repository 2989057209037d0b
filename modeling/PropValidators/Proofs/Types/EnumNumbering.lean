import PropValidators.Proofs.Patching.Faults
import PropValidators.Proofs.Resolution.Inheritance

/-!
# The numbering of enum members

A member of an enum has the value of its initializer, or else a number: one more than the last
number among the values before it, or zero if there is none.  Texts between numbers do not start
the numbering again.  An enum is known by its values unless one of its members has an initializer
that is neither a text, nor a number, nor a number with a minus sign.
-/

namespace PropValidators

open Ast

/-- A value of a member that can be listed: a text or a number, be it written or not. -/
def EnumValue.isListed : EnumValue → Bool
  | .implicit | .literal (.text _) | .literal (.number _) => true
  | .literal (.truth _) | .computed => false

@[simp]
theorem enumValues_eq_none_iff (next : Number) {members : List EnumValue} :
    enumValues next members = none ↔ ∃ member ∈ members, member.isListed = false := by
  induction members generalizing next with
  | nil => simp [enumValues]
  | cons member members ih =>
      rcases member with _ | (text | number | truth) | _ <;>
        simp [enumValues, EnumValue.isListed, ih]

/-- The number of a member without initializer after members with the given values. -/
def following (before : List Literal) : Number :=
  match (before.filterMap Literal.number?).getLast? with
  | some last => last.succ
  | none => .int 0

@[simp]
theorem following_concat_text (before : List Literal) (text : String) :
    following (before ++ [.text text]) = following before := by
  rw [following, List.filterMap_append]
  change (match (before.filterMap Literal.number? ++ []).getLast? with
    | some last => last.succ
    | none => .int 0) = _
  rw [List.append_nil, following]

@[simp]
theorem following_concat_number (before : List Literal) (number : Number) :
    following (before ++ [.number number]) = number.succ := by
  rw [following, List.filterMap_append]
  change (match (before.filterMap Literal.number? ++ [number]).getLast? with
    | some last => last.succ
    | none => .int 0) = _
  rw [List.getLast?_concat]

/-- The value of a member after members with the given values. -/
def EnumValue.valueAfter? (before : List Literal) : EnumValue → Option Literal
  | .implicit => some (.number (following before))
  | .literal value => some value
  | .computed => none

/-- The running number is always the one that follows on the values so far, so each value can be
told from those before it. -/
theorem getElem?_enumValues {before values : List Literal} {members : List EnumValue}
    (listed : enumValues (following before) members = some values) :
    values.length = members.length ∧
      ∀ i, values[i]? = members[i]?.bind (EnumValue.valueAfter? (before ++ values.take i)) := by
  induction members generalizing before values with
  | nil =>
      rw [enumValues] at listed
      cases listed
      exact ⟨rfl, fun i => rfl⟩
  | cons member members ih =>
      -- the value of the first member is a value before all the others
      have step : ∀ {value rest}, member.valueAfter? before = some value →
          enumValues (following (before ++ [value])) members = some rest →
          (value :: rest).length = (member :: members).length ∧
            ∀ i, (value :: rest)[i]? = (member :: members)[i]?.bind
              (EnumValue.valueAfter? (before ++ (value :: rest).take i)) := by
        intro value rest valueEq restEq
        obtain ⟨lengthEq, each⟩ := ih restEq
        refine ⟨congrArg Nat.succ lengthEq, fun i => ?_⟩
        cases i with
        | zero =>
            rw [List.take_zero, List.append_nil]
            exact valueEq.symm
        | succ i =>
            rw [List.getElem?_cons_succ, List.getElem?_cons_succ, each i, List.take_succ_cons,
              List.append_assoc, List.singleton_append]
      rcases member with _ | (text | number | truth) | _
      · rw [enumValues, Option.map_eq_some_iff] at listed
        obtain ⟨rest, restEq, rfl⟩ := listed
        exact step rfl (by rwa [following_concat_number])
      · rw [enumValues, Option.map_eq_some_iff] at listed
        obtain ⟨rest, restEq, rfl⟩ := listed
        exact step rfl (by rwa [following_concat_text])
      · rw [enumValues, Option.map_eq_some_iff] at listed
        obtain ⟨rest, restEq, rfl⟩ := listed
        exact step rfl (by rwa [following_concat_number])
      · cases listed
      · cases listed

/-- An initializer is a text, a number, or a minus sign before a number. -/
inductive Ast.Node.Lists : Node → Literal → Prop where
  | text {n : Node} {s : String} (kind : n.kind = .stringLiteral)
      (value : n.text? "value" = some s) : n.Lists (.text s)
  | number {n : Node} {x : Number} (kind : n.kind = .numericLiteral)
      (value : n.number? "value" = some x) : n.Lists (.number x)
  | negative {n argument : Node} {x : Number} (kind : n.kind = .unmodelled)
      (type : n.hasType "UnaryExpression" = true)
      (operator : n.attribute? "operator" = some (.text "-"))
      (held : n.attribute? "argument" = some (.node argument))
      (argumentKind : argument.kind = .numericLiteral)
      (value : argument.number? "value" = some x) : n.Lists (.number x.neg)

/-- Whether the value of a node that is an initializer can be listed. -/
def Ast.Node.IsListable (n : Node) : Prop :=
  n.kind = .stringLiteral ∨ n.kind = .numericLiteral ∨
    n.kind = .unmodelled ∧ n.hasType "UnaryExpression" = true ∧
      n.attribute? "operator" = some (.text "-") ∧
      ∃ argument : Node, n.attribute? "argument" = some (.node argument) ∧
        argument.kind = .numericLiteral

theorem negated?_eq_some_iff {n argument : Node} :
    negated? n = some argument ↔
      n.kind = .unmodelled ∧ n.hasType "UnaryExpression" = true ∧
        n.attribute? "operator" = some (.text "-") ∧
        n.attribute? "argument" = some (.node argument) ∧ argument.kind = .numericLiteral := by
  have signed : (n.attribute? "operator").bind Value.text? = some "-" ↔
      n.attribute? "operator" = some (.text "-") := by
    rw [Option.bind_eq_some_iff]
    constructor
    · rintro ⟨value, held, text⟩
      rw [Value.text?.eq_def] at text
      split at text
      · cases text
        exact held
      · cases text
    · intro held
      exact ⟨_, held, rfl⟩
  rw [negated?]
  split
  · rename_i isNegation
    obtain ⟨kind, type, operator⟩ := isNegation
    rw [Option.filter_eq_some_iff, Option.bind_eq_some_iff]
    constructor
    · rintro ⟨⟨value, held, node⟩, argumentKind⟩
      rw [Node.eq_node_of_node? node] at held
      exact ⟨kind, type, signed.mp operator, held, by simpa using argumentKind⟩
    · rintro ⟨-, -, -, held, argumentKind⟩
      exact ⟨⟨_, held, rfl⟩, by simpa using argumentKind⟩
  · rename_i notNegation
    constructor
    · intro absent
      cases absent
    · rintro ⟨kind, type, operator, -⟩
      exact absurd ⟨kind, type, signed.mpr operator⟩ notNegation

private theorem literalValue?_of_lists {n : Node} {value : Literal} (lists : n.Lists value) :
    literalValue? n = some value := by
  rw [literalValue?]
  cases lists with
  | text kind value =>
      rw [kind]
      dsimp only
      rw [value]
      rfl
  | number kind value =>
      rw [kind]
      dsimp only
      rw [value]
      rfl
  | negative kind type operator held argumentKind value =>
      rw [kind]
      dsimp only
      rw [negated?_eq_some_iff.mpr ⟨kind, type, operator, held, argumentKind⟩, Option.bind_some,
        value]
      rfl

theorem lists_of_literalValue? {n : Node} {value : Literal} (valueEq : literalValue? n = some value)
    (listed : (EnumValue.literal value).isListed = true) : n.Lists value := by
  rw [literalValue?] at valueEq
  split at valueEq
  · rename_i kind
    obtain ⟨text, textEq, rfl⟩ := Option.map_eq_some_iff.mp valueEq
    exact .text kind textEq
  · rename_i kind
    obtain ⟨number, numberEq, rfl⟩ := Option.map_eq_some_iff.mp valueEq
    exact .number kind numberEq
  · cases valueEq
    cases listed
  · obtain ⟨argument, negated, valueEq⟩ := Option.bind_eq_some_iff.mp valueEq
    obtain ⟨number, numberEq, rfl⟩ := Option.map_eq_some_iff.mp valueEq
    obtain ⟨kind, type, operator, held, argumentKind⟩ := negated?_eq_some_iff.mp negated
    exact .negative kind type operator held argumentKind numberEq

/-- A required field that holds neither nodes nor lists holds a constant. -/
theorem exists_constant_of_sound {n : Node} (sound : n.Sound) {key : String} {spec : FieldSpec}
    (specEq : n.kind.specOfKey? key = some spec) (required : spec.type.required = true)
    (noNode : spec.type.holdsNode = false) (noList : FieldType.item? (some spec.type) = none) :
    ∃ data, n.get? key = some (.data data) ∧ FieldType.FitsData (some spec.type) data := by
  obtain ⟨value, held⟩ := sound.exists_of_required (Kind.mem_of_specOfKey? specEq) required
  rw [Kind.key_of_specOfKey? specEq] at held
  have fits := sound.fits_of_get? specEq held
  cases value with
  | data data => exact ⟨data, held, fits⟩
  | node m => cases fits.node?_eq_none noNode
  | list items =>
      obtain ⟨item, itemEq, -⟩ := fits
      rw [noList] at itemEq
      cases itemEq

private theorem exists_number_of_sound {n : Node} (sound : n.Sound)
    (kind : n.kind = .numericLiteral) : ∃ number, n.number? "value" = some number := by
  have specEq : n.kind.specOfKey? "value" = some ⟨"value", "value", .number⟩ :=
    Node.specOfKey?_of_kind kind rfl
  obtain ⟨_, held, number, rfl⟩ := exists_constant_of_sound sound specEq rfl rfl rfl
  exact ⟨number, by rw [Node.number?, held]⟩

private theorem exists_text_of_sound {n : Node} (sound : n.Sound) (kind : n.kind = .stringLiteral) :
    ∃ text, n.text? "value" = some text := by
  have specEq : n.kind.specOfKey? "value" = some ⟨"value", "value", .text⟩ :=
    Node.specOfKey?_of_kind kind rfl
  obtain ⟨_, held, text, rfl⟩ := exists_constant_of_sound sound specEq rfl rfl rfl
  exact ⟨text, by rw [Node.text?, held]; rfl⟩

private theorem isListable_iff {n : Node} (sound : n.Sound) :
    n.IsListable ↔ ∃ value, n.Lists value := by
  constructor
  · rintro (kind | kind | ⟨kind, type, operator, argument, held, argumentKind⟩)
    · obtain ⟨text, textEq⟩ := exists_text_of_sound sound kind
      exact ⟨_, .text kind textEq⟩
    · obtain ⟨number, numberEq⟩ := exists_number_of_sound sound kind
      exact ⟨_, .number kind numberEq⟩
    · obtain ⟨number, numberEq⟩ := exists_number_of_sound (sound.of_attribute? held) argumentKind
      exact ⟨_, .negative kind type operator held argumentKind numberEq⟩
  · rintro ⟨value, lists⟩
    cases lists with
    | text kind => exact .inl kind
    | number kind => exact .inr (.inl kind)
    | negative kind type operator held argumentKind =>
        exact .inr (.inr ⟨kind, type, operator, _, held, argumentKind⟩)

/-- Whether the value of a member can be listed: it has no initializer, or one that is
listable. -/
def Ast.Node.IsListed (member : Node) : Prop :=
  ∀ initializer, member.attribute? "initializer" = some initializer →
    ∃ n : Node, initializer = .node n ∧ n.IsListable

/-- The value of a member after members with the given values. -/
inductive Ast.Node.HasValueAfter (before : List Literal) (member : Node) : Literal → Prop where
  | implicit (absent : member.attribute? "initializer" = none) :
      HasValueAfter before member (.number (following before))
  | literal {n : Node} {value : Literal}
      (initializer : member.attribute? "initializer" = some (.node n)) (lists : n.Lists value) :
      HasValueAfter before member value

theorem isListed_iff {member : Node} (sound : member.Sound) :
    (EnumValue.ofValue (.node member)).isListed = true ↔ member.IsListed := by
  rw [EnumValue.ofValue, Node.IsListed]
  simp only [Value.node?, Option.bind_some]
  cases held : member.attribute? "initializer" with
  | none => simp [EnumValue.isListed]
  | some initializer =>
      cases initializer with
      | list items => simp [EnumValue.isListed]
      | data data => simp [EnumValue.isListed]
      | node n =>
          simp only [Option.some.injEq, forall_eq', Value.node.injEq, exists_eq_left']
          rw [isListable_iff (sound.of_attribute? held)]
          cases valueEq : literalValue? n with
          | none =>
              simp only [EnumValue.isListed, Bool.false_eq_true, false_iff, not_exists]
              intro value lists
              rw [literalValue?_of_lists lists] at valueEq
              cases valueEq
          | some value =>
              constructor
              · exact fun listed => ⟨value, lists_of_literalValue? valueEq listed⟩
              · rintro ⟨other, lists⟩
                rw [literalValue?_of_lists lists] at valueEq
                cases valueEq
                cases lists <;> rfl

private theorem hasValueAfter_of_valueAfter? {before : List Literal} {member : Node}
    {value : Literal} (listed : (EnumValue.ofValue (.node member)).isListed = true)
    (valueEq : (EnumValue.ofValue (.node member)).valueAfter? before = some value) :
    member.HasValueAfter before value := by
  rw [EnumValue.ofValue] at listed valueEq
  simp only [Value.node?, Option.bind_some] at listed valueEq
  split at valueEq
  · rename_i absent
    cases valueEq
    exact .implicit absent
  · rename_i n held
    rw [held] at listed
    dsimp only at listed
    cases literalEq : literalValue? n with
    | none =>
        rw [literalEq] at valueEq
        cases valueEq
    | some literal =>
        rw [literalEq] at listed valueEq
        cases valueEq
        exact .literal held (lists_of_literalValue? literalEq listed)
  · cases valueEq

@[simp]
theorem enumShape_eq_unknown_iff {members : List EnumValue} :
    enumShape members = .unknown ↔ ∃ member ∈ members, member.isListed = false := by
  rw [← enumValues_eq_none_iff (.int 0), enumShape]
  split
  · rename_i values valuesEq
    simp [valuesEq]
  · rename_i valuesEq
    simp [valuesEq]

/-- Each member that is listed has its own value, told by those before it. -/
theorem exists_values_of_listed {members : List Node}
    (listed : ∀ member ∈ members, (EnumValue.ofValue (.node member)).isListed = true) :
    ∃ values, enumShape (members.map fun member => EnumValue.ofValue (.node member)) =
        .oneOf (dedupe Literal.same values) ∧
      values.length = members.length ∧
      ∀ (i : Nat) (member : Node), members[i]? = some member →
        ∃ value, values[i]? = some value ∧ member.HasValueAfter (values.take i) value := by
  obtain ⟨values, valuesEq⟩ : ∃ values, enumValues (following [])
      (members.map fun member => EnumValue.ofValue (.node member)) = some values := by
    rw [← Option.isSome_iff_exists, ← Option.ne_none_iff_isSome, Ne, enumValues_eq_none_iff]
    rintro ⟨value, mem, unlisted⟩
    obtain ⟨member, memberMem, rfl⟩ := List.mem_map.mp mem
    rw [listed member memberMem] at unlisted
    cases unlisted
  obtain ⟨lengthEq, each⟩ := getElem?_enumValues valuesEq
  have zero : following [] = .int 0 := rfl
  refine ⟨values, by rw [enumShape, ← zero, valuesEq], by simpa using lengthEq, ?_⟩
  intro i member memberEq
  have inRange : i < values.length := by
    rw [lengthEq, List.length_map]
    exact (List.getElem?_eq_some_iff.mp memberEq).1
  refine ⟨values[i], List.getElem?_eq_getElem inRange, ?_⟩
  have valueEq := each i
  rw [List.getElem?_map, memberEq, Option.map_some, Option.bind_some, List.nil_append,
    List.getElem?_eq_getElem inRange] at valueEq
  exact hasValueAfter_of_valueAfter? (listed member (List.mem_of_getElem? memberEq)) valueEq.symm

/-- A name that was last declared as an enum has its shape. -/
theorem outcome_resolveName_of_enum {context : Context} {name : String}
    {members : List EnumValue}
    (last : (context.registry.get name).getLast? = some (.enumeration members))
    (fresh : context.visited.contains name = false) (shallow : context.tooDeep = false)
    (arguments : List Shape) :
    (resolveName context name arguments).outcome = .ok (enumShape members) := by
  cases declared : context.registry.get name with
  | nil =>
      rw [declared] at last
      cases last
  | cons first more =>
      rw [declared] at last
      have lastEq : (more.getLast?).getD first = .enumeration members := by
        rw [List.getLast?_cons] at last
        exact Option.some.inj last
      have mixed : (first :: more).all Declaration.isInterface = false := by
        rw [List.all_eq_false]
        exact ⟨_, List.mem_of_getLast? last, by simp [Declaration.isInterface]⟩
      rw [Resolution.outcome_resolveName_of_last declared mixed fresh shallow, lastEq]

/-- An enum is unknown exactly if one of its members has an initializer that is neither a text,
nor a number, nor a minus sign before a number.  Otherwise it has the values of its members, each
once: that of the initializer, or else the number that follows on the last one before, from zero
on. -/
theorem enum_numbering {n : Node} (sound : n.Sound) (isEnum : n.kind = .enumDeclaration) :
    ∃ members, Declaration.ofNode n = .enumeration members ∧
      (enumShape members = .unknown ↔ ∃ member ∈ n.children "members", ¬ member.IsListed) ∧
      (enumShape members ≠ .unknown →
        ∃ values, enumShape members = .oneOf (dedupe Literal.same values) ∧
          values.length = (n.children "members").length ∧
          ∀ (i : Nat) (member : Node), (n.children "members")[i]? = some member →
            ∃ value, values[i]? = some value ∧ member.HasValueAfter (values.take i) value) ∧
      ∀ (context : Context) (name : String) (arguments : List Shape),
        (context.registry.get name).getLast? = some (Declaration.ofNode n) →
        context.visited.contains name = false → context.tooDeep = false →
        (resolveName context name arguments).outcome = .ok (enumShape members) := by
  have listed : ∀ member ∈ n.children "members",
      (EnumValue.ofValue (.node member)).isListed = true ↔ member.IsListed :=
    fun _ mem => isListed_iff (sound.of_mem_children mem)
  have unknown : enumShape ((n.children "members").map fun member =>
      EnumValue.ofValue (.node member)) = .unknown ↔
        ∃ member ∈ n.children "members", ¬ member.IsListed := by
    rw [enumShape_eq_unknown_iff]
    simp only [List.mem_map, exists_exists_and_eq_and]
    refine exists_congr fun member => and_congr_right fun mem => ?_
    rw [← listed member mem, Bool.not_eq_true]
  refine ⟨_, ofNode_of_enum sound isEnum, unknown, fun known => ?_, ?_⟩
  · rw [Ne, unknown] at known
    simp only [not_exists, not_and, not_not] at known
    exact exists_values_of_listed fun member mem => (listed member mem).mpr (known member mem)
  · intro context name arguments last fresh shallow
    rw [ofNode_of_enum sound isEnum] at last
    exact outcome_resolveName_of_enum last fresh shallow arguments

/-- An enum with members of all kinds that can be listed. -/
def mixedEnum : Node :=
  enumDeclaration "E" [("A", none), ("B", some (numericLiteral (.int 5))),
    ("C", some (stringLiteral "x")), ("D", none),
    ("E", some ⟨"UnaryExpression", [(.unknown "operator", .text "-"),
      (.unknown "argument", .node (numericLiteral (.int 1)))]⟩),
    ("F", none)]

/-- The enum as it is written. -/
def mixedJson : Json :=
  enumDeclarationJson "E" [enumMemberJson "A" .null, enumMemberJson "B" (numericLiteralJson 5),
    enumMemberJson "C" (stringLiteralJson "x"), enumMemberJson "D" .null,
    enumMemberJson "E" (nodeJson "UnaryExpression"
      [("operator", .string "-"), ("argument", numericLiteralJson 1)]),
    enumMemberJson "F" .null]

private theorem distinct_mixedJson : mixedJson.Distinct := by
  simp [mixedJson]

@[simp]
theorem readDocument_mixedJson : readDocument 0 mixedJson = .ok mixedEnum := by
  rfl

/-- After the text the numbering goes on, and the number that comes again is listed once. -/
theorem enum_numbering_mixedEnum :
    mixedEnum.Sound ∧ mixedEnum.kind = .enumDeclaration ∧
      ∃ members, Declaration.ofNode mixedEnum = .enumeration members ∧
        enumShape members = .oneOf [.number (.int 0), .number (.int 5), .text "x",
          .number (.int 6), .number (.int (-1))] ∧
        ∀ member ∈ mixedEnum.children "members", member.IsListed := by
  have sound := sound_of_readNode distinct_mixedJson readDocument_mixedJson
  obtain ⟨members, membersEq, unknownIff, -⟩ := enum_numbering sound rfl
  have shapeEq : enumShape members = .oneOf [.number (.int 0), .number (.int 5), .text "x",
      .number (.int 6), .number (.int (-1))] := by
    rw [ofNode_of_enum sound rfl] at membersEq
    cases membersEq
    rfl
  refine ⟨sound, rfl, members, membersEq, shapeEq, ?_⟩
  intro member mem
  by_contra unlisted
  rw [unknownIff.mpr ⟨member, mem, unlisted⟩] at shapeEq
  cases shapeEq

end PropValidators
