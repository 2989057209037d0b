import PropValidators.Types.References
import PropValidators.Proofs.Patching.Faults
import PropValidators.Proofs.Shapes.Merging
import PropValidators.Proofs.Syntax.Documents
import PropValidators.Proofs.Types.FromOutline

/-!
# The names in a type, in order

The names that a type refers to are met in one walk: the type itself first, then what is walked
through in it, from left to right.  The walk goes into the arguments of a reference, the operands
of a union or an intersection and what stands in parentheses, and nowhere else.  Each name is
listed where it is met first.

So the names of a union or an intersection are those of its operands, one after the other and
each once.  It makes no difference how operands are grouped or put into parentheses.
-/

namespace PropValidators

open Ast

namespace Ast.Node

/-! ## The walk -/

/-- The types right in a type that names are looked for in. -/
def operands (n : Node) : List Node :=
  match n.kind with
  | .typeReference => n.typeArguments.filterMap Value.node?
  | .unionType | .intersectionType => n.children "types"
  | .parenthesizedType => (n.child? "typeAnnotation").toList
  | _ => []

theorem sizeOf_operands {n operand : Node} (mem : operand ∈ n.operands) :
    sizeOf operand < sizeOf n := by
  rw [operands] at mem
  split at mem
  · obtain ⟨value, valueMem, node⟩ := List.mem_filterMap.mp mem
    exact sizeOf_typeArguments valueMem node
  · exact sizeOf_children mem
  · exact sizeOf_children mem
  · exact sizeOf_child? (Option.mem_toList.mp mem)
  · cases mem

theorem Sound.of_mem_operands {n operand : Node} (sound : n.Sound) (mem : operand ∈ n.operands) :
    operand.Sound := by
  rw [operands] at mem
  split at mem
  · obtain ⟨value, valueMem, node⟩ := List.mem_filterMap.mp mem
    obtain ⟨argument, rfl, argumentSound⟩ := exists_node_of_mem_typeArguments sound valueMem
    cases node
    exact argumentSound
  · exact sound.of_mem_children mem
  · exact sound.of_mem_children mem
  · exact sound.of_child? (Option.mem_toList.mp mem)
  · cases mem

/-- The types that are met in a type, each before what is met in it. -/
def typeWalk (n : Node) : List Node :=
  n :: n.operands.attach.flatMap fun ⟨operand, _⟩ => operand.typeWalk
termination_by n
decreasing_by exact sizeOf_operands (by assumption)

theorem typeWalk_eq (n : Node) : n.typeWalk = n :: n.operands.flatMap typeWalk := by
  rw [typeWalk]
  simp only [List.flatMap_subtype, List.unattach_attach]

/-- The dotted name by which a type refers to another one, unless it is empty. -/
def referredName? (n : Node) : Option String :=
  if n.kind = .typeReference then
    ((n.child? "typeName").bind entityName?).filter fun name => name ≠ ""
  else none

/-- The names that are met in a type, as often as they are met. -/
def namesMet (n : Node) : List String :=
  n.typeWalk.filterMap referredName?

theorem namesMet_eq (n : Node) :
    n.namesMet = n.referredName?.toList ++ n.operands.flatMap namesMet := by
  have restEq : (n.operands.flatMap typeWalk).filterMap referredName? =
      n.operands.flatMap namesMet :=
    List.filterMap_flatMap
  rw [namesMet, typeWalk_eq, List.filterMap_cons, restEq]
  cases n.referredName? <;> rfl

private theorem ne_empty_of_mem_namesMet {n : Node} {name : String} (mem : name ∈ n.namesMet) :
    name ≠ "" := by
  obtain ⟨type, -, named⟩ := List.mem_filterMap.mp mem
  rw [referredName?] at named
  split at named
  · rw [Option.filter_eq_some_iff] at named
    simpa using named.2
  · cases named

/-! ## Grouping -/

/-- A type that only groups others, by taking them together or by parentheses. -/
def groups (n : Node) : Bool :=
  n.kind == .unionType || n.kind == .intersectionType || n.kind == .parenthesizedType

/-- The types that are left of a type when all grouping is undone.  An annotation wrapper is no
type to be grouped. -/
def ungrouped (n : Node) : List Node :=
  if n.kind = .annotatedType then []
  else if n.groups then n.operands.attach.flatMap fun ⟨operand, _⟩ => operand.ungrouped
  else [n]
termination_by n
decreasing_by exact sizeOf_operands (by assumption)

private theorem ungrouped_of_groups {n : Node} (grouping : n.groups = true) :
    n.ungrouped = n.operands.flatMap ungrouped := by
  have bare : n.kind ≠ .annotatedType := by
    intro kindEq
    rw [groups, kindEq] at grouping
    cases grouping
  rw [ungrouped, if_neg bare, if_pos grouping]
  simp only [List.flatMap_subtype, List.unattach_attach]

private theorem kind_ne_annotated_of_mem_ungrouped {n part : Node} (mem : part ∈ n.ungrouped) :
    part.kind ≠ .annotatedType := by
  induction sizeEq : sizeOf n using Nat.strong_induction_on generalizing n with
  | _ size ih =>
      subst sizeEq
      rw [ungrouped] at mem
      split at mem
      · cases mem
      · rename_i bare
        split at mem
        · obtain ⟨⟨operand, operandMem⟩, -, partMem⟩ := List.mem_flatMap.mp mem
          exact ih _ (sizeOf_operands operandMem) partMem rfl
        · exact List.mem_singleton.mp mem ▸ bare

theorem referredName?_of_groups {n : Node} (grouping : n.groups = true) :
    n.referredName? = none := by
  rw [referredName?, if_neg]
  intro kindEq
  rw [groups, kindEq] at grouping
  cases grouping

/-- The kinds of the types that names are looked for in. -/
def searchedKinds : List Kind :=
  [.typeReference, .unionType, .intersectionType, .parenthesizedType]

theorem namesMet_of_other {n : Node} (other : n.kind ∉ searchedKinds) : n.namesMet = [] := by
  simp only [searchedKinds, List.mem_cons, List.not_mem_nil, or_false, not_or] at other
  obtain ⟨notReference, notUnion, notIntersection, notParenthesized⟩ := other
  have noOperands : n.operands = [] := by
    rw [operands]
    split <;> first | contradiction | rfl
  rw [namesMet_eq, referredName?, if_neg notReference, noOperands]
  rfl

/-- Grouping adds no names and does not change their order. -/
@[simp]
theorem namesMet_ungrouped (n : Node) : n.ungrouped.flatMap namesMet = n.namesMet := by
  induction sizeEq : sizeOf n using Nat.strong_induction_on generalizing n with
  | _ size ih =>
      subst sizeEq
      by_cases grouping : n.groups = true
      · rw [ungrouped_of_groups grouping, namesMet_eq n, referredName?_of_groups grouping,
          List.flatMap_assoc]
        exact List.flatMap_congr fun operand mem => ih _ (sizeOf_operands mem) operand rfl
      · rw [ungrouped, if_neg grouping]
        split
        · rename_i wrapper
          refine (namesMet_of_other ?_).symm
          rw [wrapper]
          decide
        · rw [List.flatMap_singleton]

end Ast.Node

/-! ## Names without repeats -/

private theorem addName_eq (names : List String) (name : Option String) :
    addName names name =
      (name.filter fun text => text ≠ "").toList.foldl (fun met text => addName met (some text))
        names := by
  cases name with
  | none => rfl
  | some text =>
      by_cases empty : text = ""
      · rw [Option.filter_some, if_neg (by simpa using empty), addName, if_pos (.inl empty)]
        rfl
      · rw [Option.filter_some, if_pos (by simpa using empty)]
        rfl

/-- Adding names one after the other drops those that came before. -/
theorem foldl_addName {names : List String} (named : ∀ name ∈ names, name ≠ "") :
    names.foldl (fun met name => addName met (some name)) [] = names.eraseDups := by
  induction names using List.reverseRecOn with
  | nil => rfl
  | append_singleton names name ih =>
      have nameNe : name ≠ "" := named name (by simp)
      rw [List.foldl_append, ih fun other mem => named other (by simp [mem]),
        Assoc.eraseDups_concat, List.foldl_cons, List.foldl_nil, addName]
      simp only [nameNe, false_or, List.mem_eraseDups]

/-- The names of several types may be made different for each of them first. -/
@[simp]
theorem eraseDups_flatMap_eraseDups {α : Type} (items : List α) (names : α → List String) :
    (items.flatMap fun item => (names item).eraseDups).eraseDups =
      (items.flatMap names).eraseDups := by
  suffices ∀ before, (before ++ items.flatMap fun item => (names item).eraseDups).eraseDups =
      (before ++ items.flatMap names).eraseDups from this []
  induction items with
  | nil => exact fun before => rfl
  | cons item items ih =>
      intro before
      rw [List.flatMap_cons, List.flatMap_cons, ← List.append_assoc, ← List.append_assoc, ih,
        eraseDups_grouped]

/-! ## The names of a type -/

@[simp]
theorem collectNames_ofKeyword (met : List String) (type : String) :
    TypeExpr.collectNames met (TypeExpr.ofKeyword type) = met := by
  rw [TypeExpr.ofKeyword]
  split
  · rfl
  · split <;> rfl

private theorem collectNames_ofLiteral {n : Node} (sound : n.Sound) (met : List String) :
    TypeExpr.collectNames met (TypeExpr.ofLiteral n) = met := by
  rw [ofLiteral_of_sound sound]
  split
  · rfl
  · split <;> rfl

/-- Every other type contributes nothing. -/
theorem collectNames_of_other {n : Node} (sound : n.Sound) (other : n.kind ∉ Node.searchedKinds)
    (met : List String) : TypeExpr.collectNames met (TypeExpr.ofNode n) = met := by
  simp only [Node.searchedKinds, List.mem_cons, List.not_mem_nil, or_false, not_or] at other
  obtain ⟨notReference, notUnion, notIntersection, notParenthesized⟩ := other
  rw [ofNode_of_sound sound, TypeExpr.ofSound]
  split
  case h_2 => exact collectNames_ofKeyword met n.type
  case h_9 =>
    cases held : n.child? "literal" with
    | none => rfl
    | some value => exact collectNames_ofLiteral (sound.of_child? held) met
  case h_11 => split <;> rfl
  case h_12 => split <;> rfl
  all_goals first | contradiction | rfl

private theorem collectNamesOf_map {α : Type} {types : List α} {type : α → TypeExpr}
    {names : α → List String}
    (each : ∀ item ∈ types, ∀ met, TypeExpr.collectNames met (type item) =
      (names item).foldl (fun met name => addName met (some name)) met) (met : List String) :
    TypeExpr.collectNamesOf met (types.map type) =
      (types.flatMap names).foldl (fun met name => addName met (some name)) met := by
  induction types generalizing met with
  | nil => rfl
  | cons item types ih =>
      rw [List.forall_mem_cons] at each
      rw [List.map_cons, TypeExpr.collectNamesOf, each.1, ih each.2, List.flatMap_cons,
        List.foldl_append]

/-- To the names collected so far those met in the walk are added. -/
theorem collectNames_ofNode {n : Node} (sound : n.Sound) (met : List String) :
    TypeExpr.collectNames met (TypeExpr.ofNode n) =
      n.namesMet.foldl (fun met name => addName met (some name)) met := by
  induction sizeEq : sizeOf n using Nat.strong_induction_on generalizing n met with
  | _ size ih =>
      subst sizeEq
      have each : ∀ operand ∈ n.operands, ∀ met,
          TypeExpr.collectNames met (TypeExpr.ofNode operand) =
            operand.namesMet.foldl (fun met name => addName met (some name)) met :=
        fun operand mem met => ih _ (Node.sizeOf_operands mem) (sound.of_mem_operands mem) met rfl
      by_cases searched : n.kind ∈ Node.searchedKinds
      · simp only [Node.searchedKinds, List.mem_cons, List.not_mem_nil, or_false] at searched
        rw [ofNode_of_sound sound, TypeExpr.ofSound, n.namesMet_eq, List.foldl_append]
        rcases searched with isReference | isUnion | isIntersection | isParenthesized
        · have argumentsEq : n.typeArguments.map TypeExpr.ofValue =
              n.operands.map TypeExpr.ofNode := by
            rw [Node.operands, isReference, List.map_filterMap, ← List.filterMap_eq_map]
            apply List.filterMap_congr
            intro value mem
            obtain ⟨argument, rfl, -⟩ := Node.exists_node_of_mem_typeArguments sound mem
            rfl
          rw [isReference, Node.referredName?, if_pos isReference, ← addName_eq, argumentsEq]
          exact collectNamesOf_map each _
        · have operandsEq : n.children "types" = n.operands := by rw [Node.operands, isUnion]
          rw [isUnion, operandsEq, Node.referredName?_of_groups (by rw [Node.groups, isUnion]; rfl)]
          exact collectNamesOf_map each met
        · have operandsEq : n.children "types" = n.operands := by
            rw [Node.operands, isIntersection]
          rw [isIntersection, operandsEq,
            Node.referredName?_of_groups (by rw [Node.groups, isIntersection]; rfl)]
          exact collectNamesOf_map each met
        · have operandsEq : n.operands = (n.child? "typeAnnotation").toList := by
            rw [Node.operands, isParenthesized]
          rw [isParenthesized, ofChild_eq,
            Node.referredName?_of_groups (by rw [Node.groups, isParenthesized]; rfl)]
          dsimp only
          rw [TypeExpr.collectNames]
          cases held : n.child? "typeAnnotation" with
          | none =>
              rw [operandsEq, held]
              rfl
          | some inner =>
              rw [held, Option.toList_some] at operandsEq
              rw [operandsEq, List.flatMap_singleton]
              exact each inner (operandsEq ▸ List.mem_singleton_self inner) met
      · rw [collectNames_of_other sound searched, Node.namesMet_of_other searched]
        rfl

private theorem kind_of_annotated {n : Node} (sound : n.Sound) {type : TypeExpr}
    (typeEq : TypeExpr.ofNode n = .annotated type) : n.kind = .annotatedType := by
  rw [ofNode_of_sound sound, TypeExpr.ofSound] at typeEq
  split at typeEq
  case h_1 wrapper => exact wrapper
  case h_2 =>
    rw [TypeExpr.ofKeyword] at typeEq
    split at typeEq
    · cases typeEq
    · split at typeEq <;> cases typeEq
  case h_9 =>
    cases held : n.child? "literal" with
    | none =>
        rw [held] at typeEq
        cases typeEq
    | some value =>
        rw [held] at typeEq
        dsimp only at typeEq
        rw [ofLiteral_of_sound (sound.of_child? held)] at typeEq
        split at typeEq
        · cases typeEq
        · split at typeEq <;> cases typeEq
  case h_11 => split at typeEq <;> cases typeEq
  case h_12 => split at typeEq <;> cases typeEq
  all_goals cases typeEq

/-- Of an annotation wrapper the type in it is searched. -/
theorem referencedNames_eq {n : Node} (sound : n.Sound) :
    (TypeExpr.ofNode n).referencedNames = n.unwrapped.namesMet.eraseDups := by
  have collected : ∀ {m : Node}, m.Sound →
      TypeExpr.collectNames [] (TypeExpr.ofNode m) = m.namesMet.eraseDups := by
    intro m mSound
    rw [collectNames_ofNode mSound, foldl_addName fun _ => Node.ne_empty_of_mem_namesMet]
  by_cases wrapper : n.kind = .annotatedType
  · have typeEq : TypeExpr.ofNode n = .annotated (TypeExpr.ofChild n "typeAnnotation") := by
      rw [ofNode_of_sound sound, TypeExpr.ofSound, wrapper]
    rw [typeEq, TypeExpr.referencedNames, ofChild_eq, Node.unwrapped, if_pos wrapper]
    cases held : n.child? "typeAnnotation" with
    | none =>
        have nowhere : n.namesMet = [] := Node.namesMet_of_other (by rw [wrapper]; decide)
        rw [Option.getD_none, nowhere]
        rfl
    | some inner => exact collected (sound.of_child? held)
  · rw [Node.unwrapped, if_neg wrapper, ← collected sound, TypeExpr.referencedNames.eq_def]
    split
    · rename_i typeEq
      exact absurd (kind_of_annotated sound typeEq) wrapper
    · rfl

theorem referencedNames_of_bare {n : Node} (sound : n.Sound) (bare : n.kind ≠ .annotatedType) :
    (TypeExpr.ofNode n).referencedNames = n.namesMet.eraseDups := by
  rw [referencedNames_eq sound, Node.unwrapped, if_neg bare]

theorem eraseDups_flatMap_namesMet {nodes : List Node} (sound : ∀ n ∈ nodes, n.Sound)
    (bare : ∀ n ∈ nodes, n.kind ≠ .annotatedType) :
    (nodes.flatMap fun n => (TypeExpr.ofNode n).referencedNames).eraseDups =
      (nodes.flatMap Node.namesMet).eraseDups := by
  rw [← eraseDups_flatMap_eraseDups nodes Node.namesMet]
  congr 1
  exact List.flatMap_congr fun n mem => referencedNames_of_bare (sound n mem) (bare n mem)

theorem Ast.Node.Sound.unwrapped {n : Node} (sound : n.Sound) : n.unwrapped.Sound := by
  rw [Node.unwrapped]
  split
  · cases held : n.child? "typeAnnotation" with
    | none => exact sound
    | some inner => exact sound.of_child? held
  · exact sound

theorem Ast.Node.Sound.of_mem_ungrouped {n part : Node} (sound : n.Sound)
    (mem : part ∈ n.ungrouped) : part.Sound := by
  induction sizeEq : sizeOf n using Nat.strong_induction_on generalizing n with
  | _ size ih =>
      subst sizeEq
      rw [Node.ungrouped] at mem
      split at mem
      · cases mem
      · split at mem
        · obtain ⟨⟨operand, operandMem⟩, -, partMem⟩ := List.mem_flatMap.mp mem
          exact ih _ (Node.sizeOf_operands operandMem) (sound.of_mem_operands operandMem) partMem
            rfl
        · exact List.mem_singleton.mp mem ▸ sound

/-- The names in a type are those of the types that are left when grouping is undone. -/
theorem referencedNames_ungrouped {n : Node} (sound : n.Sound) :
    (TypeExpr.ofNode n).referencedNames =
      (n.unwrapped.ungrouped.flatMap fun part =>
        (TypeExpr.ofNode part).referencedNames).eraseDups := by
  rw [referencedNames_eq sound, ← Node.namesMet_ungrouped n.unwrapped]
  exact (eraseDups_flatMap_namesMet (fun _ => sound.unwrapped.of_mem_ungrouped)
    fun _ => Node.kind_ne_annotated_of_mem_ungrouped).symm

/-- The names in a union or an intersection are those of its operands.  A wrapper among them has
none, for only the outermost one is looked through. -/
theorem referencedNames_operands {n : Node} (sound : n.Sound)
    (isGroup : n.kind = .unionType ∨ n.kind = .intersectionType) :
    (TypeExpr.ofNode n).referencedNames =
      (((n.children "types").filter fun operand => operand.kind ≠ .annotatedType).flatMap
        fun operand => (TypeExpr.ofNode operand).referencedNames).eraseDups := by
  have bare : n.kind ≠ .annotatedType := by
    rcases isGroup with kindEq | kindEq <;>
      · rw [kindEq]
        decide
  have grouping : n.groups = true := by
    rcases isGroup with kindEq | kindEq <;>
      · rw [Node.groups, kindEq]
        rfl
  have operandsEq : n.operands = n.children "types" := by
    rcases isGroup with kindEq | kindEq <;> rw [Node.operands, kindEq]
  have leftOut : ((n.children "types").filter fun operand => operand.kind ≠ .annotatedType).flatMap
      Node.namesMet = (n.children "types").flatMap Node.namesMet := by
    induction n.children "types" with
    | nil => rfl
    | cons operand operands ih =>
        rw [List.filter_cons, List.flatMap_cons, ← ih]
        by_cases wrapper : operand.kind = .annotatedType
        · have nowhere : operand.namesMet = [] :=
            Node.namesMet_of_other (by rw [wrapper]; decide)
          rw [if_neg (by simpa using wrapper), nowhere, List.nil_append]
        · rw [if_pos (by simpa using wrapper), List.flatMap_cons]
  rw [referencedNames_of_bare sound bare, n.namesMet_eq, Node.referredName?_of_groups grouping,
    operandsEq, eraseDups_flatMap_namesMet, leftOut]
  · rfl
  · exact fun operand mem => sound.of_mem_children (List.mem_filter.mp mem).1
  · exact fun operand mem => by simpa using (List.mem_filter.mp mem).2

/-- The names that a type refers to are the dotted names met in a walk through it, each listed
where it comes first.  Those of a union or an intersection are the names of its operands, and
types with the same parts have the same names, however these are grouped. -/
theorem referencedNames_laws {n : Node} (sound : n.Sound) :
    (TypeExpr.ofNode n).referencedNames =
        (n.unwrapped.typeWalk.filterMap Node.referredName?).eraseDups ∧
      (n.kind = .unionType ∨ n.kind = .intersectionType →
        (TypeExpr.ofNode n).referencedNames =
          (((n.children "types").filter fun operand => operand.kind ≠ .annotatedType).flatMap
            fun operand => (TypeExpr.ofNode operand).referencedNames).eraseDups) ∧
      (TypeExpr.ofNode n).referencedNames =
        (n.unwrapped.ungrouped.flatMap fun part =>
          (TypeExpr.ofNode part).referencedNames).eraseDups ∧
      ∀ m : Node, m.Sound →
        (m.unwrapped.ungrouped.map fun part => (TypeExpr.ofNode part).referencedNames) =
          (n.unwrapped.ungrouped.map fun part => (TypeExpr.ofNode part).referencedNames) →
        (TypeExpr.ofNode m).referencedNames = (TypeExpr.ofNode n).referencedNames := by
  refine ⟨referencedNames_eq sound, referencedNames_operands sound,
    referencedNames_ungrouped sound, ?_⟩
  intro m mSound same
  rw [referencedNames_ungrouped mSound, referencedNames_ungrouped sound, List.flatMap_def,
    List.flatMap_def, same]

/-- The type that is a qualified name. -/
def qualifiedReference (left right : String) : Node :=
  .ofDeclared "TSTypeReference"
    [("typeName", .node (.ofDeclared "TSQualifiedName"
      [("left", .node (identifier left)), ("right", .node (identifier right))])),
      ("typeParameters", .null)]

/-- A type in parentheses. -/
def parenthesized (type : Node) : Node :=
  .ofDeclared "TSParenthesizedType" [("typeAnnotation", .node type)]

/-- A union of a reference with an argument and of an intersection in parentheses, in which the
argument comes again. -/
def sharedNames : Node :=
  annotatedBy (union [reference "A" [reference "B" []],
    parenthesized (intersection [reference "B" [], qualifiedReference "C" "D"])])

/-- The type as it is written. -/
def sharedNamesJson : Json :=
  let dotted := nodeJson "TSQualifiedName"
    [("left", identifierJson "C"), ("right", identifierJson "D")]
  nodeJson "TSTypeAnnotation" [("typeAnnotation", nodeJson "TSUnionType" [("types", .array [
    genericReferenceJson "A" [referenceJson "B"],
    nodeJson "TSParenthesizedType" [("typeAnnotation", intersectionJson [referenceJson "B",
      nodeJson "TSTypeReference" [("typeName", dotted), ("typeParameters", .null)]])]])])]

private theorem distinct_sharedNamesJson : sharedNamesJson.Distinct := by
  simp [sharedNamesJson]

@[simp]
theorem readDocument_sharedNamesJson : readDocument 0 sharedNamesJson = .ok sharedNames := by
  rfl

private theorem namesMet_reference {name : String} (named : name ≠ "") (arguments : List Node) :
    (reference name arguments).namesMet =
      name :: (reference name arguments).operands.flatMap Node.namesMet := by
  have referredEq : (reference name arguments).referredName? = some name := by
    change Option.filter _ (identifier name).entityName? = _
    rw [entityName?_identifier, Option.filter_some, if_pos (by simpa using named)]
  rw [Node.namesMet_eq, referredEq]
  rfl

private theorem namesMet_qualifiedReference {left right : String} (leftNamed : left ≠ "")
    (rightNamed : right ≠ "") :
    (qualifiedReference left right).namesMet = [left ++ "." ++ right] := by
  have referredEq : (qualifiedReference left right).referredName? =
      some (left ++ "." ++ right) := by
    let qualified : Node := .ofDeclared "TSQualifiedName"
      [("left", .node (identifier left)), ("right", .node (identifier right))]
    have sound : qualified.Sound :=
      sound_ofDeclared [("left", .node), ("right", .node)] (by decide)
        (.cons ⟨rfl, (fresh_identifier left).freshIn.1⟩
          (.cons ⟨rfl, (fresh_identifier right).freshIn.1⟩ .nil))
    change Option.filter _ qualified.entityName? = _
    rw [Node.entityName?_of_qualifiedName sound rfl]
    change Option.filter _ (Node.joined? (identifier left).entityName?
      (identifier right).entityName?) = _
    rw [entityName?_identifier, entityName?_identifier]
    change Option.filter _ (if left = "" ∨ right = "" then none else _) = _
    rw [if_neg (not_or.mpr ⟨leftNamed, rightNamed⟩), Option.filter_some,
      if_pos (by simp)]
  rw [Node.namesMet_eq, referredEq]
  rfl

@[simp]
theorem namesMet_sharedNames : sharedNames.unwrapped.namesMet = ["A", "B", "B", "C.D"] := by
  have b : (reference "B" []).namesMet = ["B"] := by
    rw [namesMet_reference (by decide)]
    rfl
  have a : (reference "A" [reference "B" []]).namesMet = ["A", "B"] := by
    rw [namesMet_reference (by decide)]
    change _ :: [reference "B" []].flatMap Node.namesMet = _
    rw [List.flatMap_singleton, b]
  have both : (intersection [reference "B" [], qualifiedReference "C" "D"]).namesMet =
      ["B", "C.D"] := by
    rw [Node.namesMet_eq]
    change [reference "B" [], qualifiedReference "C" "D"].flatMap Node.namesMet = _
    rw [List.flatMap_cons, List.flatMap_singleton, b,
      namesMet_qualifiedReference (by decide) (by decide)]
    rfl
  have inParentheses : (parenthesized (intersection
      [reference "B" [], qualifiedReference "C" "D"])).namesMet = ["B", "C.D"] := by
    rw [Node.namesMet_eq]
    change [intersection [reference "B" [], qualifiedReference "C" "D"]].flatMap
      Node.namesMet = _
    rw [List.flatMap_singleton, both]
  rw [Node.namesMet_eq]
  change [reference "A" [reference "B" []], parenthesized (intersection
    [reference "B" [], qualifiedReference "C" "D"])].flatMap Node.namesMet = _
  rw [List.flatMap_cons, List.flatMap_singleton, a, inParentheses]
  rfl

/-- The argument is listed once, where it is met first. -/
theorem referencedNames_laws_sharedNames :
    readDocument 0 sharedNamesJson = .ok sharedNames ∧ sharedNames.Sound ∧
      (TypeExpr.ofNode sharedNames).referencedNames = ["A", "B", "C.D"] := by
  have sound := sound_of_readNode distinct_sharedNamesJson readDocument_sharedNamesJson
  have names : sharedNames.unwrapped.namesMet.eraseDups = ["A", "B", "C.D"] := by
    rw [namesMet_sharedNames]
    rfl
  exact ⟨readDocument_sharedNamesJson, sound, (referencedNames_laws sound).1.trans names⟩

end PropValidators
