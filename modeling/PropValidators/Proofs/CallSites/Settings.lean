import PropValidators.Proofs.CallSites.Literals
import PropValidators.Proofs.Types.FromExpanded

/-!
# What is read off a call

The options that a call sets, and the shape that its type argument has, are read without a fault
off a sound call, apart from a depth limit that is no finite number and from what stops a
resolution.  They stay the same when calls inside the call are replaced: an object that a replaced
call has turned into sets no option, since no value in it is a truth value or a number.
-/

namespace PropValidators

open Ast Node

variable {n after : Node} {change : Slot → Node → Node}

theorem kind_of_calls {callee : String} (calls : n.calls callee = true) :
    n.kind = .callExpression := by
  rw [Node.calls, Bool.and_eq_true, beq_iff_eq] at calls
  exact calls.1

/-- A node calls one function at most. -/
theorem eq_of_calls {callee other : String} (calls : n.calls callee = true)
    (others : n.calls other = true) : callee = other := by
  rw [Node.calls, Bool.and_eq_true] at calls others
  cases held : n.child? "callee" with
  | none =>
      rw [held] at calls
      cases calls.2
  | some f =>
      rw [held] at calls others
      simp only [Bool.and_eq_true, beq_iff_eq] at calls others
      exact Option.some_inj.mp (calls.2.2.symm.trans others.2.2)

/-- A node still calls what it called. -/
theorem calls_mapSlots (each : ∀ slot c, n.inSlot? slot = some c → Expanded c (change slot c))
    (callee : String) : (n.mapSlots change).calls callee = n.calls callee := by
  let named (f : Node) : Bool := f.kind == .identifier && f.text? "name" == some callee
  have calls_eq : ∀ m : Node, m.calls callee =
      (m.kind == .callExpression && ((m.child? "callee").map named).getD false) := by
    intro m
    rw [Node.calls]
    cases m.child? "callee" <;> rfl
  have calleeEq : ((n.mapSlots change).child? "callee").map named =
      (n.child? "callee").map named := by
    refine map_child?_mapSlots each fun f _ after expanded => ?_
    by_cases isName : f.kind = .identifier
    · obtain ⟨change, rfl, -⟩ := expanded.within_of_kind (by rw [isName]; decide)
      simp only [named, kind_mapSlots, text?_mapSlots]
    · have noName : after.kind ≠ .identifier := fun eq =>
        isName ((expanded.kind_eq_iff (by decide)).mp eq)
      simp only [named, beq_eq_false_iff_ne.mpr isName, beq_eq_false_iff_ne.mpr noName,
        Bool.false_and]
  rw [calls_eq, calls_eq, kind_mapSlots, calleeEq]

/-- The value of an option in the object literal that is the first argument of a call. -/
def Ast.Node.setting? (call : Node) (name : String) : Option Node :=
  (call.children "arguments").head?.bind fun options => options.propertyValue? name

theorem Ast.Node.Sound.of_propertyValue? (sound : n.Sound) {name : String} {value : Node}
    (found : n.propertyValue? name = some value) : value.Sound := by
  rw [propertyValue?] at found
  split at found
  · obtain ⟨p, pFound, held⟩ := Option.bind_eq_some_iff.mp found
    exact (sound.of_mem_children (List.mem_of_find?_eq_some pFound)).of_child? held
  · cases found

theorem Ast.Node.Sound.of_setting? (sound : n.Sound) {name : String} {value : Node}
    (found : n.setting? name = some value) : value.Sound := by
  obtain ⟨options, head, held⟩ := Option.bind_eq_some_iff.mp found
  exact (sound.of_mem_children (List.mem_of_head? head)).of_propertyValue? held

/-- A sound call holds a list of nodes as its arguments. -/
theorem held?_arguments (sound : n.Sound) (isCall : n.kind = .callExpression) :
    n.held? (.declared "arguments") = some (.nodes (n.children "arguments")) := by
  have specEq : n.kind.specOfKey? "arguments" = some ⟨"arguments", "arguments", .nodes⟩ :=
    Node.specOfKey?_of_kind isCall rfl
  have itemsEq := sound.items_eq_map_node specEq rfl
  rw [Node.items] at itemsEq
  rw [held?, Value.nodes, ← itemsEq]
  cases held : n.get? "arguments" with
  | none =>
      rw [specEq]
      rfl
  | some value =>
      have fits := sound.fits_of_get? specEq held
      cases value with
      | list items => rfl
      | node m => exact fits.1.elim
      | data json => exact fits.elim

/-- The options of a sound call are read without a fault. -/
theorem option?_of_sound (sound : n.Sound) (isCall : n.kind = .callExpression) (name : String) :
    n.option? name 0 = .ok (n.setting? name) := by
  have nameEq : n.kind.nameOf "arguments" = .declared "arguments" := by
    rw [isCall]
    decide
  rw [option?, argument?, nameEq, held?_arguments sound isCall, setting?]
  cases n.children "arguments" <;> rfl

/-- What is found in nodes by a test, and read off there, is the same in what they become, if the
test is the same for all of them and the reading for those that pass. -/
theorem bind_find?_of_forall₂ {β : Type} {test : Node → Bool} {read : Node → Option β}
    {nodes others : List Node} (expanded : List.Forall₂ Expanded nodes others)
    (sameTest : ∀ c ∈ nodes, ∀ after, Expanded c after → test after = test c)
    (sameRead : ∀ c ∈ nodes, test c = true → ∀ after, Expanded c after → read after = read c) :
    (others.find? test).bind read = (nodes.find? test).bind read := by
  induction expanded with
  | nil => rfl
  | @cons c after nodes others head _ ih =>
      rw [List.forall_mem_cons] at sameTest sameRead
      rw [List.find?_cons, List.find?_cons, sameTest.1 after head]
      cases passes : test c with
      | true => exact sameRead.1 passes after head
      | false => exact ih sameTest.2 sameRead.2

section Reading

variable {β : Type} {read : Node → Option β}
  (same : ∀ v : Node, v.Sound → ∀ after, Expanded v after → read after = read v)
  (quiet : ∀ v : Node, v.kind = .objectExpression → read v = none)

include same quiet

/-- The values under the keys of an object stay the same for a reading that no object says
anything to. -/
theorem bind_propertyValue?_expanded (sound : n.Sound) (expanded : Expanded n after)
    (name : String) :
    (after.propertyValue? name).bind read = (n.propertyValue? name).bind read := by
  cases expanded with
  | replaced isCall plain =>
      rw [propertyValue?_of_kind _ isCall (by decide)]
      cases found : after.propertyValue? name with
      | none => rfl
      | some value => exact quiet value (plain.options name value found)
  | @within n change each =>
      rw [propertyValue?, propertyValue?, kind_mapSlots]
      split
      · rw [Option.bind_assoc, Option.bind_assoc]
        refine bind_find?_of_forall₂ (forall₂_children each "properties") ?_ ?_
        · intro p mem other expanded
          by_cases isProperty : p.kind = .objectProperty
          · obtain ⟨change, rfl, each⟩ := expanded.within_of_kind (by rw [isProperty]; decide)
            rw [kind_mapSlots, propertyName?_mapSlots each]
          · have noProperty : other.kind ≠ .objectProperty := fun eq =>
              isProperty ((expanded.kind_eq_iff (by decide)).mp eq)
            rw [beq_eq_false_iff_ne.mpr isProperty, beq_eq_false_iff_ne.mpr noProperty,
              Bool.false_and, Bool.false_and]
        · intro p mem passes other expanded
          rw [Bool.and_eq_true, beq_iff_eq] at passes
          obtain ⟨change, rfl, each⟩ := expanded.within_of_kind (by rw [passes.1]; decide)
          exact bind_child?_mapSlots each fun v held after expanded =>
            same v ((sound.of_mem_children mem).of_child? held) after expanded
      · rfl

/-- An option is read off a call as before. -/
theorem bind_setting?_mapSlots (sound : n.Sound)
    (each : ∀ slot c, n.inSlot? slot = some c → Expanded c (change slot c)) (name : String) :
    ((n.mapSlots change).setting? name).bind read = (n.setting? name).bind read := by
  have expanded := forall₂_children each "arguments"
  have argumentSound := fun c (mem : c ∈ n.children "arguments") => sound.of_mem_children mem
  rw [setting?, setting?]
  generalize n.children "arguments" = nodes at expanded argumentSound ⊢
  generalize (n.mapSlots change).children "arguments" = others at expanded ⊢
  cases expanded with
  | nil => rfl
  | cons head _ =>
      exact bind_propertyValue?_expanded same quiet (argumentSound _ List.mem_cons_self) head name

end Reading

/-- What is read off a literal, if it is of a kind. -/
def Ast.Node.readAs {β : Type} (kind : Kind) (read : Node → β) (n : Node) : Option β :=
  if n.kind = kind then some (read n) else none

theorem readAs_expanded {β : Type} {kind : Kind} {read : Node → β}
    (apart : kind ∉ muteKinds)
    (same : ∀ (n : Node) change, read (n.mapSlots change) = read n) (expanded : Expanded n after) :
    after.readAs kind read = n.readAs kind read := by
  by_cases isKind : n.kind = kind
  · obtain ⟨change, rfl, -⟩ := expanded.within_of_kind fun isCall =>
      apart (isKind ▸ isCall ▸ List.mem_cons_self)
    rw [readAs, readAs, kind_mapSlots, same]
  · rw [readAs, readAs, if_neg isKind, if_neg fun eq => isKind ((expanded.kind_eq_iff apart).mp eq)]

/-- Whether a call sets the option that keeps it in production builds. -/
def keptInProduction (call : Node) : Bool :=
  ((call.setting? productionOption).bind (readAs .booleanLiteral fun v => v.flag "value")).getD
    false

theorem allowedInProduction_of_sound (sound : n.Sound) (isCall : n.kind = .callExpression) :
    allowedInProduction n = .ok (keptInProduction n) := by
  rw [allowedInProduction, option?_of_sound sound isCall, keptInProduction]
  cases n.setting? productionOption with
  | none => rfl
  | some value =>
      change Except.ok (value.kind == .booleanLiteral && value.flag "value") = _
      rw [Option.bind_some, readAs]
      by_cases isTruth : value.kind = .booleanLiteral
      · rw [if_pos isTruth, isTruth, beq_self_eq_true, Bool.true_and, Option.getD_some]
      · rw [if_neg isTruth, beq_eq_false_iff_ne.mpr isTruth, Bool.false_and, Option.getD_none]

theorem keptInProduction_mapSlots (sound : n.Sound)
    (each : ∀ slot c, n.inSlot? slot = some c → Expanded c (change slot c)) :
    keptInProduction (n.mapSlots change) = keptInProduction n := by
  rw [keptInProduction, keptInProduction, bind_setting?_mapSlots ?same ?quiet sound each]
  case same =>
    exact fun v _ after expanded =>
      readAs_expanded (by decide) (fun m change => flag_mapSlots change m "value") expanded
  case quiet =>
    intro v isObject
    rw [readAs, isObject, if_neg (by decide)]

/-- The number that a call sets as its depth limit. -/
def limitNumber? (call : Node) : Option Number :=
  ((call.setting? depthOption).bind (readAs .numericLiteral fun v => v.number? "value")).join

theorem callLimit?_of_sound (sound : n.Sound) (isCall : n.kind = .callExpression) :
    callLimit? n = match limitNumber? n with
      | none => pure none
      | some number => some <$> limitOf number := by
  rw [callLimit?, option?_of_sound sound isCall, limitNumber?]
  cases found : n.setting? depthOption with
  | none => rfl
  | some value =>
      change (if value.kind = .numericLiteral then _ else pure none) = _
      rw [Option.bind_some, readAs]
      by_cases isNumber : value.kind = .numericLiteral
      · have specEq : value.kind.specOfKey? "value" = some ⟨"value", "value", .number⟩ :=
          Node.specOfKey?_of_kind isNumber rfl
        rw [if_pos isNumber, if_pos isNumber, (sound.of_setting? found).child?_eq_none specEq rfl]
        cases value.number? "value" <;> rfl
      · rw [if_neg isNumber, if_neg isNumber]
        rfl

theorem limitNumber?_mapSlots (sound : n.Sound)
    (each : ∀ slot c, n.inSlot? slot = some c → Expanded c (change slot c)) :
    limitNumber? (n.mapSlots change) = limitNumber? n := by
  rw [limitNumber?, limitNumber?, bind_setting?_mapSlots ?same ?quiet sound each]
  case same =>
    exact fun v _ after expanded =>
      readAs_expanded (by decide) (fun m change => number?_mapSlots change m "value") expanded
  case quiet =>
    intro v isObject
    rw [readAs, isObject, if_neg (by decide)]

theorem argumentShape_eq (context : Context) (call : Node) :
    argumentShape context call = match (call.typeArguments.map TypeExpr.ofValue).head? with
      | none => pure none
      | some type => some <$> resolveType context type := by
  rw [argumentShape]
  cases call.typeArguments <;> rfl

theorem argumentShape_mapSlots (sound : n.Sound)
    (each : ∀ slot c, n.inSlot? slot = some c → Expanded c (change slot c)) (context : Context) :
    argumentShape context (n.mapSlots change) = argumentShape context n := by
  rw [argumentShape_eq, argumentShape_eq, map_ofValue_expanded sound each]

end PropValidators
