import PropValidators.Proofs.Patching.Registered
import PropValidators.Proofs.Resolution.Bounds
import PropValidators.Proofs.Resolution.Inheritance
import PropValidators.Proofs.Resolution.Readable
import PropValidators.Proofs.Syntax.Reading

/-!
# Resolution in modules that can be read

In modules that were read without issues everything stands where it must, except perhaps in
wrapped elements of tuples.  If there are nodes in these, too, then a resolution meets no malformed
type.  It stops only where fields are selected by keys one of which is an integer with too many
digits for a text.  What it cannot see is unknown.
-/

namespace PropValidators

open Ast

/-- An outcome is a result.  Where something cannot be written, it may instead be the fault of
writing an integer with too many digits. -/
def ReturnsIf {α : Type} (writable : Prop) (outcome : Except Fault α) : Prop :=
  (∃ a, outcome = .ok a) ∨ (outcome = .error .unwritableInteger ∧ ¬writable)

namespace ReturnsIf

variable {α β : Type} {writable : Prop}

theorem ok (a : α) : ReturnsIf writable (.ok a) :=
  .inl ⟨a, rfl⟩

theorem imp {other : Prop} {outcome : Except Fault α} (returns : ReturnsIf writable outcome)
    (implies : other → writable) : ReturnsIf other outcome :=
  returns.imp_right fun stopped => ⟨stopped.1, fun holds => stopped.2 (implies holds)⟩

theorem exists_ok {outcome : Except Fault α} (returns : ReturnsIf writable outcome)
    (all : writable) : ∃ a, outcome = .ok a :=
  returns.resolve_right fun stopped => stopped.2 all

theorem map {outcome : Except Fault α} (returns : ReturnsIf writable outcome) (f : α → β) :
    ReturnsIf writable (outcome.map f) := by
  rcases returns with ⟨a, rfl⟩ | ⟨rfl, unwritable⟩
  · exact ok (f a)
  · exact .inr ⟨rfl, unwritable⟩

theorem bind_except {outcome : Except Fault α} {next : α → Except Fault β}
    (returns : ReturnsIf writable outcome) (rest : ∀ a, ReturnsIf writable (next a)) :
    ReturnsIf writable (outcome.bind next) := by
  rcases returns with ⟨a, rfl⟩ | ⟨rfl, unwritable⟩
  · exact rest a
  · exact .inr ⟨rfl, unwritable⟩

theorem bind {t : Traced α} {next : α → Traced β} (returns : ReturnsIf writable t.outcome)
    (rest : ∀ a, ReturnsIf writable (next a).outcome) :
    ReturnsIf writable (t >>= next).outcome := by
  rw [Traced.outcome_bind]
  exact bind_except returns rest

theorem mapM_id {ts : List (Traced α)} (each : ∀ t ∈ ts, ReturnsIf writable t.outcome) :
    ReturnsIf writable (ts.mapM id).outcome := by
  induction ts with
  | nil => exact ok []
  | cons t ts ih =>
      rw [List.forall_mem_cons] at each
      rw [List.mapM_cons]
      exact bind each.1 fun a => bind (ih each.2) fun others => ok (a :: others)

theorem mapM {f : α → Except Fault β} {as : List α}
    (each : ∀ a ∈ as, ReturnsIf writable (f a)) : ReturnsIf writable (as.mapM f) := by
  induction as with
  | nil => exact ok []
  | cons a as ih =>
      rw [List.forall_mem_cons] at each
      rw [List.mapM_cons]
      exact bind_except each.1 fun b => bind_except (ih each.2) fun bs => ok (b :: bs)

end ReturnsIf

/-- Modules that were read without issues, and have nodes in wrapped elements of tuples. -/
structure Readable (modules : List Node) : Prop where
  accepted : ∀ root ∈ modules, ∃ (x : Json) (number : Nat),
    x.Distinct ∧ readDocument number x = .ok root
  wrapped : ∀ root ∈ modules, Resolution.WrapsNodes root

/-- A node stands in one of some modules. -/
def StandsIn (modules : List Node) (n : Node) : Prop :=
  ∃ root ∈ modules, n ∈ root.walk

theorem StandsIn.below {modules : List Node} {n m : Node} (stands : StandsIn modules n)
    (below : m.Below n) : StandsIn modules m := by
  obtain ⟨root, rootMem, mem⟩ := stands
  rw [root.walk_eq_tree] at mem
  refine ⟨root, rootMem, ?_⟩
  rw [root.walk_eq_tree]
  exact (root.tree_infix_of_mem n mem).subset below.mem_tree

namespace Readable

variable {modules : List Node} {root n : Node}

theorem sound (readable : Readable modules) (mem : root ∈ modules) : root.Sound := by
  obtain ⟨x, number, distinct, read⟩ := readable.accepted root mem
  exact sound_of_readNode distinct read

theorem mono {more : List Node} (readable : Readable more) (subset : modules ⊆ more) :
    Readable modules :=
  ⟨fun root mem => readable.accepted root (subset mem),
    fun root mem => readable.wrapped root (subset mem)⟩

theorem sound_of_standsIn (readable : Readable modules) (stands : StandsIn modules n) :
    n.Sound := by
  obtain ⟨root, rootMem, mem⟩ := stands
  exact root.sound_of_mem_tree (readable.sound rootMem) n (root.walk_eq_tree ▸ mem)

/-- The declarations of readable modules can be registered. -/
theorem registrationFault?_eq_none (readable : Readable modules) :
    registrationFault? (modules.flatMap declarationNodes) = none := by
  rw [registrationFault?, List.findSome?_eq_none_iff]
  intro n mem
  obtain ⟨root, rootMem, found⟩ := List.mem_flatMap.mp mem
  have own := registrationFault?_of_sound (readable.sound rootMem)
  rw [registrationFault?, List.findSome?_eq_none_iff] at own
  exact own n found

end Readable

/-- A value is no integer with too many digits for a text. -/
def Literal.Writable (value : Literal) : Prop :=
  value.isUnwritable = false

/-- All values in modules can be written. -/
def AllWritable (modules : List Node) : Prop :=
  ∀ root ∈ modules, Resolution.LiteralsAllowed Literal.Writable root

/-- All values in a tree can be written, as far as the literals and the enums in it are listed. -/
def Ast.Node.writesAll (root : Node) : Bool :=
  root.walk.all fun m =>
    ((literalValue? m).all fun value => !value.isUnwritable) &&
      (m.kind != .enumDeclaration ||
        (enumValues (.int 0) ((m.items "members").map EnumValue.ofValue)).all fun values =>
          values.all fun value => !value.isUnwritable)

theorem literalsAllowed_of_writesAll {root : Node} (all : root.writesAll = true) :
    Resolution.LiteralsAllowed Literal.Writable root := by
  have each (m : Node) (mem : m ∈ root.walk) :=
    Bool.and_eq_true_iff.mp (List.all_eq_true.mp all m mem)
  constructor
  · intro m mem value valueEq
    have here := (each m mem).1
    rw [valueEq, Option.all_some, Bool.not_eq_true'] at here
    exact here
  · intro m mem isEnum values valuesEq value valueMem
    have here := (each m mem).2
    rw [isEnum, valuesEq, bne_self_eq_false, Bool.false_or, Option.all_some] at here
    have writable := List.all_eq_true.mp here value valueMem
    rw [Bool.not_eq_true'] at writable
    exact writable

theorem wrapsNodes_of_unwrapped {root : Node}
    (unwrapped : (root.tree.all fun m => (tupleWrapper? m).isNone) = true) :
    Resolution.WrapsNodes root := by
  intro m mem key value wrapper
  have none := List.all_eq_true.mp unwrapped m (root.walk_eq_tree ▸ mem)
  rw [wrapper] at none
  cases none

/-- A number is no integer with too many digits for a text. -/
def Number.Writable (n : Number) : Prop :=
  n.isUnwritable = false

/-- The limit that holds where none is given can be written. -/
theorem writable_maxDepth_default : ({} : Options).maxDepth.Writable := by
  change decide (Number.firstUnwritable ≤ 10) = false
  decide +kernel

/-- All values that a resolution has in sight can be written: those in the modules, those in the
shapes that are bound to parameters, and the limit. -/
structure WritableIn (modules : List Node) (context : Context) : Prop where
  modules : AllWritable modules
  bound : ∀ frame ∈ context.bindings.head?, ∀ binding ∈ frame,
    binding.2.Values Literal.Writable
  limit : context.maxDepth.Writable

namespace Resolution

/-- If everything in sight can be written, then only that is met, and there are no faults; and if
not, the only fault is that of writing. -/
def Admission.limited (writable : Prop) : Admission where
  literal value := writable → value.Writable
  fault fault := fault = .unwritableInteger ∧ ¬writable
  text _ _ := rfl
  mapOrigin change value allowed all := by
    have same := allowed all
    unfold Literal.mapOrigin
    split
    · rfl
    · exact same
  unwritable value allowed unwritable :=
    ⟨rfl, fun all => by
      rw [show value.isUnwritable = false from allowed all] at unwritable
      cases unwritable⟩

open Admission

variable {writable : Prop} {modules : List Node} {context : Context} {n : Node}

theorem values_limited {shape : Shape} (values : writable → shape.Values Literal.Writable) :
    shape.Values (limited writable).literal := by
  by_cases all : writable
  · exact (values all).imp fun _ allowed value mem _ => allowed value mem
  · exact Division.everywhere_of_forall (fun _ _ _ absurd => (all absurd).elim) shape

theorem admitsNode_of_readable (readable : Readable modules) (all : writable → AllWritable modules)
    (stands : StandsIn modules n) : (limited writable).AdmitsNode n := by
  obtain ⟨root, rootMem, mem⟩ := stands
  refine AdmitsNode.of_mem_walk
    ⟨readable.sound rootMem, readable.wrapped root rootMem, ?literals, ?enums⟩ mem
  case literals =>
    exact fun m inner value valueEq holds => (all holds root rootMem).literals m inner value valueEq
  case enums =>
    exact fun m inner isEnum values valuesEq value valueMem holds =>
      (all holds root rootMem).enums m inner isEnum values valuesEq value valueMem

private theorem admitsRegistry_of_readable (readable : Readable modules)
    (all : writable → AllWritable modules) :
    (limited writable).AdmitsRegistry (registryOf modules) := by
  intro name declaration mem
  obtain ⟨root, rootMem, n, found, rfl⟩ := exists_of_mem_registryOf mem
  have stands : StandsIn modules n := ⟨root, rootMem, (List.mem_filter.mp found).1⟩
  exact admitsDeclaration_ofNode (admitsNode_of_readable readable all stands)
    (isDeclaration_of_mem found)

theorem admitsAround_of_readable (readable : Readable modules)
    (declared : context.registry = registryOf modules) (all : writable → AllWritable modules)
    (limit : writable → context.maxDepth.Writable) : (limited writable).AdmitsAround context where
  registry := declared ▸ admitsRegistry_of_readable readable all
  limit fault faultEq := by
    obtain ⟨rfl, unwritable⟩ := Number.writingFault?_eq_some_iff.mp faultEq
    refine ⟨rfl, fun holds => ?_⟩
    rw [show context.maxDepth.isUnwritable = false from limit holds] at unwritable
    cases unwritable

/-- An outcome at a goal or at an admitted fault is a result, or there is something that cannot be
written. -/
theorem returnsIf_of_arrives {α : Type} {goal : α → Prop} {outcome : Except Fault α}
    (arrives : (boundContract (limited writable)).Arrives goal outcome) :
    ReturnsIf writable outcome := by
  cases outcome with
  | ok a => exact .ok a
  | error fault => exact .inr ⟨congrArg Except.error arrives.1, arrives.2⟩

/-- The resolution of a name returns if the arguments can be written, and so can the limit and all
values in the modules. -/
theorem returns_resolveName (readable : Readable modules)
    (declared : context.registry = registryOf modules) (name : String) (arguments : List Shape) :
    ReturnsIf
      (AllWritable modules ∧ (∀ shape ∈ arguments, shape.Values Literal.Writable) ∧
        context.maxDepth.Writable)
      (resolveName context name arguments).outcome := by
  generalize writableEq : (AllWritable modules ∧
    (∀ shape ∈ arguments, shape.Values Literal.Writable) ∧ context.maxDepth.Writable) = writable
  have all : writable → _ := writableEq.mpr
  have asks : (boundContract (limited writable)).Asks context (.name name arguments) :=
    ⟨admitsAround_of_readable readable declared (fun holds => (all holds).1)
        fun holds => (all holds).2.2,
      fun isOpen => (by cases isOpen),
      fun shape mem => values_limited fun holds => (all holds).2.1 shape mem⟩
  exact returnsIf_of_arrives (arrives_within asks)

/-- Any other resolution returns if all values in sight can be written. -/
theorem returns_resolved (readable : Readable modules)
    (declared : context.registry = registryOf modules) (query : Query)
    (admits : (limited (WritableIn modules context)).AdmitsQuery query) :
    ReturnsIf (WritableIn modules context) (resolved context query) := by
  have asks : (boundContract (limited (WritableIn modules context))).Asks context query :=
    ⟨admitsAround_of_readable readable declared WritableIn.modules WritableIn.limit,
      fun _ frame head binding mem =>
        values_limited fun all => all.bound frame head binding mem,
      admits⟩
  exact returnsIf_of_arrives (arrives_within asks)

theorem admitsNode_of_standsIn (readable : Readable modules) (context : Context)
    (stands : StandsIn modules n) : (limited (WritableIn modules context)).AdmitsNode n :=
  admitsNode_of_readable readable WritableIn.modules stands

theorem returns_resolveType (readable : Readable modules)
    (declared : context.registry = registryOf modules) (stands : StandsIn modules n) :
    ReturnsIf (WritableIn modules context) (resolveType context (.ofNode n)).outcome :=
  returns_resolved readable declared (.type (.ofNode n))
    (admits_ofNode (admitsNode_of_standsIn readable context stands))

theorem returns_resolveNullable (readable : Readable modules)
    (declared : context.registry = registryOf modules) (stands : StandsIn modules n) :
    ReturnsIf (WritableIn modules context) (resolveNullable context (.ofNode n)).outcome :=
  returns_resolved readable declared (.nullable (.ofNode n))
    (admits_ofNode (admitsNode_of_standsIn readable context stands))

theorem returns_memberFields (readable : Readable modules)
    (declared : context.registry = registryOf modules) {nodes : List Node}
    (stand : ∀ n ∈ nodes, StandsIn modules n) :
    ReturnsIf (WritableIn modules context)
      (memberFields context (TypeMember.ofNodes nodes)).outcome :=
  returns_resolved readable declared (.members (TypeMember.ofNodes nodes))
    (admitsMembers_ofNodes fun n mem => admitsNode_of_standsIn readable context (stand n mem))

end Resolution

/-- Selecting by keys stops at the fault of it, if there is one. -/
theorem Resolution.outcome_resolveType_pick {context : Context} {target key : TypeExpr}
    {shape keys : Shape} (unbound : context.bound? "Pick" = none)
    (undeclared : context.registry.contains "Pick" = false)
    (shapeEq : (resolveType context target).outcome = .ok shape)
    (keysEq : (resolveType context key).outcome = .ok keys) :
    (resolveType context (.reference (some "Pick") [target, key])).outcome =
      match Shape.selectFault? shape keys with
      | some fault => .error fault
      | none => .ok (Shape.select true shape keys) := by
  have noArray : arrayGenerics.contains "Pick" = false := by decide
  have function : utilities.lookup "Pick" = some .pick := by decide
  rw [resolveType.eq_def]
  simp only [unbound, undeclared, noArray, function, Bool.false_eq_true, if_false,
    Traced.outcome_bind, shapeEq, resolveFirst, keysEq, Except.bind]
  cases Shape.selectFault? shape keys <;> rfl

namespace Resolution

variable {context : Context}

/-- A name cannot be expanded: it is being resolved already, it is not declared, or the limit is
reached and can be reported. -/
def Closed (context : Context) (name : String) : Prop :=
  context.visited.contains name = true ∨ context.registry.contains name = false ∨
    (context.tooDeep = true ∧ context.maxDepth.Writable)

theorem outcome_resolveName_of_closed {name : String} (closed : Closed context name)
    (arguments : List Shape) : (resolveName context name arguments).outcome = .ok .unknown := by
  rcases closed with visited | undeclared | ⟨deep, writable⟩
  · rw [resolveName]
    split
    · rfl
    · rename_i fresh
      rw [visited] at fresh
      cases fresh
  · exact outcome_resolveName_of_undeclared undeclared arguments
  · rw [resolveName]
    split
    · rfl
    · split
      · rfl
      · rw [if_pos deep, Number.writingFault?_eq_none_iff.mpr writable]
        rfl

/-- Nothing can be seen of a type: it says nothing, it is an object where the limit is reached, or
it refers to no readable name or to one that has no meaning. -/
def Obscure (context : Context) : TypeExpr → Prop
  | .untold | .reference none _ => True
  | .object _ => context.tooDeep = true
  | .reference (some name) arguments =>
      context.bound? name = none ∧ context.registry.contains name = false ∧
        arrayGenerics.contains name = false ∧
        (utilities.lookup name = none ∨ arguments = []) ∧ wellKnownTypes.lookup name = none
  | _ => False

theorem outcome_resolveType_of_obscure {type : TypeExpr} (obscure : Obscure context type) :
    (resolveType context type).outcome = .ok .unknown := by
  unfold Obscure at obscure
  split at obscure
  · rw [resolveType]
    rfl
  · rw [resolveType]
    rfl
  · rw [resolveType, if_pos obscure]
    rfl
  · rename_i name arguments
    obtain ⟨unbound, undeclared, noArray, noFunction, unfamiliar⟩ := obscure
    rw [resolveType.eq_def]
    simp only [unbound, undeclared, noArray, Bool.false_eq_true, if_false]
    split
    · rename_i found
      rcases noFunction with noUtility | noArguments
      · rw [noUtility] at found
        cases found
      · cases noArguments
    · rw [unfamiliar]
      exact outcome_resolveName_of_undeclared undeclared []
  · exact obscure.elim

end Resolution

end PropValidators
