import PropValidators.Proofs.Registry.Contents
import PropValidators.Proofs.Resolution.Modules
import PropValidators.Proofs.Shapes.Visible

/-!
# More declarations

A registry is extended by declarations under names that mean nothing without one.  A context is
extended by them, and the shapes that are bound in it may become clearer.  Modules extend a registry
if the names that they declare are new in it.
-/

namespace PropValidators

/-- A registry has all declarations of another under the same names, and further names, none of
which has a meaning without a declaration. -/
structure Registry.ExtendedBy (registry other : Registry Declaration) : Prop where
  contains : ∀ name, registry.contains name = true → other.contains name = true
  get : ∀ name, registry.contains name = true → other.get name = registry.get name
  free : ∀ name, other.contains name = true → registry.contains name = false →
    arrayGenerics.contains name = false ∧ utilities.lookup name = none ∧
      wellKnownTypes.lookup name = none

/-- Modules that come after others extend what is in sight if the names they declare are new. -/
theorem Registry.extendedBy_append {modules more : List Ast.Node}
    (new : ∀ n ∈ more.flatMap declarationNodes, ∀ name, declaredName? n = some name →
      (registryOf modules).contains name = false ∧ arrayGenerics.contains name = false ∧
        utilities.lookup name = none ∧ wellKnownTypes.lookup name = none) :
    (registryOf modules).ExtendedBy (registryOf (modules ++ more)) where
  contains name declared := by
    rw [contains_registryOf_iff] at declared ⊢
    obtain ⟨named, n, mem, nameEq⟩ := declared
    exact ⟨named, n, by rw [List.flatMap_append]; exact List.mem_append_left _ mem, nameEq⟩
  get name declared := by
    have noMore : declarationsOf name (more.flatMap declarationNodes) = [] := by
      rw [declarationsOf, List.filter_eq_nil_iff]
      intro n mem under
      have nameEq : declaredName? n = some name := by simpa using (Bool.and_eq_true_iff.mp under).2
      rw [(new n mem name nameEq).1] at declared
      cases declared
    rw [get_registryOf_eq_latest, get_registryOf_eq_latest, List.flatMap_append, declarationsOf,
      List.filter_append, ← declarationsOf, ← declarationsOf, noMore, List.append_nil]
  free name declared undeclared := by
    obtain ⟨named, n, mem, nameEq⟩ := contains_registryOf_iff.mp declared
    rw [List.flatMap_append, List.mem_append] at mem
    rcases mem with old | added
    · rw [contains_registryOf_iff.mpr ⟨named, n, old, nameEq⟩] at undeclared
      cases undeclared
    · exact (new n added name nameEq).2

/-- What is left of the shapes in a frame is kept in another frame with the same names. -/
def Frame.KeptIn (frame other : Frame) : Prop :=
  List.Forall₂ (fun b c => b.1 = c.1 ∧ b.2.KeptIn c.2) frame other

/-- A context with more declarations, and with shapes bound to the parameters in sight that keep
what is left. -/
structure Context.ExtendedBy (context other : Context) : Prop where
  registry : context.registry.ExtendedBy other.registry
  visited : context.visited = other.visited
  limit : context.limit = other.limit
  depth : context.depth = other.depth
  innermost : Option.Rel Frame.KeptIn context.bindings.head? other.bindings.head?

theorem Registry.contains_of_get {registry : Registry Declaration} {name : String}
    {first : Declaration} {more : List Declaration} (declared : registry.get name = first :: more) :
    registry.contains name = true := by
  by_contra undeclared
  rw [Bool.not_eq_true] at undeclared
  rw [Resolution.get_eq_nil_of_undeclared undeclared] at declared
  cases declared

theorem Frame.KeptIn.get? {frame other : Frame} (kept : frame.KeptIn other) (name : String) :
    Option.Rel Shape.KeptIn (frame.get? name) (other.get? name) := by
  have found : ∀ {bs cs : Frame}, Frame.KeptIn bs cs →
      Option.Rel Shape.KeptIn ((bs.find? fun b => b.1 == name).map Prod.snd)
        ((cs.find? fun c => c.1 == name).map Prod.snd) := by
    intro bs cs each
    induction each with
    | nil => exact .none
    | cons head _ ih =>
        rw [List.find?_cons, List.find?_cons, head.1]
        split
        · exact .some head.2
        · exact ih
  exact found (List.rel_reverse kept)

/-- Arguments that keep what is left are bound so. -/
theorem Frame.keptIn_ofArguments (parameters : List String) {arguments others : List Shape}
    (kept : List.Forall₂ Shape.KeptIn arguments others) :
    (Frame.ofArguments parameters arguments).KeptIn (Frame.ofArguments parameters others) := by
  have each : ∀ i : Nat, Shape.KeptIn (arguments[i]?.getD .unknown) (others[i]?.getD .unknown) := by
    intro i
    induction kept generalizing i with
    | nil => exact Shape.keptIn_refl _
    | cons head _ ih =>
        cases i with
        | zero => exact head
        | succ i => exact ih i
  rw [Frame.KeptIn, Frame.ofArguments, Frame.ofArguments, List.forall₂_map_left_iff,
    List.forall₂_map_right_iff, List.forall₂_same]
  exact fun ⟨_, i⟩ _ => ⟨rfl, (each i).mapOrigins _ _⟩

namespace Context.ExtendedBy

variable {context other : Context}

theorem tooDeep_eq (extended : context.ExtendedBy other) : context.tooDeep = other.tooDeep := by
  rw [Context.tooDeep, Context.tooDeep, extended.limit, extended.depth]

theorem nested (extended : context.ExtendedBy other) : context.nested.ExtendedBy other.nested :=
  ⟨extended.registry, extended.visited, extended.limit, congrArg Nat.succ extended.depth,
    extended.innermost⟩

theorem entering (extended : context.ExtendedBy other) (name : String) :
    (context.entering name).ExtendedBy (other.entering name) where
  registry := extended.registry
  visited := by rw [Context.entering, Context.entering, extended.visited]
  limit := extended.limit
  depth := extended.depth
  innermost := extended.innermost

theorem binding (extended : context.ExtendedBy other) {frame another : Frame}
    (kept : frame.KeptIn another) : (context.binding frame).ExtendedBy (other.binding another) where
  registry := extended.registry
  visited := extended.visited
  limit := extended.limit
  depth := extended.depth
  innermost := .some kept

theorem bound? (extended : context.ExtendedBy other) (name : String) :
    Option.Rel Shape.KeptIn (context.bound? name) (other.bound? name) := by
  have related := extended.innermost
  rw [Context.bound?, Context.bound?]
  generalize context.bindings.head? = frame at related ⊢
  generalize other.bindings.head? = another at related ⊢
  cases related with
  | none => exact .none
  | some kept => exact kept.get? name

end Context.ExtendedBy

end PropValidators
