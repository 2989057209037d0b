import PropValidators.Proofs.Resolution.Contract
import PropValidators.Proofs.Resolution.Levels
import PropValidators.Proofs.Shapes.Within

/-!
# What is admitted to a resolution

A resolution meets literals in types, enums and shapes, and it meets places in types that cannot
be resolved.  An admission says which literals may be met, and with which faults a resolution may
stop.  It is up to the literals whether keys can be written, so the fault of writing them has to
be admitted together with the literals that cause it.
-/

namespace PropValidators.Resolution

/-- Which literals may be met, and with which faults a resolution may stop. -/
structure Admission where
  literal : Literal → Prop
  fault : Fault → Prop
  text : ∀ text, literal (.text text)
  mapOrigin : ∀ change value, literal value → literal (value.mapOrigin change)
  unwritable : ∀ value, literal value → value.isUnwritable → fault .unwritableInteger

namespace Admission

/-- Everything is admitted. -/
def all : Admission where
  literal _ := True
  fault _ := True
  text _ := trivial
  mapOrigin _ _ _ := trivial
  unwritable _ _ _ := trivial

variable (admission : Admission)

/-- A type is admitted, apart from the types in it. -/
def here : TypeExpr → Prop
  | .literal value => admission.literal value
  | .object members => ∀ fault, .malformed fault ∈ members → admission.fault fault
  | .malformed fault => admission.fault fault
  | _ => True

/-- A type is admitted with all types in it. -/
def Admits (type : TypeExpr) : Prop :=
  TypeExpr.division.Everywhere admission.here type

/-- Members and their types are admitted. -/
structure AdmitsMembers (members : List TypeMember) : Prop where
  faults : ∀ fault, .malformed fault ∈ members → admission.fault fault
  types : ∀ type ∈ memberTypes members, admission.Admits type

/-- What a declaration says is admitted. -/
def AdmitsDeclaration : Declaration → Prop
  | .interface _ heritage members =>
      (∀ clause ∈ heritage, ∀ argument ∈ clause.arguments, admission.Admits argument) ∧
        admission.AdmitsMembers members
  | .alias _ body => admission.Admits body
  | .enumeration members =>
      ∀ values, enumValues (.int 0) members = some values → ∀ value ∈ values,
        admission.literal value

/-- What a question is about is admitted. -/
def AdmitsQuery : Query → Prop
  | .name _ arguments => ∀ shape ∈ arguments, shape.Values admission.literal
  | .interface parameters heritage members arguments =>
      admission.AdmitsDeclaration (.interface parameters heritage members) ∧
        ∀ shape ∈ arguments, shape.Values admission.literal
  | .members members => admission.AdmitsMembers members
  | .nullable type | .type type => admission.Admits type

/-- All declarations of a registry are admitted. -/
def AdmitsRegistry (registry : Registry Declaration) : Prop :=
  ∀ name, ∀ declaration ∈ registry.get name, admission.AdmitsDeclaration declaration

/-- What a context has around a type is admitted: all declarations, and the fault of reporting
the limit if it cannot be written. -/
structure AdmitsAround (context : Context) : Prop where
  registry : admission.AdmitsRegistry context.registry
  limit : ∀ fault, context.maxDepth.writingFault? = some fault → admission.fault fault

/-- The shapes in the innermost frame of bindings are admitted. -/
def AdmitsInnermost (context : Context) : Prop :=
  ∀ frame ∈ context.bindings.head?, ∀ binding ∈ frame, binding.2.Values admission.literal

variable {admission} {type inner : TypeExpr}

theorem Admits.part (admits : admission.Admits type) (mem : inner ∈ type.parts) :
    admission.Admits inner :=
  (Division.everywhere_iff.mp admits).2 inner mem

theorem Admits.here (admits : admission.Admits type) : admission.here type :=
  (Division.everywhere_iff.mp admits).1

theorem Admits.members {own : List TypeMember} (admits : admission.Admits (.object own)) :
    admission.AdmitsMembers own :=
  ⟨admits.here, fun _ mem => admits.part mem⟩

theorem Admits.withoutParentheses (admits : admission.Admits type) :
    admission.Admits (withoutParentheses type) := by
  fun_induction Resolution.withoutParentheses type with
  | case1 inner ih => exact ih (admits.part (List.mem_singleton_self inner))
  | case2 => exact admits

theorem Admits.bare (admits : admission.Admits type) : admission.Admits (bare type) := by
  unfold Resolution.bare
  split
  · exact (admits.part (List.mem_singleton_self _)).withoutParentheses
  · exact admits.withoutParentheses

theorem admits_all (type : TypeExpr) : all.Admits type := by
  refine Division.everywhere_of_forall (fun type => ?_) type
  cases type with
  | object members => exact fun _ _ => trivial
  | _ => trivial

private theorem admitsMembers_all (members : List TypeMember) : all.AdmitsMembers members :=
  ⟨fun _ _ => trivial, fun type _ => admits_all type⟩

theorem values_all (shape : Shape) : shape.Values all.literal :=
  Division.everywhere_of_forall (fun _ _ _ => trivial) shape

theorem admitsDeclaration_all (declaration : Declaration) : all.AdmitsDeclaration declaration := by
  cases declaration with
  | interface parameters heritage members =>
      exact ⟨fun _ _ argument _ => admits_all argument, admitsMembers_all members⟩
  | «alias» parameters body => exact admits_all body
  | enumeration members => exact fun _ _ _ _ => trivial

end Admission

end PropValidators.Resolution
