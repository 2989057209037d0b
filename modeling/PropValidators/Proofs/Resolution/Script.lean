import PropValidators.Types.Resolve

/-!
# Resolution as a script of questions

Resolving a type asks for the shapes of other types.  Here the asking is written down
apart from the answering: the script of a question says which questions it asks in turn
and what it makes of their answers, with nothing assumed about whether they ever come.
The decision to cut a branch off is left open too, so a script without any depth limit is
one of them.

`Answered` says that a question has an outcome: its script runs to the end, every question
asked on the way being answered in the same sense.  Derivations of it are finite, so a
question without an outcome is one that would be asked forever.
-/

namespace PropValidators.Resolution

/-- What may be asked about types in a context. -/
inductive Query where
  /-- The shape of a named type with arguments. -/
  | name (name : String) (arguments : List Shape)
  /-- The fields of one of the interfaces of a name, inherited ones first. -/
  | interface (parameters : List String) (heritage : List Heritage) (members : List TypeMember)
      (arguments : List Shape)
  /-- The fields of members. -/
  | members (members : List TypeMember)
  /-- The shape of the type of a member, and whether it admits null or undefined. -/
  | nullable (type : TypeExpr)
  /-- The shape of a type. -/
  | type (type : TypeExpr)

/-- The answers to a question. -/
abbrev Query.Answer : Query → Type
  | .name _ _ | .type _ => Shape
  | .interface _ _ _ _ | .members _ => List Field
  | .nullable _ => Shape × Bool

/-- A computation that asks questions on its way. -/
inductive Script (α : Type) where
  | done (outcome : Except Fault α)
  /-- Ask a question in a context, and go on with the answer.  A fault ends the script. -/
  | ask (context : Context) (query : Query) (next : query.Answer → Script α)

namespace Script

variable {α β γ : Type}

/-- One script after the other. -/
protected def bind (next : α → Script β) : Script α → Script β
  | .done (.ok a) => next a
  | .done (.error fault) => .done (.error fault)
  | .ask context query rest => .ask context query fun answer => (rest answer).bind next

instance : Monad Script where
  pure a := .done (.ok a)
  bind script next := script.bind next

/-- The script of a single question. -/
def question (context : Context) (query : Query) : Script query.Answer :=
  .ask context query pure

/-- Stop if there is a fault. -/
def check : Option Fault → Script Unit
  | some fault => .done (.error fault)
  | none => pure ()

/-- Run scripts one after the other, and collect what they give. -/
def collect (each : α → Script β) : List α → Script (List β)
  | [] => pure []
  | a :: as => do
      let b ← each a
      let bs ← collect each as
      return b :: bs

end Script

open Script

variable (cut : Context → Bool)

/-- A type without the parentheses around it. -/
def withoutParentheses : TypeExpr → TypeExpr
  | .parenthesized type => withoutParentheses type
  | type => type

/-- A type without its annotation wrapper and the parentheses in it. -/
def bare : TypeExpr → TypeExpr
  | .annotated type => withoutParentheses type
  | type => withoutParentheses type

/-- Ask for the shape of a named type. -/
def askName (context : Context) (name : String) (arguments : List Shape) : Script Shape :=
  question context (.name name arguments)

/-- Ask for the fields of an interface. -/
def askInterface (context : Context) (parameters : List String) (heritage : List Heritage)
    (members : List TypeMember) (arguments : List Shape) : Script (List Field) :=
  question context (.interface parameters heritage members arguments)

/-- Ask for the fields of members. -/
def askMembers (context : Context) (members : List TypeMember) : Script (List Field) :=
  question context (.members members)

/-- Ask for the shape of the type of a member, and whether it admits null or undefined. -/
def askNullable (context : Context) (type : TypeExpr) : Script (Shape × Bool) :=
  question context (.nullable type)

/-- Ask for the shape of a type. -/
def askType (context : Context) (type : TypeExpr) : Script Shape :=
  question context (.type type)

/-- Ask for the shapes of types. -/
def askTypes (context : Context) (types : List TypeExpr) : Script (List Shape) :=
  collect (askType context) types

/-- Ask for the fields of a declaration, if it is an interface. -/
def askGroup (context : Context) (arguments : List Shape) : Declaration → Script (List Field)
  | .interface parameters heritage members =>
      askInterface context parameters heritage members arguments
  | _ => return []

/-- What to ask for the shape of a named type. -/
def scriptOfName (context : Context) (name : String) (arguments : List Shape) : Script Shape :=
  if context.visited.contains name then return .unknown
  else
    match context.registry.get name with
    | [] => return .unknown
    | first :: more =>
        if cut context then do
          check context.maxDepth.writingFault?
          return .unknown
        else if (first :: more).all Declaration.isInterface then do
          let groups ← collect (askGroup (context.entering name).nested arguments) (first :: more)
          return .object (mergeFields groups)
        else
          match (more.getLast?).getD first with
          | .alias parameters body => do
              let frame := Frame.ofArguments parameters arguments
              let shape ← askType ((context.entering name).nested.binding frame) body
              return shape.returned
          | .enumeration members => return enumShape members
          | .interface _ _ _ => return .unknown

/-- What to ask for the fields of an interface. -/
def scriptOfInterface (context : Context) (parameters : List String) (heritage : List Heritage)
    (members : List TypeMember) (arguments : List Shape) : Script (List Field) := do
  let scope := context.binding (Frame.ofArguments parameters arguments)
  let parents ← collect (fun clause : Heritage => do
    let shapes ← askTypes scope clause.arguments
    askName scope clause.name shapes) heritage
  let own ← askMembers scope members
  let fields := mergeFields ((parents.flatMap fun parent => parent.fields?.toList) ++ [own])
  return fields.map Field.returned

/-- What to ask for the fields of members. -/
def scriptOfMembers (context : Context) (members : List TypeMember) : Script (List Field) := do
  let fields ← collect (fun member =>
    match member with
    | .property name type optional => do
        let (shape, nullable) ← askNullable context type
        return ⟨name, shape, optional || nullable, false⟩
    | .method name optional => return ⟨name, .primitive .function, optional, false⟩
    | .malformed fault => .done (.error fault)) members
  return mergeFields [fields]

/-- What to ask for the shape of the type of a member. -/
def scriptOfNullable (context : Context) (type : TypeExpr) : Script (Shape × Bool) :=
  match bare type with
  | .nullish => return (.unknown, true)
  | .union types => do
      let kept := types.filter fun type => !type.isNullish
      let shapes ← askTypes context kept
      return (unionShape shapes, types.any TypeExpr.isNullish || kept.isEmpty)
  | type => do
      let shape ← askType context type
      return (shape, false)

/-- Ask for the shape of the first of some types; there is nothing to know without one. -/
def askFirst (context : Context) : List TypeExpr → Script Shape
  | [] => return .unknown
  | first :: _ => askType context first

/-- What to ask for the fields of a shape whose names are among some keys, or are not. -/
def scriptOfSelection (context : Context) (keep : Bool) (shape : Shape) (keys : List TypeExpr) :
    Script Shape := do
  let names ← askFirst context keys
  check (Shape.selectFault? shape names)
  return Shape.select keep shape names

/-- What to ask for the shape of a reference to a type function. -/
def scriptOfUtility (context : Context) (utility : Utility) (target : TypeExpr)
    (keys : List TypeExpr) : Script Shape := do
  let shape ← askType context target
  match utility with
  | .same => return shape
  | .optional => return shape.markOptional true
  | .required => return shape.markOptional false
  | .pick => scriptOfSelection context true shape keys
  | .omit => scriptOfSelection context false shape keys

/-- What to ask for the shape of a reference. -/
def scriptOfReference (context : Context) (name : String) (arguments : List TypeExpr) :
    Script Shape :=
  match context.bound? name with
  | some shape => return shape
  | none =>
      if context.registry.contains name then do
        let shapes ← askTypes context arguments
        askName context name shapes
      else if arrayGenerics.contains name then
        match arguments with
        | [] => return .array .unknown
        | element :: _ => return .array (← askType context element)
      else
        match utilities.lookup name, arguments with
        | some utility, target :: keys => scriptOfUtility context utility target keys
        | _, _ =>
            match wellKnownTypes.lookup name with
            | some kind => return .primitive kind
            | none => askName context name []

/-- What to ask for the shape of a type. -/
def scriptOfType (context : Context) : TypeExpr → Script Shape
  | .primitive kind => return .primitive kind
  | .nullish => return .unknown
  | .function => return .primitive .function
  | .literal value => return .oneOf [value]
  | .template => return .primitive .string
  | .reference none _ => return .unknown
  | .reference (some name) arguments => scriptOfReference context name arguments
  | .object members =>
      if cut context then return .unknown
      else return .object (← askMembers context.nested members)
  | .array element => return .array (← askType context element)
  | .tuple elements => return .array (unionShape (← askTypes context elements))
  | .union types => return (← askNullable context (.union types)).1
  | .intersection operands => return Shape.intersect (← askTypes context operands)
  | .parenthesized type => askType context type
  | .annotated (.annotated _) => return .unknown
  | .annotated type => askType context type
  | .keyof target => return (← askType context target).keys
  | .modified type => askType context type
  | .untold => return .unknown
  | .malformed fault => .done (.error fault)

/-- The script of a question. -/
def script (context : Context) : (query : Query) → Script query.Answer
  | .name name arguments => scriptOfName cut context name arguments
  | .interface parameters heritage members arguments =>
      scriptOfInterface context parameters heritage members arguments
  | .members members => scriptOfMembers context members
  | .nullable type => scriptOfNullable context type
  | .type type => scriptOfType cut context type

mutual

/-- A question has an outcome, namely that of its script. -/
inductive Answered : (context : Context) → (query : Query) → Except Fault query.Answer → Prop
  | intro {context : Context} {query : Query} {outcome : Except Fault query.Answer} :
      Ends (script cut context query) outcome → Answered context query outcome

/-- A script comes to its end with an outcome, all its questions being answered. -/
inductive Ends : {α : Type} → Script α → Except Fault α → Prop
  | done {α : Type} {outcome : Except Fault α} : Ends (.done outcome) outcome
  | answered {α : Type} {context : Context} {query : Query} {answer : query.Answer}
      {next : query.Answer → Script α} {outcome : Except Fault α} :
      Answered context query (.ok answer) → Ends (next answer) outcome →
        Ends (.ask context query next) outcome
  | failed {α : Type} {context : Context} {query : Query} {fault : Fault}
      {next : query.Answer → Script α} :
      Answered context query (.error fault) → Ends (.ask context query next) (.error fault)

end

end PropValidators.Resolution
