import DScope.Template.Deduction

namespace DScope.Template

/-!
# Deduction from call arguments

The written type of a function parameter is a pattern for the type of the
argument. Matching binds the template parameters that occur in the pattern.
-/

open Query

/-- The value parameter of a template with a name. -/
def valueParameter? (tree : Tree) (owner : Node) (name : String) : Option NodeId :=
  owner.templateParameters.find? fun parameter =>
    tree.nameOf parameter == name &&
      match tree.parameterKind? parameter with
      | some (.value ..) => true
      | _ => false

/-- The tuple parameter of a template that a pattern names. -/
def tupleParameter? (tree : Tree) (owner : Node) (pattern : TypeExpr) : Option NodeId := do
  let name ← pattern.plainName?
  owner.templateParameters.find? fun parameter =>
    tree.nameOf parameter == name && (tree.parameterKind? parameter).any (·.isTuple)

/--
Binds the value parameter with a name to a constant.

A parameter that is bound already has to have the same value; a name that is no
value parameter puts no condition on the constant.
-/
def bindValue (tree : Tree) (owner : Node) (name : String) (value : Value) (bindings : Bindings) :
    Option Bindings :=
  match valueParameter? tree owner name with
  | none => some bindings
  | some parameter =>
    match (bindings.get? parameter).bind (·.value) with
    | some existing => if existing.same value then some bindings else none
    | none => some (bindings.set (.ofValue parameter value))

/-- The element type and the length of an array of fixed length. -/
def fixedArray? (symbol : Symbol) : Option (Symbol × Nat) :=
  match symbol.shape with
  | .array (some element) (some length) => some (element, length)
  | _ => none

/-- The name of a value parameter that stands for the length in `element[length]`. -/
def lengthName? (tree : Tree) (owner : Node) (name : Option String) : Option String :=
  name.filter fun name => (valueParameter? tree owner name).isSome

/-- The name that an expression consists of. -/
def expressionName? : Expr → Option String
  | .named name => some name
  | _ => none

/-- Converts an argument to the type that the pattern stands for under the bindings so far. -/
def matchResolved (owner : NodeId) (pattern : TypeExpr) (argument : Symbol) (bindings : Bindings) :
    Query (Option Bindings) := do
  let expected ← withFrame (frameOf owner bindings) (resolve pattern)
  match expected.bind List.head? with
  | none => return some bindings
  | some expected =>
    let (converts, bindings) := argument.convert expected bindings
    return if converts then some bindings else none

mutual

/-- Matches the type of an argument against a pattern. -/
def matchType (owner : NodeId) : TypeExpr → Symbol → Bindings → Query (Option Bindings)
  | .modified _ inner, argument, bindings =>
    match argument.strip with
    | none => return some bindings
    | some argument => matchType owner inner argument bindings
  | .instantiated name patterns, argument, bindings => do
      match argument.strip with
      | none => return some bindings
      | some argument =>
        match argument.aggregate? with
        | none => return none
        | some aggregate =>
          let template ← node aggregate.node
          if template.name == name then
            matchArguments owner patterns aggregate.bindings template.templateParameters
              bindings
          else
            return none
  | .sizedArray element length, argument, bindings => do
      match argument.strip with
      | none => return some bindings
      | some argument =>
        let tree ← tree
        let template ← node owner
        match lengthName? tree template (expressionName? length), fixedArray? argument with
        | some name, some (elementType, size) =>
          match bindValue tree template name (.size size) bindings with
          | some bindings => matchType owner element elementType bindings
          | none => return none
        | _, _ => matchResolved owner (.sizedArray element length) argument bindings
  | .keyedArray element key, argument, bindings => do
      match argument.strip with
      | none => return some bindings
      | some argument =>
        let tree ← tree
        let template ← node owner
        match lengthName? tree template key.plainName?, fixedArray? argument with
        | some name, some (elementType, size) =>
          match bindValue tree template name (.size size) bindings with
          | some bindings => matchType owner element elementType bindings
          | none => return none
        | _, _ => matchResolved owner (.keyedArray element key) argument bindings
  | pattern, argument, bindings =>
    match argument.strip with
    | none => return some bindings
    | some argument => matchResolved owner pattern argument bindings
termination_by structural pattern => pattern

/-- Matches one binding of an instance against the pattern for it. -/
def matchBinding (owner : NodeId) :
    WrittenArgument → Binding → Bindings → Query (Option Bindings)
  | .type pattern, bound, bindings => do
      match bound.base, bound.value with
      | some type, _ => matchType owner pattern type bindings
      | none, some value =>
        match pattern.plainName? with
        | some name => return bindValue (← tree) (← node owner) name value bindings
        | none => return none
      | none, none => return some bindings
  | .value pattern, bound, bindings => do
      match expressionName? pattern, bound.value with
      | some name, some value => return bindValue (← tree) (← node owner) name value bindings
      | _, _ => return some bindings
termination_by structural pattern => pattern

/-- Matches the bindings of an instance against patterns in the order of its parameters. -/
def matchArguments (owner : NodeId) :
    List WrittenArgument → Bindings → List NodeId → Bindings → Query (Option Bindings)
  | pattern :: patterns, given, parameter :: parameters, bindings => do
      match given.get? parameter with
      | none => return none
      | some bound =>
        match ← matchBinding owner pattern bound bindings with
        | some bindings => matchArguments owner patterns given parameters bindings
        | none => return none
  | [], _, _, bindings => return some bindings
  | _, _, [], bindings => return some bindings
termination_by structural patterns => patterns

end

/-- The argument that an unnamed rest of call arguments contributes to a tuple. -/
def tupleItem : Option Symbol → Argument
  | some type => .type type.stripped
  | none => .unresolved "?"

/--
Matches the types of call arguments against the parameters of a function.

A parameter without a written type takes anything, and so does an argument of
unknown type. A tuple parameter takes all arguments from its place on.
-/
def matchCall (method : NodeId) :
    List NodeId → List (Option Symbol) → Bindings → Query (Option Bindings)
  | [], arguments, bindings => return if arguments.isEmpty then some bindings else none
  | parameter :: parameters, arguments, bindings => do
      let entry ← node parameter
      match entry.declaredType? with
      | none => matchCall method parameters arguments.tail bindings
      | some pattern =>
        match tupleParameter? (← tree) (← node method) pattern with
        | some tuple =>
          return some (bindings.set (.ofType tuple (.tuple (arguments.map tupleItem))))
        | none =>
          match arguments with
          | [] =>
            if entry.initializer?.isSome then
              matchCall method parameters [] bindings
            else
              return none
          | none :: rest => matchCall method parameters rest bindings
          | some argument :: rest =>
            match ← matchType method pattern argument bindings with
            | some bindings => matchCall method parameters rest bindings
            | none => return none

/-- Whether the first parameter of a function takes an argument of the given type. -/
def firstParameterAccepts (method : NodeId) (argument : Symbol) : Query Bool := do
  let entry ← node method
  match entry.parameters with
  | [] => return false
  | parameter :: _ =>
    match (← node parameter).declaredType? with
    | none => return true
    | some pattern =>
      if (tupleParameter? (← tree) entry pattern).isSome then
        return true
      else
        let bindings := Bindings.forParameters entry.templateParameters
        return (← matchType method pattern argument bindings).isSome

end DScope.Template
