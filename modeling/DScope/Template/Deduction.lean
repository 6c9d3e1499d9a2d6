import DScope.Conversion
import DScope.Query
import DScope.Template.Fit

namespace DScope.Template

/-!
# Binding template parameters

Given arguments are bound in order; parameters without one take their default.
Bound parameters are then held against their specializations, which may bind
further parameters.
-/

open Query

/-- The frame inside a template under the bindings found so far. -/
def frameOf (owner : NodeId) (bindings : Bindings) : Frame :=
  { scope := owner, bindings }

/-- The binding of a parameter to its default, found under the earlier bindings. -/
def defaultBinding? (owner parameter : NodeId) (kind : ParameterKind) (bindings : Bindings) :
    Query (Option Binding) := do
  match kind with
  | .type _ (some type) | .aliased _ (some (.type type)) =>
    let found ← withFrame (frameOf owner bindings) (resolve type)
    return (found.bind List.head?).map (.ofType parameter)
  | .value _ _ (some value) | .aliased _ (some (.value value)) =>
    match ← withFrame (frameOf owner bindings) (evaluate value) with
    | some (.ok value) => return some (.ofValue parameter value)
    | _ => return none
  | _ => return none

/-- The bindings with the default of a parameter added, if it has one. -/
def withDefault (owner parameter : NodeId) (kind : ParameterKind) (bindings : Bindings) :
    Query Bindings := do
  match ← defaultBinding? owner parameter kind bindings with
  | some binding => return bindings.set binding
  | none => return bindings

/--
Binds the parameters of a template to the given arguments in order.

Gives the bindings and the arguments left over, or nothing if an argument does
not fit. A `this` parameter takes the type of the receiver when there is one.
-/
def bindInOrder (owner : NodeId) (receiver : Option Symbol) (usesDefaults : Bool) :
    List NodeId → List Argument → Bindings → Query (Option (Bindings × List Argument))
  | [], given, bindings => return some (bindings, given)
  | parameter :: rest, given, bindings => do
      match (← node parameter).parameterKind?, receiver with
      | none, _ => bindInOrder owner receiver usesDefaults rest given bindings
      | some (.receiver _), some type =>
        bindInOrder owner receiver usesDefaults rest given
          (bindings.set (.ofType parameter type))
      | some kind, _ =>
        match kind.withoutReceiver, given with
        | .tuple, _ =>
          bindInOrder owner receiver usesDefaults rest []
            (bindings.set (.ofType parameter (.tuple given)))
        | inner, argument :: later =>
          match inner.bind? parameter argument with
          | some binding =>
            bindInOrder owner receiver usesDefaults rest later (bindings.set binding)
          | none => return none
        | inner, [] =>
          if usesDefaults && !bindings.isSatisfied parameter then
            let bindings ← withDefault owner parameter inner bindings
            bindInOrder owner receiver usesDefaults rest [] bindings
          else
            bindInOrder owner receiver usesDefaults rest [] bindings

/-- Binds the parameters of a template; arguments may be left over at a call only. -/
def bindParameters
    (owner : NodeId)
    (overload : Symbol)
    (given : List Argument)
    (atCall usesDefaults : Bool)
    (bindings : Bindings) :
    Query (Option Bindings) := do
  let receiver := overload.receiver?.bind Symbol.strip
  let parameters := (← node owner).templateParameters
  match ← bindInOrder owner receiver usesDefaults parameters given bindings with
  | some (bindings, left) => return if left.isEmpty || atCall then some bindings else none
  | none => return none

/-- Gives a parameter that is not bound its default; an open tuple becomes empty. -/
def applyDefault (owner : NodeId) (bindings : Bindings) (parameter : NodeId) :
    Query Bindings := do
  if bindings.isSatisfied parameter then
    return bindings
  match (← node parameter).parameterKind? with
  | none => return bindings
  | some .tuple => return bindings.set (.ofType parameter (.tuple []))
  | some kind => withDefault owner parameter kind.withoutReceiver bindings

/-- Gives all parameters that are not bound their defaults. -/
def applyDefaults (owner : NodeId) (bindings : Bindings) : Query Bindings := do
  (← node owner).templateParameters.foldlM (applyDefault owner) bindings

/-- Converts a type to the first of the expected types that it converts to. -/
def convertToAny (source : Symbol) : List Symbol → Bindings → Option Bindings
  | [], _ => none
  | expected :: rest, bindings =>
    match source.convert expected bindings with
    | (true, bindings) => some bindings
    | (false, bindings) => convertToAny source rest bindings

/-- Holds one binding against the specialization of its parameter. -/
def specialize (owner : NodeId) (kind : ParameterKind) (bound : Binding) (bindings : Bindings) :
    Query (Option Bindings) := do
  match kind with
  | .type (some pattern) _ | .aliased (some pattern) _ =>
    match bound.base with
    | none => return none
    | some type =>
      let expected ← withFrame (frameOf owner bindings) (resolve pattern)
      return convertToAny type (expected.getD []) bindings
  | .value _ (some pattern) _ =>
    let expected ← withFrame (frameOf owner bindings) (evaluate pattern)
    match expected, bound.value with
    | some (.ok expected), some value =>
      return if value.same expected then some bindings else none
    | _, _ => return none
  | _ => return some bindings

/-- Holds the bindings of parameters against their specializations. -/
def specializeAll (owner : NodeId) : List NodeId → Bindings → Query (Option Bindings)
  | [], bindings => return some bindings
  | parameter :: rest, bindings => do
      match (← node parameter).parameterKind?, bindings.get? parameter with
      | some kind, some bound =>
        match ← specialize owner kind.withoutReceiver bound bindings with
        | some bindings => specializeAll owner rest bindings
        | none => return none
      | _, _ => specializeAll owner rest bindings

/-- The bindings under which all specializations of a template hold. -/
def specialized? (owner : NodeId) (bindings : Bindings) : Query (Option Bindings) := do
  specializeAll owner (← node owner).templateParameters bindings

end DScope.Template
