import DScope.MemberAccess

namespace DScope.Iteration

/-!
# Types of loop variables

A loop variable without a written type takes its type from what the loop runs
over: from the lower bound of a range, from the elements of an array, or from
the `opApply`, `front` and `back` members of an aggregate.
-/

open Query

/-- The place of a variable in the head of its loop. -/
structure Place where
  index : Nat
  count : Nat
  isReverse : Bool
deriving Repr, DecidableEq

/-- Whether the variable is the first of two and so stands for the key. -/
def Place.isKey (place : Place) : Bool :=
  place.count == 2 && place.index == 0

/-- The parameter types of the callback that a function takes first, if their number fits. -/
def callbackTypes? (tree : Tree) (count : Nat) (method : Node) : Option (List TypeExpr) := do
  let callback ← method.parameters.head?
  let entry ← tree.node? callback
  match entry.declaredType? with
  | some (.callable _ parameters _) => if parameters.length == count then some parameters else none
  | _ => none

/-- The first declaration whose callback has the number of parameters that the loop needs. -/
def fittingCallback? (tree : Tree) (count : Nat) (declarations : List Declaration) :
    Option (NodeId × List TypeExpr) :=
  declarations.findSome? fun declaration => do
    let method ← tree.node? declaration.node
    let types ← callbackTypes? tree count method
    return (declaration.node, types)

/-- The type that the callback of an apply member gives the variable. -/
def appliedType (owner : Symbol) (place : Place) : Query (Option Symbol) := do
  let name := if place.isReverse then "opApplyReverse" else "opApply"
  let declarations ← Lookup.members owner name .onlyMethods
  match fittingCallback? (← tree) place.count declarations with
  | none => return none
  | some (method, types) =>
    match types[place.index]? with
    | none => throw .missingParameter
    | some type =>
      let frame : Frame := { scope := method, bindings := owner.bindings }
      return (← withFrame frame (resolveOne type)).join

/-- The type of the element that a range shows first, or last when it runs backward. -/
def shownType (owner : Symbol) (place : Place) : Query (Option Symbol) := do
  let name := if place.isReverse then "back" else "front"
  let found ← MemberAccess.candidates owner name false
  return found.findSome? Symbol.strip

/-- The type of a variable in a loop over a collection. -/
def variableType (collection : Symbol) (place : Place) : Query (Option Symbol) := do
  match collection.shape with
  | .array element _ | .pointer element =>
    if place.isKey then
      return some (← Lookup.sizeType)
    else
      return element
  | .associative key value => return if place.isKey then key else value
  | .aggregate _ =>
    match ← appliedType collection place with
    | some type => return some type
    | none => shownType collection place
  | _ => return none

def typeOver (place : Place) : LoopSource → Query (Option Symbol)
  | .range lower _ => do
      let type ← evaluateType lower
      return some ((type.bind Symbol.strip).getD (.primitive .int))
  | .collection collection => do
      match (← evaluateType collection).bind Symbol.strip with
      | some type => variableType type place
      | none => return none

def typeOf (loopVariable : NodeId) : Query (Option Symbol) := do
  match (← tree).declaringStatement? loopVariable with
  | none => return none
  | some loop =>
    match (← statement loop).kind with
    | .forEach loopVariables source _ isReverse =>
      match loopVariables.idxOf? loopVariable with
      | some index => typeOver { index, count := loopVariables.length, isReverse } source
      | none => return none
    | _ => return none

end DScope.Iteration
