import DScope.Query

namespace DScope.ReturnType

/-!
# Return types

A function has the type it is declared with, or else the type of the first value
that its body returns. A body that returns no value makes it `void`.
-/

open Query

/-- The first return statement with a value other than `null`, and that value. -/
def firstReturned? (tree : Tree) (body : StatementId) : Option (StatementId × Expr) :=
  (tree.statementsWithin body).findSome? fun id => do
    let statement ← tree.statement? id
    match statement.kind with
    | .returning (some value) => if value.isNull then none else some (id, value)
    | _ => none

def ofMethod (method : NodeId) : Query (Option Symbol) := do
  match (← node method).kind with
  | .method (some result) _ _ => resolveOne result
  | .method none _ (some body) =>
    match firstReturned? (← tree) body with
    | none => return some (.primitive .void)
    | some (statement, value) =>
      let frame : Frame := { scope := method, statement := some statement }
      let type ← withFrame frame (evaluateType value)
      return type.join.map Symbol.stripped
  | _ => return none

/-- The return type of a function, read inside the function. -/
def insideMethod (method : NodeId) : Query (Option Symbol) := do
  return (← withFrame { scope := method } (ofMethod method)).join

/-- The return type of the function around the current scope. -/
def around : Query (Option Symbol) := do
  let tree ← tree
  match (tree.lineage (← scope)).find? fun id => (tree.node? id).any (·.isMethod) with
  | some method => insideMethod method
  | none => return none

end DScope.ReturnType
