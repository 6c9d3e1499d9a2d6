import DScope.Query

namespace DScope.Template

/-!
# Template arguments

Written template arguments become types or constants before they are bound.
-/

open Query

/--
The argument that a written type stands for.

Of several candidates the first counts. A constant may stand in the place of a
type, and is then taken by its value.
-/
def typeArgument (type : TypeExpr) : Query Argument := do
  match ← resolve type with
  | [] => return .unresolved type.text
  | first :: _ =>
    if first.isMember then
      match ← evaluate (.type type) with
      | .ok (.type symbol) => return .type symbol
      | .ok value => return .value value
      | .error _ => return .type first
    else
      return .type first

/-- The argument that a written expression stands for, symbolic if it is no constant. -/
def valueArgument (value : Expr) : Query Argument := do
  match ← evaluate value with
  | .ok (.type symbol) => return .type symbol
  | .ok value => return .value value
  | .error _ => return .value (.symbolic value.text)

def resolveArgument : WrittenArgument → Query Argument
  | .type type => typeArgument type
  | .value value => valueArgument value

def resolveArguments (arguments : List WrittenArgument) : Query (List Argument) :=
  arguments.mapM resolveArgument

end DScope.Template
