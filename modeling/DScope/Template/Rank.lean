import DScope.Symbol
import DScope.Tree

namespace DScope.Template

/-!
# Which overload is the most specialized

Overloads are compared parameter by parameter: a specialized parameter ranks
above a plain one, and a plain one above a tuple.
-/

/-- The rank of a template parameter of the given kind. -/
def rank : Option ParameterKind → Nat
  | some .tuple => 0
  | some kind => if kind.hasSpecialization then 2 else 1
  | none => 1

def ranks (tree : Tree) (overload : Symbol) : List Nat :=
  match overload.definition?.bind tree.node? with
  | some node => node.templateParameters.map fun parameter => rank (tree.parameterKind? parameter)
  | none => []

/-- Whether ranks are nowhere lower and somewhere higher than others. -/
def dominates (ranks others : List Nat) : Bool :=
  (ranks.zip others).all (fun (rank, other) => other ≤ rank) &&
    (ranks.zip others).any (fun (rank, other) => other < rank)

/-- The overloads that no other one dominates. -/
def mostSpecialized (tree : Tree) (overloads : List Symbol) : List Symbol :=
  overloads.filter fun overload =>
    !overloads.any fun other => dominates (ranks tree other) (ranks tree overload)

end DScope.Template
