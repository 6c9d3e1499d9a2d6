import DScope.Diagnostic
import DScope.Symbol.Bindings
import DScope.Tree

namespace DScope

/-!
# Which arguments fit which parameters

A type parameter takes types, a value parameter takes constants and an alias
parameter takes both.
-/

/-- The binding of a parameter of this kind to an argument, if they fit. -/
def ParameterKind.bind? (parameter : NodeId) : ParameterKind → Argument → Option Binding
  | _, .unresolved _ => none
  | .type .., argument => argument.type?.map (.ofType parameter)
  | .value .., .value (.type _) => none
  | .value .., .value constant => some (.ofValue parameter constant)
  | .value .., .type _ => none
  | .aliased .., .type symbol => some (.ofType parameter symbol)
  | .aliased .., .value (.type symbol) => some (.ofType parameter symbol)
  | .aliased .., .value constant => some (.ofValue parameter constant)
  | .receiver inner, argument => inner.bind? parameter argument
  | .tuple, _ => none

namespace Template

/-- The first of the arguments that does not fit its parameter. -/
def firstRejected? (tree : Tree) : List NodeId → List Argument → Option Diagnostic
  | parameter :: parameters, argument :: arguments =>
    match tree.parameterKind? parameter with
    | none | some .tuple | some (.receiver _) => none
    | some kind =>
      match kind.bind? parameter argument with
      | some _ => firstRejected? tree parameters arguments
      | none =>
        some (.deduction parameter (tree.nameOf parameter) (some argument)
          "argument does not fit the parameter kind")
  | _, _ => none

/--
Why a template does not take the given arguments: the first that does not fit.

There is no such reason when the arguments fit and the template was turned down
for its specializations or its constraint.
-/
def rejectedArgument? (tree : Tree) (template : Symbol) (given : List Argument) :
    Option Diagnostic := do
  let node ← template.definition?.bind tree.node?
  firstRejected? tree node.templateParameters given

end Template

end DScope
