import DScope.Symbol.Bindings
import DScope.Tree

namespace DScope.Property

/-!
# Owners of properties

Built-in properties are accessed on a type or on a constant. The owner's
category says which properties it has besides those that every type has.
-/

/-- The categories of types with properties of their own. -/
inductive Category where
  | integral
  | floating
  | aggregate
  | array
  | associative
  | callable
  | tuple
deriving Repr, DecidableEq

def Category.name : Category → String
  | .integral => "Integral"
  | .floating => "FloatingPoint"
  | .aggregate => "AggregateType"
  | .array => "Array"
  | .associative => "AssociativeArray"
  | .callable => "Delegate"
  | .tuple => "TypeTuple"

/-- What a property is accessed on. -/
inductive Owner where
  | type (symbol : Symbol)
  | value (value : Value)

/-- Whether the declaration is a template parameter that takes all remaining arguments. -/
def isTupleParameter (tree : Tree) (node : NodeId) : Bool :=
  (tree.parameterKind? node).any (·.withoutReceiver.isTuple)

/-- The symbol below resolved aliases and pointers. -/
def peel : Symbol → Symbol
  | ⟨.aliased _ (some base), _, _, _⟩ => peel base
  | ⟨.pointer (some target), _, _, _⟩ => peel target
  | symbol => symbol

/--
The type whose properties a symbol has.

Aliases, pointers and members are taken off; an unbound parameter for remaining
arguments stays as it is.
-/
def ownerType? (tree : Tree) (symbol : Symbol) : Option Symbol :=
  let peeled := peel symbol
  match peeled.shape with
  | .parameter ⟨parameter, none, _⟩ =>
    if isTupleParameter tree parameter then some peeled else peeled.strip.map peel
  | _ => peeled.strip.map peel

/-- The category of a type, not looking below aliases, pointers and members. -/
def categoryOf (tree : Tree) (symbol : Symbol) : Option Category :=
  match symbol.shape with
  | .array .. => some .array
  | .associative .. => some .associative
  | .callable _ => some .callable
  | .primitive type =>
    if type.isIntegral then
      some .integral
    else if type.isFloating then
      some .floating
    else
      none
  | .aggregate _ => some .aggregate
  | .tuple _ => some .tuple
  | .parameter binding => if isTupleParameter tree binding.parameter then some .tuple else none
  | _ => none

namespace Owner

def category? (tree : Tree) : Owner → Option Category
  | type symbol => (ownerType? tree symbol).bind (categoryOf tree)
  | value (.integer _ basic) | value (.float _ basic) =>
    categoryOf tree (Symbol.primitive basic)
  | value (.bool _) | value (.character _) => some .integral
  | value (.string _) | value (.array _) => some .array
  | value (.type symbol) => (ownerType? tree symbol).bind (categoryOf tree)
  | value .null | value (.symbolic _) => none

/-- The type that the owner is, below members and aliases. -/
def symbol? : Owner → Option Symbol
  | type symbol => symbol.strip
  | value (.type symbol) => symbol.strip
  | value _ => none

end Owner

end DScope.Property
