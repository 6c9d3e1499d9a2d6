import DScope.Tree.Node

namespace DScope

/-!
# Filters on kinds of declarations

A lookup may be limited to some kinds of declarations. Aliases and eponymous
templates count both as types and as variables.
-/

/-- The kinds of declarations that a lookup may give. -/
structure Filter where
  imports : Bool := false
  vars : Bool := false
  methods : Bool := false
  types : Bool := false
  keywords : Bool := false
deriving Repr, DecidableEq

namespace Filter

def all : Filter := ⟨true, true, true, true, true⟩

def onlyMethods : Filter := { methods := true }

def union (first second : Filter) : Filter where
  imports := first.imports || second.imports
  vars := first.vars || second.vars
  methods := first.methods || second.methods
  types := first.types || second.types
  keywords := first.keywords || second.keywords

/-- Whether a declaration is of a kind that the filter lets through. -/
def accepts (filter : Filter) (node : Node) : Bool :=
  match node.kind with
  | .aliased .. | .eponymous .. => filter.types || filter.vars
  | .var .. | .enumerator _ => filter.vars
  | .method .. => filter.methods
  | .aggregate .. | .enumeration _ | .templateParameter _ | .mixin _ => filter.types
  | .module | .importBinding .. | .moduleAlias _ => filter.imports
  | .importModule .. => false

end Filter

end DScope
