import DScope.Source
import DScope.Term

namespace DScope

/-!
# Declarations

A declaration is a node of the declaration tree. It names its parent and its
children by identifier, so that nodes can refer to each other freely.
-/

/-- The place of a declaration in the tree. -/
structure NodeId where
  index : Nat
deriving Repr, DecidableEq

/-- The place of a statement in the tree. -/
structure StatementId where
  index : Nat
deriving Repr, DecidableEq

/-- Who may name a declaration from outside. -/
inductive Visibility where
  | publicAccess
  | privateAccess
  | packageAccess
  | protectedAccess
deriving Repr, DecidableEq

namespace Visibility

def all : List Visibility :=
  [publicAccess, privateAccess, packageAccess, protectedAccess]

def keyword : Visibility → String
  | publicAccess => "public"
  | privateAccess => "private"
  | packageAccess => "package"
  | protectedAccess => "protected"

def ofKeyword? (keyword : String) : Option Visibility :=
  all.find? (·.keyword == keyword)

end Visibility

/-- The kinds of aggregate that can be declared. -/
inductive AggregateSort where
  | structType
  | unionType
  | classType
  | interfaceType
  | templateType
deriving Repr, DecidableEq

namespace AggregateSort

def all : List AggregateSort :=
  [structType, unionType, classType, interfaceType, templateType]

def keyword : AggregateSort → String
  | structType => "struct"
  | unionType => "union"
  | classType => "class"
  | interfaceType => "interface"
  | templateType => "template"

def ofKeyword? (keyword : String) : Option AggregateSort :=
  all.find? (·.keyword == keyword)

end AggregateSort

/-- What a template parameter stands for. -/
inductive ParameterKind where
  | type (specialization default : Option TypeExpr)
  | value (type : TypeExpr) (specialization default : Option Expr)
  | aliased (specialization : Option TypeExpr) (default : Option WrittenArgument)
  /-- `T...`, which takes all remaining arguments. -/
  | tuple
  /-- `this T`, which takes the type of the receiver of a member call. -/
  | receiver (inner : ParameterKind)

namespace ParameterKind

/-- Whether arguments are limited to a written pattern. -/
def hasSpecialization : ParameterKind → Bool
  | type specialization _ => specialization.isSome
  | value _ specialization _ => specialization.isSome
  | aliased specialization _ => specialization.isSome
  | tuple => false
  | receiver inner => inner.hasSpecialization

/-- Whether the parameter may be left without an argument. -/
def hasDefault : ParameterKind → Bool
  | type _ default => default.isSome
  | value _ _ default => default.isSome
  | aliased _ default => default.isSome
  | tuple => false
  | receiver inner => inner.hasDefault

def isTuple : ParameterKind → Bool
  | tuple => true
  | _ => false

/-- The kind below one mark of `this`. -/
def withoutReceiver : ParameterKind → ParameterKind
  | receiver inner => inner
  | kind => kind

end ParameterKind

/-- What a declaration declares. -/
inductive NodeKind where
  /-- The root of a module; its name is the dotted module name. -/
  | module
  | aggregate (sort : AggregateSort) (isMixin : Bool) (bases : List TypeExpr)
  | enumeration (base : Option TypeExpr)
  | enumerator (initializer : Option Expr)
  /-- A variable, a constant or a function parameter. -/
  | var (type : Option TypeExpr) (initializer : Option Expr)
  | aliased (target : Option TypeExpr) (initializer : Option Expr)
  | method (result : Option TypeExpr) (parameters : List NodeId) (body : Option StatementId)
  /-- A template whose only member has the template's own name. -/
  | eponymous (type : Option TypeExpr) (initializer : Option Expr)
  | templateParameter (kind : ParameterKind)
  /-- An import; its selective bindings are its children. -/
  | importModule (module : String) (isPublic isStatic : Bool)
  | importBinding (module target : String)
  | moduleAlias (module : String)
  /-- A template mixin; its name is empty when it is anonymous. -/
  | mixin (target : TypeExpr)

/-- A declaration and its place in the tree. -/
structure Node where
  name : String
  kind : NodeKind
  parent : Option NodeId
  span : Span
  visibility : Visibility := .publicAccess
  isStatic : Bool := false
  /-- Set for constants and for `const` or `immutable` variables. -/
  isConst : Bool := false
  children : List NodeId := []
  templateParameters : List NodeId := []
  constraint : Option Expr := none

namespace Node

/-- Whether the declaration opens a scope of its own. -/
def isBlock (node : Node) : Bool :=
  match node.kind with
  | .module | .aggregate .. | .enumeration _ | .method .. | .eponymous .. => true
  | _ => false

def isAlias (node : Node) : Bool :=
  match node.kind with
  | .aliased .. => true
  | _ => false

def isMethod (node : Node) : Bool :=
  match node.kind with
  | .method .. => true
  | _ => false

def isMixin (node : Node) : Bool :=
  match node.kind with
  | .mixin _ => true
  | _ => false

/-- The function parameters of a function; none of anything else. -/
def parameters (node : Node) : List NodeId :=
  match node.kind with
  | .method _ parameters _ => parameters
  | _ => []

def parameterKind? (node : Node) : Option ParameterKind :=
  match node.kind with
  | .templateParameter kind => some kind
  | _ => none

def declaredType? (node : Node) : Option TypeExpr :=
  match node.kind with
  | .var type _ | .aliased type _ | .eponymous type _ => type
  | _ => none

def initializer? (node : Node) : Option Expr :=
  match node.kind with
  | .var _ initializer | .aliased _ initializer | .eponymous _ initializer
  | .enumerator initializer => initializer
  | _ => none

end Node

end DScope
