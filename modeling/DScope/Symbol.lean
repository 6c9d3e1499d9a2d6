import DScope.Tree.Node

namespace DScope

/-!
# Symbols

A symbol is what a name, a type or an expression turns out to stand for: a
shape, the declaration it comes from, an optional modifier, and tags that tell
how it was reached. Constants, template arguments and the bindings of template
parameters hold symbols and are held by them.
-/

/-- The kinds of aggregate that a symbol can stand for. -/
inductive AggregateKind where
  | structType
  | unionType
  | classType
  | interfaceType
  | template
  | mixinTemplate
  | eponymousTemplate
deriving Repr, DecidableEq

namespace AggregateKind

def all : List AggregateKind :=
  [structType, unionType, classType, interfaceType, template, mixinTemplate, eponymousTemplate]

def name : AggregateKind → String
  | structType => "struct"
  | unionType => "union"
  | classType => "class"
  | interfaceType => "interface"
  | template => "template"
  | mixinTemplate => "mixin_template"
  | eponymousTemplate => "eponymous_template"

def ofName? (name : String) : Option AggregateKind :=
  all.find? (·.name == name)

/-- Whether aggregates of this kind inherit from others. -/
def isClassLike : AggregateKind → Bool
  | classType | interfaceType => true
  | _ => false

/-- Whether aggregates of this kind are templates and nothing else. -/
def isTemplate : AggregateKind → Bool
  | template | mixinTemplate | eponymousTemplate => true
  | _ => false

/-- The kind of a declared aggregate. -/
def ofDeclared (sort : AggregateSort) (isMixin : Bool) : AggregateKind :=
  match sort with
  | .structType => structType
  | .unionType => unionType
  | .classType => classType
  | .interfaceType => interfaceType
  | .templateType => if isMixin then mixinTemplate else template

end AggregateKind

mutual

/-- A resolved type, member, module, package or template parameter. -/
structure Symbol where
  shape : Shape
  origin : Option NodeId
  modifier : Option Modifier
  tags : List Tag

/-- What a symbol stands for. -/
inductive Shape where
  | primitive (type : BasicType)
  | pointer (target : Option Symbol)
  | array (element : Option Symbol) (length : Option Nat)
  | associative (key value : Option Symbol)
  | callable (callable : Callable)
  | aggregate (aggregate : Aggregate)
  | enumeration (node : NodeId) (base : Option Symbol)
  /-- An alias whose target was not resolved. -/
  | aliased (node : NodeId) (base : Option Symbol)
  | module (node : NodeId)
  | package (path : String)
  | member (member : Member)
  | parameter (binding : Binding)
  | ambiguous (candidates : List Symbol)
  | tuple (items : List Argument)

/-- A delegate, or a function pointer when `isFunction`. -/
structure Callable where
  result : Option Symbol
  parameters : List Symbol
  isFunction : Bool

/-- A struct, union, class, interface or template with its bases and bindings. -/
structure Aggregate where
  kind : AggregateKind
  node : NodeId
  baseClass : Option Symbol
  interfaces : List Symbol
  bindings : Bindings

/-- A variable, function, enumerator or property with its type. -/
structure Member where
  definition : Definition
  base : Option Symbol
  bindings : Bindings
  /-- The value when it is known without evaluation. -/
  constant : Option Value

/-- Where a member is defined. -/
inductive Definition where
  | node (node : NodeId)
  | builtin (property : BuiltinProperty)

/-- A property that every type of some category has. -/
structure BuiltinProperty where
  name : String
  description : String
  requiresInstance : Bool
  /-- Present when the property is called like a function. -/
  parameters : Option (List PropertyParameter)

/-- A parameter of a property that is called. -/
structure PropertyParameter where
  name : String
  type : Option Symbol
  isLazy : Bool

/-- A template parameter, possibly bound to a type or to a constant. -/
structure Binding where
  parameter : NodeId
  base : Option Symbol
  value : Option Value

/-- A place for the binding of one template parameter. -/
inductive Slot where
  | empty (parameter : NodeId)
  | filled (binding : Binding)

/-- Places for the bindings of template parameters, in order. -/
structure Bindings where
  slots : List Slot

/-- A constant. -/
inductive Value where
  | integer (value : Int) (type : BasicType)
  | float (value : Float) (type : BasicType)
  | bool (value : Bool)
  | character (value : Char)
  | string (value : String)
  | array (items : List Value)
  /-- A type in the place of a value. -/
  | type (symbol : Symbol)
  | null
  /-- Something that is no constant, known by its text only. -/
  | symbolic (text : String)

/-- A template argument. -/
inductive Argument where
  | type (symbol : Symbol)
  | value (value : Value)
  /-- A type that was not found, known by its text only. -/
  | unresolved (text : String)

/-- How a symbol was reached. -/
inductive Tag where
  /-- Through an alias declaration. -/
  | aliased (node : NodeId)
  /-- As a member of this symbol. -/
  | receiver (symbol : Symbol)
  /-- As a free function called with member notation. -/
  | ufcs
  /-- By forwarding of this member name. -/
  | dispatched (name : String)

end

namespace Symbol

/-- The symbol of a shape, without origin, modifier or tags. -/
def ofShape (shape : Shape) : Symbol :=
  ⟨shape, none, none, []⟩

def primitive (type : BasicType) : Symbol :=
  ofShape (.primitive type)

/-- A pointer to a type, which may be unknown. -/
def pointer (target : Option Symbol) : Symbol :=
  ofShape (.pointer target)

/-- An array whose length is known only when the program runs. -/
def dynamicArray (element : Option Symbol) : Symbol :=
  ofShape (.array element none)

def fixedArray (element : Option Symbol) (length : Nat) : Symbol :=
  ofShape (.array element (some length))

def associative (key value : Option Symbol) : Symbol :=
  ofShape (.associative key value)

/-- The symbol with a modifier, which replaces an earlier one. -/
def withModifier (symbol : Symbol) (modifier : Modifier) : Symbol :=
  { symbol with modifier := some modifier }

def withOrigin (symbol : Symbol) (node : NodeId) : Symbol :=
  { symbol with origin := some node }

def withTag (symbol : Symbol) (tag : Tag) : Symbol :=
  { symbol with tags := symbol.tags ++ [tag] }

/-- The type of string literals, `immutable(char)[]`. -/
def string : Symbol :=
  dynamicArray (some ((primitive .char).withModifier .immutable))

/-- The symbol of a declaration of the given shape. -/
def declared (node : NodeId) (shape : Shape) : Symbol :=
  (ofShape shape).withOrigin node

def module (node : NodeId) : Symbol :=
  declared node (.module node)

def package (path : String) : Symbol :=
  ofShape (.package path)

def parameter (binding : Binding) : Symbol :=
  declared binding.parameter (.parameter binding)

def tuple (items : List Argument) : Symbol :=
  ofShape (.tuple items)

def member (node : NodeId) (base : Option Symbol) (bindings : Bindings) : Symbol :=
  declared node (.member ⟨.node node, base, bindings, none⟩)

/-- No symbol, the only one, or several that were not told apart. -/
def ofCandidates? : List Symbol → Option Symbol
  | [] => none
  | [symbol] => some symbol
  | candidates => some (ofShape (.ambiguous candidates))

/-- The symbols that were not told apart, or the symbol alone. -/
def candidates (symbol : Symbol) : List Symbol :=
  match symbol.shape with
  | .ambiguous candidates => candidates
  | _ => [symbol]

def aliasTags (symbol : Symbol) : List NodeId :=
  symbol.tags.filterMap fun
    | .aliased node => some node
    | _ => none

def receiver? (symbol : Symbol) : Option Symbol :=
  symbol.tags.findSome? fun
    | .receiver receiver => some receiver
    | _ => none

def isUfcs (symbol : Symbol) : Bool :=
  symbol.tags.any fun
    | .ufcs => true
    | _ => false

/-- The type one level below the symbol. -/
def base? (symbol : Symbol) : Option Symbol :=
  match symbol.shape with
  | .pointer base | .enumeration _ base | .aliased _ base | .array base _ | .associative _ base =>
    base
  | .member member => member.base
  | .parameter binding => binding.base
  | _ => none

/--
The type that a symbol stands for below members, aliases and bound template
parameters.

An unbound template parameter stands for itself; a member or an alias without a
base stands for nothing.
-/
def strip : Symbol → Option Symbol
  | ⟨.member ⟨_, none, _, _⟩, _, _, _⟩ => none
  | ⟨.member ⟨_, some base, _, _⟩, _, _, _⟩ => base.strip
  | ⟨.aliased _ none, _, _, _⟩ => none
  | ⟨.aliased _ (some base), _, _, _⟩ => base.strip
  | ⟨.parameter ⟨_, some base, _⟩, _, _, _⟩ => base.strip
  | symbol => some symbol

/-- The stripped symbol, or the symbol itself when it stands for nothing. -/
def stripped (symbol : Symbol) : Symbol :=
  symbol.strip.getD symbol

/-- The symbol below any number of pointers. -/
def pointee : Symbol → Symbol
  | ⟨.pointer (some target), _, _, _⟩ => target.pointee
  | symbol => symbol

/-- The symbol below bound template parameters; nothing below an unbound one. -/
def boundTarget? : Symbol → Option Symbol
  | ⟨.parameter ⟨_, none, _⟩, _, _, _⟩ => none
  | ⟨.parameter ⟨_, some base, _⟩, _, _, _⟩ => base.boundTarget?
  | symbol => some symbol

/-- The declaration that the symbol stands for. -/
def definition? (symbol : Symbol) : Option NodeId :=
  match symbol.shape with
  | .aggregate aggregate => some aggregate.node
  | .enumeration node _ | .aliased node _ | .module node => some node
  | .member ⟨.node node, _, _, _⟩ => some node
  | .parameter binding => some binding.parameter
  | _ => none

def bindings? (symbol : Symbol) : Option Bindings :=
  match symbol.shape with
  | .aggregate aggregate => some aggregate.bindings
  | .member member => some member.bindings
  | _ => none

/-- The template bindings that the symbol carries, none for other symbols. -/
def bindings (symbol : Symbol) : Bindings :=
  symbol.bindings?.getD ⟨[]⟩

/-- The symbol with its template bindings replaced, if it carries any. -/
def withBindings (symbol : Symbol) (bindings : Bindings) : Symbol :=
  match symbol.shape with
  | .aggregate aggregate => { symbol with shape := .aggregate { aggregate with bindings } }
  | .member member => { symbol with shape := .member { member with bindings } }
  | _ => symbol

def aggregate? (symbol : Symbol) : Option Aggregate :=
  match symbol.shape with
  | .aggregate aggregate => some aggregate
  | _ => none

def member? (symbol : Symbol) : Option Member :=
  match symbol.shape with
  | .member member => some member
  | _ => none

def parameter? (symbol : Symbol) : Option Binding :=
  match symbol.shape with
  | .parameter binding => some binding
  | _ => none

def isMember (symbol : Symbol) : Bool :=
  symbol.member?.isSome

def isAggregate (symbol : Symbol) : Bool :=
  symbol.aggregate?.isSome

def isAggregateOf (symbol : Symbol) (kind : AggregateKind) : Bool :=
  symbol.aggregate?.any (·.kind == kind)

def isCharacter (symbol : Symbol) : Bool :=
  match symbol.shape with
  | .primitive type => type.isCharacter
  | _ => false

/-- Whether the symbol is an array of characters. -/
def isString (symbol : Symbol) : Bool :=
  match symbol.shape with
  | .array (some element) _ => element.isCharacter
  | _ => false

end Symbol

namespace Argument

def type? : Argument → Option Symbol
  | type symbol => some symbol
  | value (.type symbol) => some symbol
  | _ => none

def value? : Argument → Option Value
  | value constant => some constant
  | _ => none

end Argument

end DScope
