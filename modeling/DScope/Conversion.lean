import DScope.Symbol.Bindings

namespace DScope

/-!
# Comparing types

Two relations between symbols: being the same type, and implicit conversion of
one type to another. A conversion to an unbound template parameter succeeds and
binds the parameter, unless it is bound already and the bound type differs.
-/

namespace BasicType

/-- The implicit conversions between different built-in types. -/
def widenings : List (BasicType × BasicType) :=
  [(bool, int), (bool, long),
    (byte, short), (byte, int), (byte, long),
    (ubyte, short), (ubyte, ushort), (ubyte, int), (ubyte, uint), (ubyte, long), (ubyte, ulong),
    (short, int), (short, long),
    (ushort, int), (ushort, uint), (ushort, long), (ushort, ulong),
    (int, long),
    (uint, long), (uint, ulong),
    (long, cent),
    (ulong, ucent),
    (char, wchar), (char, dchar),
    (wchar, dchar),
    (float, double), (float, real),
    (double, real)]

def convertsTo (source target : BasicType) : Bool :=
  source == target || widenings.contains (source, target)

end BasicType

namespace Value

/-- Whether two constants are equal as numbers, whole ones compared exactly. -/
def sameNumber (value other : Value) : Bool :=
  match value.integer?, other.integer? with
  | some number, some otherNumber => number == otherNumber
  | _, _ =>
    match value.float?, other.float? with
    | some number, some otherNumber => number == otherNumber
    | _, _ => false

end Value

mutual

/--
Whether two symbols are the same type.

Template parameters count as the types they are bound to, modifiers and array
lengths do not count, and aggregates are the same when their declarations are.
-/
def Symbol.sameType : Symbol → Symbol → Bool
  | ⟨.parameter ⟨parameter, base, _⟩, _, _, _⟩, other =>
    match other.shape with
    | .parameter binding =>
      if parameter = binding.parameter then
        Symbol.optionSameType base binding.base
      else
        match binding.base with
        | some bound => Symbol.boundSameShape base bound.shape
        | none => false
    | shape => Symbol.boundSameShape base shape
  | ⟨shape, _, _, _⟩, other =>
    match other.shape with
    | .parameter ⟨_, some bound, _⟩ => shape.same bound.shape
    | .parameter ⟨_, none, _⟩ => false
    | otherShape => shape.same otherShape

def Symbol.boundSameShape : Option Symbol → Shape → Bool
  | none, _ => false
  | some ⟨shape, _, _, _⟩, other => shape.same other

def Symbol.optionSameType : Option Symbol → Option Symbol → Bool
  | none, none => true
  | some symbol, some other => symbol.sameType other
  | _, _ => false

def Symbol.allSameType : List Symbol → List Symbol → Bool
  | [], [] => true
  | symbol :: rest, other :: others => symbol.sameType other && Symbol.allSameType rest others
  | _, _ => false

/-- Whether two shapes other than template parameters are the same type. -/
def Shape.same : Shape → Shape → Bool
  | .primitive type, .primitive other => type == other
  | .pointer target, .pointer other => Symbol.optionSameType target other
  | .array element _, .array other _ => Symbol.optionSameType element other
  | .associative key value, .associative otherKey otherValue =>
    Symbol.optionSameType key otherKey && Symbol.optionSameType value otherValue
  | .callable ⟨result, parameters, isFunction⟩, .callable other =>
    isFunction == other.isFunction && Symbol.optionSameType result other.result &&
      Symbol.allSameType parameters other.parameters
  | .aggregate ⟨_, node, _, _, _⟩, .aggregate other => node == other.node
  | .enumeration node _, .enumeration other _ => node == other
  | .aliased node _, .aliased other _ => node == other
  | .module node, .module other => node == other
  | .package path, .package other => path == other
  | .member ⟨.node node, _, _, _⟩, .member ⟨.node other, _, _, _⟩ => node == other
  | .member ⟨.builtin property, _, _, _⟩, .member ⟨.builtin other, _, _, _⟩ =>
    property.name == other.name
  | .tuple items, .tuple others => Argument.allAgree items others
  | _, _ => false

/--
Whether two template arguments agree.

An argument that is known by its text only agrees with nothing when it is an
unresolved type and with everything else when it is a symbolic constant.
-/
def Argument.agrees : Argument → Argument → Bool
  | .unresolved _, _ => false
  | .type _, .unresolved _ => false
  | .type symbol, .type other => symbol.sameType other
  | .type symbol, .value (.type other) => symbol.sameType other
  | .type _, .value other => !other.isFinal
  | .value _, .unresolved _ => false
  | .value (.type symbol), .type other => symbol.sameType other
  | .value value, .type _ => !value.isFinal
  | .value value, .value other =>
    !value.isFinal || !other.isFinal || value.same other

def Argument.allAgree : List Argument → List Argument → Bool
  | [], [] => true
  | argument :: rest, other :: others =>
    argument.agrees other && Argument.allAgree rest others
  | _, _ => false

/-- Whether two constants are the same, numbers of different types included. -/
def Value.same : Value → Value → Bool
  | .array items, .array others => Value.allSame items others
  | .type symbol, .type other => symbol.sameType other
  | .string text, .string other => text == other
  | .null, .null => true
  | value, other => value.sameNumber other

def Value.allSame : List Value → List Value → Bool
  | [], [] => true
  | value :: rest, other :: others => value.same other && Value.allSame rest others
  | _, _ => false

end

namespace Symbol

mutual

/-- Whether the symbol is the declared aggregate or inherits from it. -/
def derivesFrom (target : NodeId) : Symbol → Bool
  | ⟨.aggregate ⟨_, node, baseClass, interfaces, _⟩, _, _, _⟩ =>
    node == target || optionDerivesFrom target baseClass || anyDerivesFrom target interfaces
  | _ => false

def optionDerivesFrom (target : NodeId) : Option Symbol → Bool
  | none => false
  | some symbol => derivesFrom target symbol

def anyDerivesFrom (target : NodeId) : List Symbol → Bool
  | [] => false
  | symbol :: rest => derivesFrom target symbol || anyDerivesFrom target rest

end

/-- Binds a parameter to a type, or compares with the type it is bound to. -/
def bindParameter (source : Symbol) (parameter : NodeId) (bindings : Bindings) :
    Bool × Bindings :=
  match bindings.get? parameter with
  | some binding =>
    match binding.base with
    | some bound => (source.sameType bound, bindings)
    | none => (true, bindings)
  | none => (true, bindings.set (.ofType parameter source))

end Symbol

mutual

/--
Conversion of what the symbol stands for below members, aliases and bound
template parameters.

`whole` is the symbol before anything was taken off, and `isVariable` tells
whether it was a member.
-/
def Symbol.convertBelow (whole : Symbol) (isVariable : Bool) :
    Symbol → Symbol → Bindings → Bool × Bindings
  | ⟨.member ⟨_, none, _, _⟩, _, _, _⟩, target, bindings =>
    (whole.sameType target, bindings)
  | ⟨.member ⟨_, some base, _, _⟩, _, _, _⟩, target, bindings =>
    Symbol.convertBelow whole isVariable base target bindings
  | ⟨.aliased _ none, _, _, _⟩, target, bindings =>
    (whole.sameType target, bindings)
  | ⟨.aliased _ (some base), _, _, _⟩, target, bindings =>
    Symbol.convertBelow whole isVariable base target bindings
  | ⟨.parameter ⟨_, some base, _⟩, _, _, _⟩, target, bindings =>
    Symbol.convertBelow whole isVariable base target bindings
  | ⟨shape, origin, modifier, tags⟩, target, bindings =>
    match target.shape with
    | .parameter ⟨parameter, none, none⟩ =>
      Symbol.bindParameter ⟨shape, origin, modifier, tags⟩ parameter bindings
    | _ =>
      match target.strip with
      | none => (false, bindings)
      | some target =>
        Shape.convert ⟨shape, origin, modifier, tags⟩ isVariable shape target bindings
termination_by structural source => source

/-- Conversion of a stripped source symbol of the given shape to a stripped target. -/
def Shape.convert (source : Symbol) (isVariable : Bool) :
    Shape → Symbol → Bindings → Bool × Bindings
  | .primitive type, target, bindings =>
    match target.shape with
    | .primitive other => (type.convertsTo other, bindings)
    | _ => (source.sameType target, bindings)
  | .aggregate _, target, bindings =>
    match target.shape with
    | .aggregate other => (source.derivesFrom other.node, bindings)
    | _ => (source.sameType target, bindings)
  | .enumeration node none, target, bindings =>
    match target.shape with
    | .enumeration other _ => (node == other, bindings)
    | _ => (false, bindings)
  | .enumeration node (some base), target, bindings =>
    match target.shape with
    | .enumeration other _ => (node == other, bindings)
    | _ => Symbol.convertBelow base base.isMember base target bindings
  | .array element length, target, bindings =>
    match target.shape with
    | .array otherElement otherLength =>
      if otherLength.isNone || length == otherLength then
        Symbol.convertOption element otherElement bindings
      else
        (false, bindings)
    | .pointer (some pointee) =>
      -- Text converts to a pointer to its characters unless a variable holds it.
      (!isVariable && source.isString && pointee.isCharacter, bindings)
    | _ => (source.sameType target, bindings)
  | .associative key value, target, bindings =>
    match target.shape with
    | .associative otherKey otherValue =>
      match Symbol.convertOption key otherKey bindings with
      | (true, bindings) => Symbol.convertOption value otherValue bindings
      | (false, bindings) => (false, bindings)
    | _ => (source.sameType target, bindings)
  | .pointer none, target, bindings =>
    match target.shape with
    | .pointer (some ⟨.primitive .void, _, _, _⟩) => (true, bindings)
    | .pointer other => (other.isNone, bindings)
    | _ => (source.sameType target, bindings)
  | .pointer (some pointee), target, bindings =>
    match target.shape with
    | .pointer (some ⟨.primitive .void, _, _, _⟩) => (true, bindings)
    | .pointer (some other) =>
      match other.shape with
      | .parameter _ => Symbol.convertBelow pointee pointee.isMember pointee other bindings
      | _ => (pointee.sameType other, bindings)
    | .pointer none => (false, bindings)
    | _ => (source.sameType target, bindings)
  | .tuple items, target, bindings =>
    match target.shape with
    | .tuple others =>
      if items.length = others.length then
        Argument.convertAll items others bindings
      else
        (false, bindings)
    | _ => (source.sameType target, bindings)
  | _, target, bindings => (source.sameType target, bindings)
termination_by structural shape => shape

/-- Conversion between types that may be unknown; two unknown types convert. -/
def Symbol.convertOption : Option Symbol → Option Symbol → Bindings → Bool × Bindings
  | none, none, bindings => (true, bindings)
  | some source, some target, bindings =>
    Symbol.convertBelow source source.isMember source target bindings
  | _, _, bindings => (false, bindings)
termination_by structural source => source

/-- Conversion of a template argument; arguments that are not both types must agree. -/
def Argument.convert : Argument → Argument → Bindings → Bool × Bindings
  | .type source, other, bindings =>
    match other.type? with
    | some target => Symbol.convertBelow source source.isMember source target bindings
    | none => ((Argument.type source).agrees other, bindings)
  | .value (.type source), other, bindings =>
    match other.type? with
    | some target => Symbol.convertBelow source source.isMember source target bindings
    | none => ((Argument.value (.type source)).agrees other, bindings)
  | argument, other, bindings => (argument.agrees other, bindings)
termination_by structural argument => argument

/-- Conversion of template arguments one by one, up to the first that fails. -/
def Argument.convertAll : List Argument → List Argument → Bindings → Bool × Bindings
  | argument :: rest, other :: others, bindings =>
    match Argument.convert argument other bindings with
    | (true, bindings) => Argument.convertAll rest others bindings
    | (false, bindings) => (false, bindings)
  | _, _, bindings => (true, bindings)
termination_by structural arguments => arguments

end

namespace Symbol

/-- Whether the source converts to the target, and the bindings made on the way. -/
def convert (source target : Symbol) (bindings : Bindings) : Bool × Bindings :=
  convertBelow source source.isMember source target bindings

def convertsTo (source target : Symbol) : Bool :=
  (source.convert target .none).1

end Symbol

end DScope
