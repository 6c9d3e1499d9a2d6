import DScope.Symbol.Bindings

namespace DScope

/-!
# Equality of symbols

Two symbols are equal when all their parts are. Floating-point constants are
compared as numbers, so an undefined one differs from itself, and bindings are
compared slot by slot without regard to their order.
-/

mutual

/-- Whether two symbols have equal parts. -/
def Symbol.equal : Symbol → Symbol → Bool
  | ⟨shape, origin, modifier, tags⟩, other =>
    shape.equal other.shape && origin == other.origin && modifier == other.modifier &&
      Tag.allEqual tags other.tags

def Shape.equal : Shape → Shape → Bool
  | .primitive type, .primitive other => type == other
  | .pointer target, .pointer other => Symbol.optionEqual target other
  | .array element length, .array otherElement otherLength =>
    Symbol.optionEqual element otherElement && length == otherLength
  | .associative key value, .associative otherKey otherValue =>
    Symbol.optionEqual key otherKey && Symbol.optionEqual value otherValue
  | .callable ⟨result, parameters, isFunction⟩, .callable other =>
    Symbol.optionEqual result other.result && Symbol.allEqual parameters other.parameters &&
      isFunction == other.isFunction
  | .aggregate ⟨kind, node, baseClass, interfaces, bindings⟩, .aggregate other =>
    kind == other.kind && node == other.node &&
      Symbol.optionEqual baseClass other.baseClass &&
      Symbol.allEqual interfaces other.interfaces && bindings.equal other.bindings
  | .enumeration node base, .enumeration otherNode otherBase =>
    node == otherNode && Symbol.optionEqual base otherBase
  | .aliased node base, .aliased otherNode otherBase =>
    node == otherNode && Symbol.optionEqual base otherBase
  | .module node, .module other => node == other
  | .package path, .package other => path == other
  | .member ⟨definition, base, bindings, constant⟩, .member other =>
    definition.equal other.definition && Symbol.optionEqual base other.base &&
      bindings.equal other.bindings && Value.optionEqual constant other.constant
  | .parameter binding, .parameter other => binding.equal other
  | .ambiguous candidates, .ambiguous others => Symbol.allEqual candidates others
  | .tuple items, .tuple others => Argument.allEqual items others
  | _, _ => false

def Symbol.optionEqual : Option Symbol → Option Symbol → Bool
  | none, none => true
  | some symbol, some other => symbol.equal other
  | _, _ => false

def Symbol.allEqual : List Symbol → List Symbol → Bool
  | [], [] => true
  | symbol :: rest, other :: others => symbol.equal other && Symbol.allEqual rest others
  | _, _ => false

def Definition.equal : Definition → Definition → Bool
  | .node node, .node other => node == other
  | .builtin ⟨name, description, requiresInstance, parameters⟩, .builtin other =>
    name == other.name && description == other.description &&
      requiresInstance == other.requiresInstance &&
      PropertyParameter.optionEqual parameters other.parameters
  | _, _ => false

def PropertyParameter.optionEqual :
    Option (List PropertyParameter) → Option (List PropertyParameter) → Bool
  | none, none => true
  | some parameters, some others => PropertyParameter.allEqual parameters others
  | _, _ => false

def PropertyParameter.allEqual : List PropertyParameter → List PropertyParameter → Bool
  | [], [] => true
  | ⟨name, type, isLazy⟩ :: rest, other :: others =>
    name == other.name && Symbol.optionEqual type other.type && isLazy == other.isLazy &&
      PropertyParameter.allEqual rest others
  | _, _ => false

def Binding.equal : Binding → Binding → Bool
  | ⟨parameter, base, value⟩, other =>
    parameter == other.parameter && Symbol.optionEqual base other.base &&
      Value.optionEqual value other.value

def Slot.equal : Slot → Slot → Bool
  | .empty parameter, .empty other => parameter == other
  | .filled binding, .filled other => binding.equal other
  | _, _ => false

/-- Whether every slot has an equal one for its parameter in the other bindings. -/
def Slot.allFoundIn (others : Bindings) : List Slot → Bool
  | [] => true
  | slot :: rest =>
    (match others.slot? slot.parameter with
      | some other => slot.equal other
      | none => false) && Slot.allFoundIn others rest

/-- Whether two sets of bindings have equal slots, in any order. -/
def Bindings.equal : Bindings → Bindings → Bool
  | ⟨slots⟩, others => slots.length == others.size && Slot.allFoundIn others slots

def Value.equal : Value → Value → Bool
  | .integer number type, .integer other otherType => number == other && type == otherType
  | .float number type, .float other otherType => number == other && type == otherType
  | .bool truth, .bool other => truth == other
  | .character code, .character other => code == other
  | .string text, .string other => text == other
  | .array items, .array others => Value.allEqual items others
  | .type symbol, .type other => symbol.equal other
  | .null, .null => true
  | .symbolic text, .symbolic other => text == other
  | _, _ => false

def Value.optionEqual : Option Value → Option Value → Bool
  | none, none => true
  | some value, some other => value.equal other
  | _, _ => false

def Value.allEqual : List Value → List Value → Bool
  | [], [] => true
  | value :: rest, other :: others => value.equal other && Value.allEqual rest others
  | _, _ => false

def Argument.equal : Argument → Argument → Bool
  | .type symbol, .type other => symbol.equal other
  | .value value, .value other => value.equal other
  | .unresolved text, .unresolved other => text == other
  | _, _ => false

def Argument.allEqual : List Argument → List Argument → Bool
  | [], [] => true
  | argument :: rest, other :: others => argument.equal other && Argument.allEqual rest others
  | _, _ => false

def Tag.equal : Tag → Tag → Bool
  | .aliased node, .aliased other => node == other
  | .receiver symbol, .receiver other => symbol.equal other
  | .ufcs, .ufcs => true
  | .dispatched name, .dispatched other => name == other
  | _, _ => false

def Tag.allEqual : List Tag → List Tag → Bool
  | [], [] => true
  | tag :: rest, other :: others => tag.equal other && Tag.allEqual rest others
  | _, _ => false

end

namespace Symbol

/-- The symbol with those of the given tags that it does not carry yet. -/
def withMissingTags (symbol : Symbol) (tags : List Tag) : Symbol :=
  tags.foldl
    (fun tagged tag => if tagged.tags.any (·.equal tag) then tagged else tagged.withTag tag)
    symbol

end Symbol

end DScope
