import DScope.Diagnostic
import DScope.Lookup.Scan
import DScope.Symbol.Bindings

namespace DScope

/-!
# The parts of symbols

A symbol holds other symbols: targets, elements, bases, bound types, constants
and receivers, which hold further symbols in turn. This module lists all of them,
and the declarations that each of them names on its own account.
-/

mutual

/-- The symbols inside a symbol at every depth, itself included. -/
@[simp]
def Symbol.parts : Symbol → List Symbol
  | ⟨shape, origin, modifier, tags⟩ =>
    ⟨shape, origin, modifier, tags⟩ :: (shape.parts ++ Tag.allParts tags)

/-- The symbols inside a shape. -/
@[simp]
def Shape.parts : Shape → List Symbol
  | .primitive _ | .module _ | .package _ => []
  | .pointer inner | .array inner _ | .enumeration _ inner | .aliased _ inner =>
    Symbol.optionParts inner
  | .associative key value => Symbol.optionParts key ++ Symbol.optionParts value
  | .callable ⟨result, parameters, _⟩ =>
    Symbol.optionParts result ++ Symbol.allParts parameters
  | .aggregate ⟨_, _, baseClass, interfaces, bindings⟩ =>
    Symbol.optionParts baseClass ++ Symbol.allParts interfaces ++ bindings.parts
  | .member ⟨definition, base, bindings, constant⟩ =>
    definition.parts ++ Symbol.optionParts base ++ bindings.parts ++ Value.optionParts constant
  | .parameter binding => binding.parts
  | .ambiguous candidates => Symbol.allParts candidates
  | .tuple items => Argument.allParts items

/-- The symbols inside a symbol that may be missing. -/
@[simp]
def Symbol.optionParts : Option Symbol → List Symbol
  | none => []
  | some symbol => symbol.parts

/-- The symbols inside several symbols. -/
@[simp]
def Symbol.allParts : List Symbol → List Symbol
  | [] => []
  | symbol :: rest => symbol.parts ++ Symbol.allParts rest

/-- The symbols inside a definition. -/
@[simp]
def Definition.parts : Definition → List Symbol
  | .node _ => []
  | .builtin ⟨_, _, _, none⟩ => []
  | .builtin ⟨_, _, _, some parameters⟩ => PropertyParameter.allParts parameters

/-- The symbols inside the parameters of a property. -/
@[simp]
def PropertyParameter.allParts : List PropertyParameter → List Symbol
  | [] => []
  | ⟨_, type, _⟩ :: rest => Symbol.optionParts type ++ PropertyParameter.allParts rest

/-- The symbols inside a binding. -/
@[simp]
def Binding.parts : Binding → List Symbol
  | ⟨_, base, value⟩ => Symbol.optionParts base ++ Value.optionParts value

/-- The symbols inside bindings. -/
@[simp]
def Bindings.parts : Bindings → List Symbol
  | ⟨slots⟩ => Slot.allParts slots

/-- The symbols inside several slots. -/
@[simp]
def Slot.allParts : List Slot → List Symbol
  | [] => []
  | .empty _ :: rest => Slot.allParts rest
  | .filled binding :: rest => binding.parts ++ Slot.allParts rest

/-- The symbols inside a constant. -/
@[simp]
def Value.parts : Value → List Symbol
  | .array items => Value.allParts items
  | .type symbol => symbol.parts
  | _ => []

/-- The symbols inside a constant that may be missing. -/
@[simp]
def Value.optionParts : Option Value → List Symbol
  | none => []
  | some value => value.parts

/-- The symbols inside several constants. -/
@[simp]
def Value.allParts : List Value → List Symbol
  | [] => []
  | value :: rest => value.parts ++ Value.allParts rest

/-- The symbols inside a template argument. -/
@[simp]
def Argument.parts : Argument → List Symbol
  | .type symbol => symbol.parts
  | .value value => value.parts
  | .unresolved _ => []

/-- The symbols inside several template arguments. -/
@[simp]
def Argument.allParts : List Argument → List Symbol
  | [] => []
  | argument :: rest => argument.parts ++ Argument.allParts rest

/-- The symbols inside several tags. -/
@[simp]
def Tag.allParts : List Tag → List Symbol
  | [] => []
  | .receiver symbol :: rest => symbol.parts ++ Tag.allParts rest
  | _ :: rest => Tag.allParts rest

end

/-! ## Lists of parts -/

theorem Symbol.optionParts_eq (symbol : Option Symbol) :
    Symbol.optionParts symbol = symbol.toList.flatMap Symbol.parts := by
  cases symbol <;> simp

theorem Symbol.allParts_eq (symbols : List Symbol) :
    Symbol.allParts symbols = symbols.flatMap Symbol.parts := by
  induction symbols with
  | nil => rfl
  | cons symbol rest ih =>
    rw [Symbol.allParts, ih, List.flatMap_cons]

theorem Value.optionParts_eq (value : Option Value) :
    Value.optionParts value = value.toList.flatMap Value.parts := by
  cases value <;> simp

theorem Value.allParts_eq (values : List Value) :
    Value.allParts values = values.flatMap Value.parts := by
  induction values with
  | nil => rfl
  | cons value rest ih =>
    rw [Value.allParts, ih, List.flatMap_cons]

theorem Argument.allParts_eq (arguments : List Argument) :
    Argument.allParts arguments = arguments.flatMap Argument.parts := by
  induction arguments with
  | nil => rfl
  | cons argument rest ih =>
    rw [Argument.allParts, ih, List.flatMap_cons]

def Slot.parts (slot : Slot) : List Symbol :=
  slot.binding?.toList.flatMap Binding.parts

theorem Slot.allParts_eq (slots : List Slot) : Slot.allParts slots = slots.flatMap Slot.parts := by
  induction slots with
  | nil => rfl
  | cons slot rest ih =>
    rw [List.flatMap_cons, ← ih]
    cases slot <;> simp [Slot.parts, Slot.binding?]

def PropertyParameter.parts (parameter : PropertyParameter) : List Symbol :=
  Symbol.optionParts parameter.type

theorem PropertyParameter.allParts_eq (parameters : List PropertyParameter) :
    PropertyParameter.allParts parameters = parameters.flatMap PropertyParameter.parts := by
  induction parameters with
  | nil => rfl
  | cons parameter rest ih =>
    obtain ⟨name, type, isLazy⟩ := parameter
    rw [PropertyParameter.allParts, ih, List.flatMap_cons, PropertyParameter.parts]

/-- The symbols inside a tag. -/
@[simp]
def Tag.parts : Tag → List Symbol
  | .receiver symbol => symbol.parts
  | _ => []

theorem Tag.allParts_eq (tags : List Tag) : Tag.allParts tags = tags.flatMap Tag.parts := by
  induction tags with
  | nil => rfl
  | cons tag rest ih =>
    rw [List.flatMap_cons, ← ih]
    cases tag <;> rfl

theorem Symbol.strip_strip {symbol type : Symbol} (isType : symbol.strip = some type) :
    type.strip = some type := by
  fun_induction strip symbol <;> grind [strip]

/-! ## What a symbol names -/

/-- The parameters that the slots are for. -/
def Bindings.parameters (bindings : Bindings) : List NodeId :=
  bindings.slots.map Slot.parameter

/-- The declaration that a definition names, if it is no property. -/
@[simp]
def Definition.nodes : Definition → List NodeId
  | .node place => [place]
  | .builtin _ => []

/-- The declarations that a shape names outside of the symbols in it. -/
@[simp]
def Shape.nodes : Shape → List NodeId
  | .aggregate ⟨_, node, _, _, bindings⟩ => node :: bindings.parameters
  | .enumeration node _ | .aliased node _ | .module node => [node]
  | .member ⟨definition, _, bindings, _⟩ => definition.nodes ++ bindings.parameters
  | .parameter binding => [binding.parameter]
  | _ => []

/-- The declarations that a symbol names outside of the other symbols in it. -/
def Symbol.ownNodes (symbol : Symbol) : List NodeId :=
  symbol.origin.toList ++ symbol.shape.nodes ++ symbol.aliasTags

/-- Data made up of symbols and of places in the tree. -/
class Composite (α : Type) where
  /-- The symbols inside, at every depth. -/
  parts : α → List Symbol
  /-- The declarations named outside of these symbols. -/
  loose : α → List NodeId

namespace Composite

instance : Composite NodeId := ⟨fun _ => [], fun id => [id]⟩

instance : Composite Symbol := ⟨Symbol.parts, fun _ => []⟩

instance : Composite Value := ⟨Value.parts, fun _ => []⟩

instance : Composite Argument := ⟨Argument.parts, fun _ => []⟩

instance : Composite PropertyParameter := ⟨PropertyParameter.parts, fun _ => []⟩

instance : Composite Definition := ⟨Definition.parts, Definition.nodes⟩

instance : Composite Binding := ⟨Binding.parts, fun binding => [binding.parameter]⟩

instance : Composite Slot := ⟨Slot.parts, fun slot => [slot.parameter]⟩

instance : Composite Bindings := ⟨Bindings.parts, Bindings.parameters⟩

variable {α β ε : Type} [Composite α] [Composite β]

instance : Composite (Option α) where
  parts item := item.toList.flatMap parts
  loose item := item.toList.flatMap loose

instance : Composite (List α) where
  parts items := items.flatMap parts
  loose items := items.flatMap loose

instance : Composite (α × β) where
  parts pair := parts pair.1 ++ parts pair.2
  loose pair := loose pair.1 ++ loose pair.2

instance : Composite (Except ε α) where
  parts outcome := outcome.toOption.toList.flatMap parts
  loose outcome := outcome.toOption.toList.flatMap loose

instance : Composite BuiltinProperty where
  parts property := parts property.parameters
  loose _ := []

instance : Composite Declaration where
  parts declaration := parts declaration.via
  loose declaration := [declaration.node]

instance : Composite Scan where
  parts scan := parts scan.found
  loose scan := scan.home :: loose scan.found

instance : Composite Diagnostic where
  parts
    | .nothingFound .. => []
    | .ambiguity _ _ candidates => parts candidates
    | .deduction _ _ argument _ => parts argument
    | .ambiguousSpecialization _ overloads => parts overloads
  loose
    | .nothingFound _ origin _ | .ambiguity _ origin _ => origin.toList
    | .deduction parameter .. => [parameter]
    | .ambiguousSpecialization .. => []

/-- All declarations that are named, at every depth. -/
def nodes (item : α) : List NodeId :=
  loose item ++ (parts item).flatMap Symbol.ownNodes

end Composite

end DScope
