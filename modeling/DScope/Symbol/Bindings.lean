import DScope.Symbol.Value

namespace DScope

/-!
# Bindings of template parameters

Bindings are kept under the parameter they belong to, in the order in which the
parameters came. A slot may be empty: its parameter is declared and not yet
bound.
-/

namespace Binding

def unbound (parameter : NodeId) : Binding :=
  ⟨parameter, none, none⟩

def ofType (parameter : NodeId) (type : Symbol) : Binding :=
  ⟨parameter, some type, none⟩

/-- A parameter bound to a constant, and so to the type of that constant. -/
def ofValue (parameter : NodeId) (value : Value) : Binding :=
  ⟨parameter, value.representedType, some value⟩

def isBound (binding : Binding) : Bool :=
  binding.base.isSome || binding.value.isSome

def argument? (binding : Binding) : Option Argument :=
  match binding.value, binding.base with
  | some value, _ => some (.value value)
  | none, some base => some (.type base)
  | none, none => none

/-- The parameter bound to itself, as it is inside its own template. -/
def ofSelf (parameter : NodeId) : Binding :=
  ofType parameter (Symbol.parameter (unbound parameter))

def isSelf (binding : Binding) : Bool :=
  match binding.base.bind (·.parameter?) with
  | some inner => inner.parameter == binding.parameter && !inner.isBound
  | none => false

end Binding

namespace Slot

def parameter : Slot → NodeId
  | empty parameter => parameter
  | filled binding => binding.parameter

def binding? : Slot → Option Binding
  | empty _ => none
  | filled binding => some binding

/-- Whether the slot binds its parameter to something. -/
def isSatisfied (slot : Slot) : Bool :=
  slot.binding?.any (·.isBound)

end Slot

namespace Bindings

def none : Bindings := ⟨[]⟩

def isEmpty (bindings : Bindings) : Bool :=
  bindings.slots.isEmpty

def size (bindings : Bindings) : Nat :=
  bindings.slots.length

def slot? (bindings : Bindings) (parameter : NodeId) : Option Slot :=
  bindings.slots.find? (·.parameter == parameter)

def contains (bindings : Bindings) (parameter : NodeId) : Bool :=
  (bindings.slot? parameter).isSome

def get? (bindings : Bindings) (parameter : NodeId) : Option Binding :=
  (bindings.slot? parameter).bind (·.binding?)

/-- Whether the parameter is bound to something. -/
def isSatisfied (bindings : Bindings) (parameter : NodeId) : Bool :=
  (bindings.get? parameter).any (·.isBound)

def allSatisfied (bindings : Bindings) : Bool :=
  bindings.slots.all (·.isSatisfied)

/-- The bindings in the filled slots, in order. -/
def filled (bindings : Bindings) : List Binding :=
  bindings.slots.filterMap (·.binding?)

/-- Puts a slot in the place of the slot for the same parameter, or at the end. -/
def putSlot (slot : Slot) : List Slot → List Slot
  | [] => [slot]
  | other :: rest =>
    if other.parameter == slot.parameter then slot :: rest else other :: putSlot slot rest

/-- Binds a parameter, keeping the place of its slot. -/
def set (bindings : Bindings) (binding : Binding) : Bindings :=
  ⟨putSlot (.filled binding) bindings.slots⟩

/-- Gives the parameter a slot if it has none. -/
def declare (bindings : Bindings) (parameter : NodeId) : Bindings :=
  if bindings.contains parameter then bindings else ⟨bindings.slots ++ [.empty parameter]⟩

/-- Empties the slot of a parameter if it has one. -/
def clear (bindings : Bindings) (parameter : NodeId) : Bindings :=
  if bindings.contains parameter then
    ⟨putSlot (.empty parameter) bindings.slots⟩
  else
    bindings

/-- Empty slots for the given parameters. -/
def forParameters (parameters : List NodeId) : Bindings :=
  parameters.foldl declare none

/-- The given bindings, of which the last one for a parameter counts. -/
def ofList (bindings : List Binding) : Bindings :=
  bindings.foldl set none

/-- Takes over every binding of the other whose parameter is not bound here. -/
def mergeMissing (bindings other : Bindings) : Bindings :=
  other.filled.foldl
    (fun merged binding =>
      if merged.isSatisfied binding.parameter then merged else merged.set binding)
    bindings

end Bindings

end DScope
