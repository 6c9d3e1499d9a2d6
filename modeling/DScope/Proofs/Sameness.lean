import DScope.Conversion
import DScope.Proofs.Parts

namespace DScope

variable {symbol : Symbol} {parameter : NodeId}

/-!
# Being the same type

Two symbols are the same type when they have the same outline: what is left of a
symbol without modifiers, array lengths, bases and bindings, a bound template
parameter standing for what it is bound to. This holds of all symbols in which nothing
is left open and no template parameter is bound directly to another one; a parameter
that is bound to a parameter counts as nothing else.
-/

open Symbol hiding allParts allParts_eq parts
open Argument hiding type value
open Shape

/-! ## Template parameters -/

def Shape.isParameter : Shape → Bool
  | .parameter _ => true
  | _ => false

/-- A template parameter is the same shape as nothing. -/
@[simp]
theorem Shape.same_parameter (shape : Shape) (binding : Binding) :
    shape.same (.parameter binding) = false := by
  cases shape <;> simp [same]

@[simp]
theorem Shape.parameter_same (binding : Binding) (shape : Shape) :
    same (.parameter binding) shape = false := by
  cases shape <;> simp [same]

@[simp]
theorem Symbol.boundSameShape_eq (base : Option Symbol) (shape : Shape) :
    boundSameShape base shape = base.any (·.shape.same shape) := by
  rcases base with _ | ⟨baseShape, _, _, _⟩ <;> simp [boundSameShape]

namespace Symbol

variable {other base : Symbol} {value : Option Value}

theorem isOther_or (symbol : Symbol) (parameter : NodeId) :
    (∀ binding, symbol.shape = .parameter binding → binding.parameter ≠ parameter) ∨
      ∃ base value, symbol.shape = .parameter ⟨parameter, base, value⟩ := by
  by_cases isOther : ∀ binding, symbol.shape = .parameter binding → binding.parameter ≠ parameter
  · exact .inl isOther
  · obtain ⟨⟨_, base, value⟩, isParameter, rfl⟩ :
        ∃ binding, symbol.shape = .parameter binding ∧ binding.parameter = parameter := by
      simpa using isOther
    exact .inr ⟨base, value, isParameter⟩

theorem sameType_of_bare
    (isBare : symbol.shape.isParameter = false) (otherIsBare : other.shape.isParameter = false) :
    symbol.sameType other = symbol.shape.same other.shape := by
  obtain ⟨shape, _, _, _⟩ := symbol
  obtain ⟨otherShape, _, _, _⟩ := other
  cases shape with
  | parameter _ => cases isBare
  | _ =>
    cases otherShape with
    | parameter _ => cases otherIsBare
    | _ => simp only [sameType]

theorem sameType_of_parameter {base otherBase : Option Symbol} {otherValue : Option Value}
    (isParameter : symbol.shape = .parameter ⟨parameter, base, value⟩)
    (otherIsParameter : other.shape = .parameter ⟨parameter, otherBase, otherValue⟩) :
    symbol.sameType other = optionSameType base otherBase := by
  obtain ⟨shape, _, _, _⟩ := symbol
  cases isParameter
  simp [sameType, otherIsParameter]

theorem sameType_of_unbound (isUnbound : symbol.shape = .parameter ⟨parameter, none, value⟩) :
    symbol.sameType other = true ↔ ∃ value, other.shape = .parameter ⟨parameter, none, value⟩ := by
  obtain ⟨shape, _, _, _⟩ := symbol
  obtain ⟨otherShape, _, _, _⟩ := other
  cases isUnbound
  cases otherShape with
  | parameter binding =>
    obtain ⟨otherParameter, otherBase, otherValue⟩ := binding
    by_cases isSame : parameter = otherParameter <;> cases otherBase <;>
      simp [sameType, optionSameType, eq_comm]
  | _ => simp [sameType]

theorem sameType_unbound (isUnbound : other.shape = .parameter ⟨parameter, none, value⟩)
    (isBare : symbol.shape.isParameter = false) : symbol.sameType other = false := by
  obtain ⟨shape, _, _, _⟩ := symbol
  cases shape with
  | parameter _ => cases isBare
  | _ => simp [sameType, isUnbound]

theorem sameType_of_bound (isBound : symbol.shape = .parameter ⟨parameter, some base, value⟩)
    (isOther : ∀ binding, other.shape = .parameter binding → binding.parameter ≠ parameter) :
    symbol.sameType other = (!base.shape.isParameter && base.sameType other) := by
  obtain ⟨shape, _, _, _⟩ := symbol
  obtain ⟨otherShape, _, _, _⟩ := other
  obtain ⟨baseShape, _, _, _⟩ := base
  cases isBound
  cases otherShape with
  | parameter binding =>
    have isOther : parameter ≠ binding.parameter := (isOther binding rfl).symm
    obtain ⟨otherParameter, otherBase, otherValue⟩ := binding
    cases otherBase <;> cases baseShape <;> simp [sameType, isParameter, isOther]
  | _ => cases baseShape <;> simp [sameType, isParameter]

theorem sameType_bound (isBound : other.shape = .parameter ⟨parameter, some base, value⟩)
    (isOther : ∀ binding, symbol.shape = .parameter binding → binding.parameter ≠ parameter) :
    symbol.sameType other = (!base.shape.isParameter && symbol.sameType base) := by
  obtain ⟨shape, _, _, _⟩ := symbol
  obtain ⟨baseShape, _, _, _⟩ := base
  cases shape with
  | parameter binding =>
    have isOther : binding.parameter ≠ parameter := isOther binding rfl
    obtain ⟨ownParameter, ownBase, ownValue⟩ := binding
    cases ownBase <;> cases baseShape <;>
      simp [sameType, isParameter, isBound, isOther]
  | _ => cases baseShape <;> simp [sameType, isParameter, isBound]

end Symbol

/--
A template parameter that is bound to a type counts as that type on either side of a
comparison. One that is bound to a template parameter in its turn is the same type as
no symbol of anything else.
-/
theorem bound_parameter_counts_as_its_type
    {symbol base other : Symbol}
    {parameter : NodeId}
    {value : Option Value}
    (isBound : symbol.shape = .parameter ⟨parameter, some base, value⟩)
    (isOther : ∀ binding, other.shape = .parameter binding → binding.parameter ≠ parameter) :
    (base.shape.isParameter = false →
        symbol.sameType other = base.sameType other ∧
          other.sameType symbol = other.sameType base) ∧
      (base.shape.isParameter = true →
        symbol.sameType other = false ∧ other.sameType symbol = false) := by
  rw [sameType_of_bound isBound isOther, sameType_bound isBound isOther]
  constructor
  · intro isBare
    simp [isBare]
  · intro isParameter
    simp [isParameter]

/-- A parameter bound to `int` counts as `int` when it is compared with another such parameter. -/
theorem bound_parameters_count_as_int :
    let first := Symbol.parameter (.ofType ⟨1⟩ (.primitive .int))
    let second := Symbol.parameter (.ofType ⟨2⟩ (.primitive .int))
    first.sameType second = (Symbol.primitive .int).sameType second ∧
      (Symbol.primitive .int).sameType second = true := by
  intro first second
  have isBound : first.shape = .parameter ⟨⟨1⟩, some (.primitive .int), none⟩ := rfl
  have isOther : ∀ binding, second.shape = .parameter binding → binding.parameter ≠ ⟨1⟩ := by
    rintro binding ⟨⟩
    decide
  exact ⟨((bound_parameter_counts_as_its_type isBound isOther).1 rfl).1, by decide +kernel⟩

/-- A parameter counts as `int` no longer when it is bound to a parameter that is bound to `int`. -/
theorem parameter_passed_on_counts_as_nothing :
    let passedOn := Symbol.parameter (.ofType ⟨1⟩ (.primitive .int))
    passedOn.sameType (.primitive .int) = true ∧
      (Symbol.parameter (.ofType ⟨2⟩ passedOn)).sameType (.primitive .int) = false := by
  decide +kernel

/-! ## Symbols that can be compared -/

mutual

/-- Whether nothing in the constant is symbolic or a floating-point number. -/
@[simp]
def Value.isExact : Value → Bool
  | .float .. | .symbolic _ => false
  | .array items => Value.allExact items
  | _ => true

/-- Whether all of the constants are exact. -/
@[simp]
def Value.allExact : List Value → Bool
  | [] => true
  | value :: rest => value.isExact && Value.allExact rest

end

/-- Whether the argument is a type that was found or an exact constant. -/
def Argument.isExact : Argument → Bool
  | .type _ => true
  | .value constant => constant.isExact
  | .unresolved _ => false

/-- The constants that parameters are bound to. -/
def Bindings.constants (bindings : Bindings) : List Value :=
  bindings.filled.filterMap Binding.value

namespace Shape

/-- The template arguments and constants in a shape outside of the symbols in it. -/
def arguments : Shape → List Argument
  | .aggregate declared => declared.bindings.constants.map .value
  | .member found => (found.constant.toList ++ found.bindings.constants).map .value
  | .parameter binding => binding.value.toList.map .value
  | .tuple items => items
  | _ => []

def isAmbiguous : Shape → Bool
  | .ambiguous _ => true
  | _ => false

/-- Whether nothing is left open in the shape outside of the symbols in it. -/
def isDefinite (shape : Shape) : Bool :=
  !shape.isAmbiguous && shape.arguments.all Argument.isExact

/-- Whether the shape is that of a template parameter bound directly to a template parameter. -/
def isBoundToParameter : Shape → Bool
  | .parameter ⟨_, some base, _⟩ => base.shape.isParameter
  | _ => false

/-- Whether symbols with such parts can be compared. -/
def isComparable (shape : Shape) : Bool :=
  shape.isDefinite && !shape.isBoundToParameter

end Shape

/-- A symbol in which nothing is left open and no parameter is bound directly to another. -/
def Symbol.IsComparable (symbol : Symbol) : Prop :=
  ∀ part ∈ symbol.parts, part.shape.isComparable = true

def Shape.IsComparable (shape : Shape) : Prop :=
  shape.isComparable = true ∧ ∀ part ∈ shape.parts, part.shape.isComparable = true

def Value.IsComparable (value : Value) : Prop :=
  value.isExact = true ∧ ∀ part ∈ value.parts, part.shape.isComparable = true

def Argument.IsComparable (argument : Argument) : Prop :=
  argument.isExact = true ∧ ∀ part ∈ argument.parts, part.shape.isComparable = true

instance (symbol : Symbol) : Decidable symbol.IsComparable :=
  inferInstanceAs (Decidable (∀ part ∈ symbol.parts, part.shape.isComparable = true))

namespace Shape

theorem isComparable_pointer {target : Option Symbol} :
    (pointer target).IsComparable ↔ ∀ symbol ∈ target, symbol.IsComparable := by
  have isOwn : (pointer target).isComparable = true := rfl
  cases target <;> simp [IsComparable, Symbol.IsComparable, isOwn]

theorem isComparable_array {element : Option Symbol} {length : Option Nat} :
    (array element length).IsComparable ↔ ∀ symbol ∈ element, symbol.IsComparable := by
  have isOwn : (array element length).isComparable = true := rfl
  cases element <;> simp [IsComparable, Symbol.IsComparable, isOwn]

theorem isComparable_associative {key value : Option Symbol} :
    (associative key value).IsComparable ↔
      (∀ symbol ∈ key, symbol.IsComparable) ∧ ∀ symbol ∈ value, symbol.IsComparable := by
  have isOwn : (associative key value).isComparable = true := rfl
  cases key <;> cases value <;>
    simp [IsComparable, Symbol.IsComparable, isOwn, or_imp, forall_and]

theorem isComparable_callable {written : Callable} :
    (callable written).IsComparable ↔
      (∀ symbol ∈ written.result, symbol.IsComparable) ∧
        ∀ symbol ∈ written.parameters, symbol.IsComparable := by
  obtain ⟨result, parameters, isFunction⟩ := written
  have isOwn : (callable ⟨result, parameters, isFunction⟩).isComparable = true := rfl
  simp only [IsComparable, isOwn, parts, optionParts_eq, Symbol.allParts_eq, true_and,
    List.mem_append, or_imp, forall_and, List.mem_flatMap, forall_exists_index, and_imp,
    Option.mem_toList]
  constructor
  · rintro ⟨inResult, inParameters⟩
    exact ⟨fun symbol isResult part => inResult part symbol isResult,
      fun symbol isParameter part => inParameters part symbol isParameter⟩
  · rintro ⟨inResult, inParameters⟩
    exact ⟨fun part symbol isResult => inResult symbol isResult part,
      fun part symbol isParameter => inParameters symbol isParameter part⟩

theorem isComparable_tuple {items : List Argument} :
    (tuple items).IsComparable ↔ ∀ item ∈ items, item.IsComparable := by
  have isOwn : (tuple items).isComparable = items.all isExact := by
    simp [isComparable, isDefinite, isAmbiguous, arguments, isBoundToParameter]
  simp only [IsComparable, isOwn, parts, allParts_eq, List.all_eq_true, List.mem_flatMap,
    forall_exists_index, and_imp]
  constructor
  · rintro ⟨areExact, inItems⟩ item isItem
    exact ⟨areExact item isItem, fun part => inItems part item isItem⟩
  · intro areComparable
    exact ⟨fun item isItem => (areComparable item isItem).1,
      fun part item isItem => (areComparable item isItem).2 part⟩

theorem not_isComparable_ambiguous {candidates : List Symbol} :
    ¬(ambiguous candidates).IsComparable := by
  rintro ⟨isOwn, -⟩
  cases isOwn

end Shape

namespace Symbol.IsComparable

theorem shape (isComparable : symbol.IsComparable) : symbol.shape.IsComparable := by
  obtain ⟨shape, origin, modifier, tags⟩ := symbol
  refine ⟨isComparable _ (by simp), fun part isPart => isComparable part ?_⟩
  simp [isPart]

theorem base {base : Symbol} {value : Option Value} (isComparable : symbol.IsComparable)
    (isBound : symbol.shape = .parameter ⟨parameter, some base, value⟩) :
    base.IsComparable ∧ base.shape.isParameter = false := by
  obtain ⟨isOwn, areParts⟩ := isComparable.shape
  rw [isBound] at isOwn areParts
  constructor
  · intro part isPart
    apply areParts
    simp [isPart]
  · simp only [Shape.isComparable, Bool.and_eq_true,
      Bool.not_eq_true'] at isOwn
    exact isOwn.2

end Symbol.IsComparable

namespace Value

theorem allExact_eq (values : List Value) : allExact values = values.all isExact := by
  induction values with
  | nil => rfl
  | cons value rest ih => simp [ih]

theorem isFinal_of_isExact {value : Value} (isExact : value.isExact = true) :
    value.isFinal = true := by
  cases value <;> simp_all [isFinal]

theorem isComparable_array {items : List Value} :
    (array items).IsComparable ↔ ∀ item ∈ items, item.IsComparable := by
  simp only [IsComparable, isExact, allExact_eq, parts, allParts_eq, List.all_eq_true,
    List.mem_flatMap, forall_exists_index, and_imp]
  constructor
  · rintro ⟨areExact, inItems⟩ item isItem
    exact ⟨areExact item isItem, fun part => inItems part item isItem⟩
  · intro areComparable
    exact ⟨fun item isItem => (areComparable item isItem).1,
      fun part item isItem => (areComparable item isItem).2 part⟩

theorem isComparable_type : (type symbol).IsComparable ↔ symbol.IsComparable := by
  simp [IsComparable, Symbol.IsComparable]

end Value

namespace Argument

theorem isComparable_type : (type symbol).IsComparable ↔ symbol.IsComparable := by
  simp [IsComparable, isExact, Symbol.IsComparable]

theorem isComparable_value {constant : Value} :
    (value constant).IsComparable ↔ constant.IsComparable := by
  simp [IsComparable, isExact, Value.IsComparable]

theorem not_isComparable_unresolved {text : String} : ¬(unresolved text).IsComparable := by
  rintro ⟨isExact, -⟩
  cases isExact

end Argument

/-! ## Outlines -/

mutual

/-- What counts when symbols are compared. -/
inductive Outline where
  | primitive (type : BasicType)
  | pointer (target : Option Outline)
  | array (element : Option Outline)
  | associative (key value : Option Outline)
  | callable (isFunction : Bool) (result : Option Outline) (parameters : List Outline)
  | aggregate (node : NodeId)
  | enumeration (node : NodeId)
  | aliased (node : NodeId)
  | module (node : NodeId)
  | package (path : String)
  /-- A member by its declaration, or by its name if it is built in. -/
  | member (definition : NodeId ⊕ String)
  /-- A template parameter that is not bound to a type. -/
  | parameter (node : NodeId)
  | ambiguous
  | tuple (items : List Content)

/-- What counts when template arguments and constants are compared. -/
inductive Content where
  | type (outline : Outline)
  | number (number : Int)
  | string (text : String)
  | array (items : List Content)
  | null
  /-- Something that is not known exactly. -/
  | unknown

end

/-- What counts when definitions are compared. -/
def Definition.outline : Definition → NodeId ⊕ String
  | .node place => .inl place
  | .builtin property => .inr property.name

mutual

/-- The outline of a symbol. -/
@[simp]
def Symbol.outline : Symbol → Outline
  | ⟨shape, _, _, _⟩ => shape.outline

/-- The outline of a shape. -/
@[simp]
def Shape.outline : Shape → Outline
  | .primitive type => .primitive type
  | .pointer target => .pointer (Symbol.optionOutline target)
  | .array element _ => .array (Symbol.optionOutline element)
  | .associative key value => .associative (Symbol.optionOutline key) (Symbol.optionOutline value)
  | .callable written => written.outline
  | .aggregate declared => .aggregate declared.node
  | .enumeration node _ => .enumeration node
  | .aliased node _ => .aliased node
  | .module node => .module node
  | .package path => .package path
  | .member found => .member found.definition.outline
  | .parameter binding => binding.outline
  | .ambiguous _ => .ambiguous
  | .tuple items => .tuple (Argument.contents items)

/-- The outline of a callable. -/
@[simp]
def Callable.outline : Callable → Outline
  | ⟨result, parameters, isFunction⟩ =>
    .callable isFunction (Symbol.optionOutline result) (Symbol.allOutlines parameters)

/-- The outline of a template parameter: that of the type it is bound to, if it is bound. -/
@[simp]
def Binding.outline : Binding → Outline
  | ⟨parameter, base, _⟩ => (Symbol.optionOutline base).getD (.parameter parameter)

/-- The outline of a type that may be unknown. -/
@[simp]
def Symbol.optionOutline : Option Symbol → Option Outline
  | none => none
  | some symbol => some symbol.outline

/-- The outlines of several symbols. -/
@[simp]
def Symbol.allOutlines : List Symbol → List Outline
  | [] => []
  | symbol :: rest => symbol.outline :: Symbol.allOutlines rest

/-- The content of a template argument. -/
@[simp]
def Argument.content : Argument → Content
  | .type symbol => .type symbol.outline
  | .value constant => constant.content
  | .unresolved _ => .unknown

/-- The contents of several template arguments. -/
@[simp]
def Argument.contents : List Argument → List Content
  | [] => []
  | argument :: rest => argument.content :: Argument.contents rest

/-- The content of a constant. -/
@[simp]
def Value.content : Value → Content
  | .integer number _ => .number number
  | .bool truth => .number (if truth then 1 else 0)
  | .character code => .number code.toNat
  | .string text => .string text
  | .array items => .array (Value.contents items)
  | .type symbol => .type symbol.outline
  | .null => .null
  | .float .. | .symbolic _ => .unknown

/-- The contents of several constants. -/
@[simp]
def Value.contents : List Value → List Content
  | [] => []
  | value :: rest => value.content :: Value.contents rest

end

theorem Symbol.outline_eq (symbol : Symbol) : symbol.outline = symbol.shape.outline := by
  cases symbol
  rw [outline]

namespace Shape

variable {shape : Shape}

theorem ctorIdx_eq_of_same {shape other : Shape} (isSame : shape.same other = true) :
    shape.ctorIdx = other.ctorIdx := by
  rw [same.eq_def] at isSame
  split at isSame
  case h_14 => cases isSame
  all_goals rfl

theorem ctorIdx_outline {shape : Shape} (isBare : shape.isParameter = false) :
    shape.outline.ctorIdx = shape.ctorIdx := by
  cases shape with
  | parameter _ => cases isBare
  | callable written =>
    cases written
    rfl
  | _ => simp only [outline]; rfl

theorem same_iff_of_ne
    {other : Shape} (isBare : shape.isParameter = false) (otherIsBare : other.isParameter = false)
    (differ : shape.ctorIdx ≠ other.ctorIdx) :
    shape.same other = true ↔ shape.outline = other.outline := by
  constructor
  · intro isSame
    exact absurd (ctorIdx_eq_of_same isSame) differ
  · intro isSame
    rw [← ctorIdx_outline isBare, isSame, ctorIdx_outline otherIsBare] at differ
    exact absurd rfl differ

theorem outline_ne_parameter (isBare : shape.isParameter = false) (parameter : NodeId) :
    shape.outline ≠ .parameter parameter := by
  intro isSame
  have isIndex := ctorIdx_outline isBare
  rw [isSame] at isIndex
  cases shape with
  | parameter _ => cases isBare
  | _ => cases isIndex

end Shape

theorem Symbol.outline_eq_parameter_iff (isComparable : symbol.IsComparable) :
    symbol.outline = .parameter parameter ↔
      ∃ value, symbol.shape = .parameter ⟨parameter, none, value⟩ := by
  rw [symbol.outline_eq]
  cases isShape : symbol.shape with
  | parameter binding =>
    obtain ⟨other, base, value⟩ := binding
    cases base with
    | none => simp
    | some base =>
      simpa [base.outline_eq] using outline_ne_parameter (isComparable.base isShape).2 parameter
  | _ =>
    refine iff_of_false (outline_ne_parameter rfl parameter) ?_
    rintro ⟨_, isParameter⟩
    cases isParameter

theorem Symbol.sameType_iff_of_bare {other : Symbol} (isBare : symbol.shape.isParameter = false)
    (isComparable : symbol.IsComparable) (otherIsComparable : other.IsComparable)
    (compares :
      ∀ shape : Shape,
        symbol.shape.isParameter = false →
          shape.isParameter = false →
          symbol.shape.IsComparable →
            shape.IsComparable →
            (symbol.shape.same shape = true ↔ symbol.shape.outline = shape.outline)) :
    symbol.sameType other = true ↔ symbol.outline = other.outline := by
  have isOther (parameter : NodeId) :
      ∀ binding, symbol.shape = .parameter binding → binding.parameter ≠ parameter := by
    rintro binding isParameter
    simp [isParameter, Shape.isParameter] at isBare
  rw [symbol.outline_eq, other.outline_eq]
  cases isShape : other.shape with
  | parameter binding =>
    obtain ⟨parameter, base, value⟩ := binding
    cases base with
    | none =>
      have isNoParameter := Shape.outline_ne_parameter isBare parameter
      simpa [sameType_unbound isShape isBare] using isNoParameter
    | some base =>
      obtain ⟨baseIsComparable, baseIsBare⟩ := otherIsComparable.base isShape
      rw [sameType_bound isShape (isOther parameter), sameType_of_bare isBare baseIsBare,
        baseIsBare]
      simpa [base.outline_eq] using
        compares base.shape isBare baseIsBare isComparable.shape baseIsComparable.shape
  | _ =>
    have otherIsBare : other.shape.isParameter = false := by rw [isShape]; rfl
    rw [sameType_of_bare isBare otherIsBare, ← isShape]
    exact compares other.shape isBare otherIsBare isComparable.shape otherIsComparable.shape

/-! ## Comparing outlines -/

mutual

theorem Symbol.sameType_iff :
    (symbol other : Symbol) →
      symbol.IsComparable →
      other.IsComparable →
      (symbol.sameType other = true ↔ symbol.outline = other.outline)
  | ⟨shape, origin, modifier, tags⟩, other, isComparable, otherIsComparable => by
    cases shape with
    | parameter binding =>
      obtain ⟨parameter, base, value⟩ := binding
      cases base with
      | none =>
        rw [sameType_of_unbound rfl, ← outline_eq_parameter_iff otherIsComparable]
        simp [eq_comm]
      | some base =>
        obtain ⟨baseIsComparable, baseIsBare⟩ := isComparable.base rfl
        rcases other.isOther_or parameter with isOther | ⟨otherBase, otherValue, isParameter⟩
        · rw [sameType_of_bound rfl isOther, baseIsBare]
          simpa using Symbol.sameType_iff base other baseIsComparable otherIsComparable
        · rw [sameType_of_parameter rfl isParameter, other.outline_eq, isParameter]
          cases otherBase with
          | none =>
            simpa [optionSameType, base.outline_eq] using
              Shape.outline_ne_parameter baseIsBare parameter
          | some otherBase =>
            simpa [optionSameType] using
              Symbol.sameType_iff base otherBase baseIsComparable
                (otherIsComparable.base isParameter).1
    | _ =>
      exact sameType_iff_of_bare rfl isComparable otherIsComparable (Shape.same_iff _)
termination_by structural symbol => symbol

/-- Shapes of symbols that are no template parameters are the same if their outlines are. -/
theorem Shape.same_iff (shape other : Shape) (isBare : shape.isParameter = false)
    (otherIsBare : other.isParameter = false) (isComparable : shape.IsComparable)
    (otherIsComparable : other.IsComparable) :
    shape.same other = true ↔ shape.outline = other.outline := by
  by_cases isSameKind : shape.ctorIdx = other.ctorIdx
  case neg => exact same_iff_of_ne isBare otherIsBare isSameKind
  cases shape <;> cases other <;> cases isSameKind
  case pointer.pointer.refl target otherTarget =>
    rw [isComparable_pointer] at isComparable otherIsComparable
    simp [same, Symbol.optionSameType_iff target otherTarget isComparable otherIsComparable]
  case array.array.refl element _ otherElement _ =>
    rw [isComparable_array] at isComparable otherIsComparable
    simp [same, Symbol.optionSameType_iff element otherElement isComparable otherIsComparable]
  case associative.associative.refl key value otherKey otherValue =>
    rw [isComparable_associative] at isComparable otherIsComparable
    simp [same, Symbol.optionSameType_iff key otherKey isComparable.1 otherIsComparable.1,
      Symbol.optionSameType_iff value otherValue isComparable.2 otherIsComparable.2]
  case callable.callable.refl written otherWritten =>
    obtain ⟨result, parameters, isFunction⟩ := written
    obtain ⟨otherResult, otherParameters, otherIsFunction⟩ := otherWritten
    rw [isComparable_callable] at isComparable otherIsComparable
    simp [same, and_assoc,
      Symbol.optionSameType_iff result otherResult isComparable.1 otherIsComparable.1,
      Symbol.allSameType_iff parameters otherParameters isComparable.2 otherIsComparable.2]
  case tuple.tuple.refl items otherItems =>
    rw [isComparable_tuple] at isComparable otherIsComparable
    simp [same, Argument.allAgree_iff items otherItems isComparable otherIsComparable]
  case member.member.refl found otherFound =>
    obtain ⟨definition, _, _, _⟩ := found
    obtain ⟨otherDefinition, _, _, _⟩ := otherFound
    cases definition <;> cases otherDefinition <;> simp [same, Definition.outline]
  case aggregate.aggregate.refl declared _ =>
    cases declared
    simp [same]
  case parameter.parameter.refl => cases isBare
  case ambiguous.ambiguous.refl => exact absurd isComparable not_isComparable_ambiguous
  all_goals simp [same]
termination_by structural shape

theorem Symbol.optionSameType_iff :
    (symbol other : Option Symbol) →
      (∀ inner ∈ symbol, inner.IsComparable) →
      (∀ inner ∈ other, inner.IsComparable) →
      (optionSameType symbol other = true ↔
        optionOutline symbol = optionOutline other)
  | none, other, _, _ => by cases other <;> simp [optionSameType]
  | some symbol, none, _, _ => by simp [optionSameType]
  | some symbol, some other, isComparable, otherIsComparable => by
    simpa [optionSameType] using
      Symbol.sameType_iff symbol other (isComparable symbol rfl) (otherIsComparable other rfl)
termination_by structural symbol => symbol

theorem Symbol.allSameType_iff :
    (symbols others : List Symbol) →
      (∀ symbol ∈ symbols, symbol.IsComparable) →
      (∀ symbol ∈ others, symbol.IsComparable) →
      (allSameType symbols others = true ↔
        allOutlines symbols = allOutlines others)
  | [], others, _, _ => by cases others <;> simp [allSameType]
  | symbol :: rest, [], _, _ => by simp [allSameType]
  | symbol :: rest, other :: others, areComparable, othersAreComparable => by
    rw [List.forall_mem_cons] at areComparable othersAreComparable
    simp [allSameType,
      Symbol.sameType_iff symbol other areComparable.1 othersAreComparable.1,
      Symbol.allSameType_iff rest others areComparable.2 othersAreComparable.2]
termination_by structural symbols => symbols

/-- Template arguments agree if and only if they have the same content. -/
theorem Argument.agrees_iff :
    (argument other : Argument) →
      argument.IsComparable →
      other.IsComparable →
      (argument.agrees other = true ↔ argument.content = other.content)
  | .type symbol, .type other, isComparable, otherIsComparable => by
    rw [isComparable_type] at isComparable otherIsComparable
    simp [agrees, Symbol.sameType_iff symbol other isComparable otherIsComparable]
  | .type symbol, .value other, isComparable, otherIsComparable => by
    rw [isComparable_type] at isComparable
    rw [isComparable_value] at otherIsComparable
    cases other with
    | type other =>
      rw [Value.isComparable_type] at otherIsComparable
      simp [agrees, Symbol.sameType_iff symbol other isComparable otherIsComparable]
    | _ =>
      have isFinal := Value.isFinal_of_isExact otherIsComparable.1
      simp_all [agrees]
  | .value constant, .type other, isComparable, otherIsComparable => by
    rw [isComparable_value] at isComparable
    rw [isComparable_type] at otherIsComparable
    cases constant with
    | type symbol =>
      rw [Value.isComparable_type] at isComparable
      simp [agrees, Symbol.sameType_iff symbol other isComparable otherIsComparable]
    | _ =>
      have isFinal := Value.isFinal_of_isExact isComparable.1
      simp_all [agrees]
  | .value constant, .value other, isComparable, otherIsComparable => by
    rw [isComparable_value] at isComparable otherIsComparable
    simp [agrees, Value.isFinal_of_isExact isComparable.1,
      Value.isFinal_of_isExact otherIsComparable.1,
      Value.same_iff constant other isComparable otherIsComparable]
  | .unresolved _, _, isComparable, _ => absurd isComparable not_isComparable_unresolved
  | _, .unresolved _, _, otherIsComparable =>
    absurd otherIsComparable not_isComparable_unresolved
termination_by structural argument => argument

theorem Argument.allAgree_iff :
    (arguments others : List Argument) →
      (∀ argument ∈ arguments, argument.IsComparable) →
      (∀ argument ∈ others, argument.IsComparable) →
      (allAgree arguments others = true ↔
        contents arguments = contents others)
  | [], others, _, _ => by cases others <;> simp [allAgree]
  | argument :: rest, [], _, _ => by simp [allAgree]
  | argument :: rest, other :: others, areComparable, othersAreComparable => by
    rw [List.forall_mem_cons] at areComparable othersAreComparable
    simp [allAgree,
      Argument.agrees_iff argument other areComparable.1 othersAreComparable.1,
      Argument.allAgree_iff rest others areComparable.2 othersAreComparable.2]
termination_by structural arguments => arguments

theorem Value.same_iff (value other : Value) (isComparable : value.IsComparable)
    (otherIsComparable : other.IsComparable) :
    value.same other = true ↔ value.content = other.content := by
  cases value <;> cases other
  case array.array items others =>
    rw [Value.isComparable_array] at isComparable otherIsComparable
    simp [Value.same, Value.allSame_iff items others isComparable otherIsComparable]
  case type.type symbol otherSymbol =>
    rw [Value.isComparable_type] at isComparable otherIsComparable
    simp [Value.same, Symbol.sameType_iff symbol otherSymbol isComparable otherIsComparable]
  all_goals
    simp_all [Value.same, Value.sameNumber, Value.integer?, Value.float?, Value.IsComparable]
termination_by structural value

theorem Value.allSame_iff :
    (values others : List Value) →
      (∀ value ∈ values, value.IsComparable) →
      (∀ value ∈ others, value.IsComparable) →
      (Value.allSame values others = true ↔ Value.contents values = Value.contents others)
  | [], others, _, _ => by cases others <;> simp [Value.allSame]
  | value :: rest, [], _, _ => by simp [Value.allSame]
  | value :: rest, other :: others, areComparable, othersAreComparable => by
    rw [List.forall_mem_cons] at areComparable othersAreComparable
    simp [Value.allSame, Value.same_iff value other areComparable.1 othersAreComparable.1,
      Value.allSame_iff rest others areComparable.2 othersAreComparable.2]
termination_by structural values => values

end

/--
On symbols in which nothing is left open and no template parameter is bound directly
to another, being the same type is an equivalence, and so is agreement of such
template arguments.
-/
theorem sameType_is_equivalence :
    Equivalence (fun symbol other : { symbol : Symbol // symbol.IsComparable } =>
        symbol.1.sameType other.1 = true) ∧
      Equivalence (fun argument other : { argument : Argument // argument.IsComparable } =>
        argument.1.agrees other.1 = true) := by
  have sameType_iff (symbol other : { symbol : Symbol // symbol.IsComparable }) :=
    Symbol.sameType_iff symbol.1 other.1 symbol.2 other.2
  have agrees_iff (argument other : { argument : Argument // argument.IsComparable }) :=
    agrees_iff argument.1 other.1 argument.2 other.2
  simp only [sameType_iff, agrees_iff]
  exact ⟨⟨fun _ => rfl, Eq.symm, Eq.trans⟩, ⟨fun _ => rfl, Eq.symm, Eq.trans⟩⟩

end DScope
