import DScope.Proofs.Sameness

namespace DScope

variable {shape : Shape} {parameter node : NodeId} {type symbol source target : Symbol}
  {element base key value : Option Symbol} {bindings deduced : Bindings} {argument : Argument}
  {arguments others items : List Argument} {length : Option Nat} {declared : Aggregate}
  {isVariable : Bool}

/-!
# What a conversion takes

For every kind of type this module says what it takes to convert to a type that
has nothing left to strip. It lists the template parameters that a conversion can
bind, and shows that a conversion binds no others and takes no binding back.
-/

open Argument hiding allParts
open List Symbol Shape

/-! ## Shapes of the same type -/

namespace Shape

variable {other : Shape}

theorem primitive_same {type : BasicType} :
    (primitive type).same other = true ↔ other = .primitive type := by
  cases other <;> simp [same]
  exact eq_comm

theorem pointer_same {target : Option Symbol} :
    (pointer target).same other = true ↔
      ∃ inner, other = .pointer inner ∧ optionSameType target inner = true := by
  cases other <;> simp [same]

theorem array_same :
    (array element length).same other = true ↔
      ∃ inner size, other = .array inner size ∧ optionSameType element inner = true := by
  cases other <;> simp [same]

theorem associative_same :
    (associative key value).same other = true ↔
      ∃ otherKey otherValue, other = .associative otherKey otherValue ∧
        optionSameType key otherKey = true ∧ optionSameType value otherValue = true := by
  cases other <;> simp [same, and_assoc]

theorem callable_same {written : Callable} :
    (callable written).same other = true ↔
      ∃ found, other = .callable found ∧ written.isFunction = found.isFunction ∧
        optionSameType written.result found.result = true ∧
        allSameType written.parameters found.parameters = true := by
  cases written
  cases other <;> simp [same, and_assoc]

theorem aggregate_same :
    (aggregate declared).same other = true ↔
      ∃ found, other = .aggregate found ∧ declared.node = found.node := by
  cases declared
  cases other <;> simp [same]

theorem enumeration_same :
    (enumeration node base).same other = true ↔ ∃ inner, other = .enumeration node inner := by
  cases other <;> simp [same]
  exact eq_comm

theorem aliased_same :
    (aliased node base).same other = true ↔ ∃ inner, other = .aliased node inner := by
  cases other <;> simp [same]
  exact eq_comm

theorem member_same {found : Member} :
    (member found).same other = true ↔
      ∃ inner, other = .member inner ∧ found.definition.outline = inner.definition.outline := by
  obtain ⟨definition, base, bindings, constant⟩ := found
  cases other with
  | member inner =>
    obtain ⟨otherDefinition, _, _, _⟩ := inner
    cases definition <;> cases otherDefinition <;> simp [same, Definition.outline]
  | _ => cases definition <;> simp [same]

theorem tuple_same :
    (tuple items).same other = true ↔
      ∃ others, other = .tuple others ∧ allAgree items others = true := by
  cases other <;> simp [same]

end Shape

/-! ## Stripped symbols -/

/-- Whether a symbol of the shape stands for itself. -/
def Shape.isStripped : Shape → Bool
  | .member _ | .aliased .. => false
  | .parameter binding => binding.base.isNone
  | _ => true

/-- The template parameter that a shape leaves open. -/
def Shape.unbound? : Shape → Option NodeId
  | .parameter ⟨node, none, none⟩ => some node
  | _ => none

theorem Shape.eq_of_unbound? (isUnbound : shape.unbound? = some parameter) :
    shape = .parameter ⟨parameter, none, none⟩ := by
  unfold unbound? at isUnbound
  split at isUnbound <;> cases isUnbound
  rfl

theorem Shape.unbound?_eq_none
    (notUnbound : ∀ parameter, shape ≠ .parameter ⟨parameter, none, none⟩) :
    shape.unbound? = none := by
  unfold unbound?
  split
  next node => exact (notUnbound node rfl).elim
  next => rfl

namespace Symbol

variable {type other : Symbol}

theorem isStripped_of_strip (isType : symbol.strip = some type) : type.shape.isStripped = true := by
  fun_induction strip symbol with
  | case1 | case3 => cases isType
  | case2 _ _ _ _ _ _ _ ih => exact ih isType
  | case4 _ _ _ _ _ ih => exact ih isType
  | case5 _ _ _ _ _ _ ih => exact ih isType
  | case6 symbol noMember member noAlias standsFor bound =>
    cases isType
    obtain ⟨shape, origin, modifier, tags⟩ := type
    cases shape with
    | member found =>
      obtain ⟨_, base, _, _⟩ := found
      cases base with
      | none => exact (noMember _ _ _ _ _ _ rfl).elim
      | some base => exact (member _ _ _ _ _ _ _ rfl).elim
    | aliased _ base =>
      cases base with
      | none => exact (noAlias _ _ _ _ rfl).elim
      | some base => exact (standsFor _ _ _ _ _ rfl).elim
    | parameter binding =>
      obtain ⟨_, base, _⟩ := binding
      cases base with
      | none => rfl
      | some base => exact (bound _ _ _ _ _ _ rfl).elim
    | _ => rfl

theorem strip_eq_self (isStripped : symbol.shape.isStripped = true) :
    symbol.strip = some symbol := by
  fun_cases strip symbol <;> simp_all [Shape.isStripped]

theorem parts_subset_of_strip (isType : symbol.strip = some type) : type.parts ⊆ symbol.parts := by
  fun_induction strip symbol with
  | case1 | case3 => cases isType
  | case2 _ _ _ _ _ _ _ ih =>
    intro part isPart
    simp [ih isType isPart]
  | case4 _ _ _ _ _ ih =>
    intro part isPart
    simp [ih isType isPart]
  | case5 _ _ _ _ _ _ ih =>
    intro part isPart
    simp [ih isType isPart]
  | case6 =>
    cases isType
    exact Subset.refl _

theorem sameType_of_isStripped
    (isBare : symbol.shape.isParameter = false) (isStripped : other.shape.isStripped = true) :
    symbol.sameType other = symbol.shape.same other.shape := by
  cases isShape : other.shape with
  | parameter binding =>
    obtain ⟨parameter, base, value⟩ := binding
    rw [isShape] at isStripped
    cases base with
    | none => rw [sameType_unbound isShape isBare, same_parameter]
    | some base => cases isStripped
  | _ =>
    rw [← isShape]
    exact sameType_of_bare isBare (by rw [isShape]; rfl)

end Symbol

/-! ## Conversion of a shape -/

namespace Shape

-- The rules of conversion are simp lemmas as far as this section goes.
attribute [local simp] Shape.convert

/-- Whether types of the shape convert only to what is the same type. -/
def isRigid : Shape → Bool
  | .callable _ | .aliased .. | .module _ | .package _ | .member _ | .parameter _
  | .ambiguous _ => true
  | _ => false

theorem convert_of_isRigid {shape : Shape} (isRigid : shape.isRigid = true) :
    convert source isVariable shape target bindings = (source.sameType target, bindings) := by
  cases shape with
  | primitive _ | pointer _ | array _ _ | associative _ _ | aggregate _ | enumeration _ _
  | tuple _ =>
    cases isRigid
  | _ => simp

def isEnumeration : Shape → Bool
  | .enumeration .. => true
  | _ => false

theorem convert_enumeration :
    convert source isVariable (.enumeration node base) target bindings = (true, deduced) ↔
      (∃ inner, target.shape = .enumeration node inner ∧ bindings = deduced) ∨
        target.shape.isEnumeration = false ∧
          ∃ type, base = some type ∧ type.convert target bindings = (true, deduced) := by
  cases base <;> rw [convert] <;> cases target.shape <;>
    simp [Symbol.convert, isEnumeration]
  all_goals exact fun _ => eq_comm

variable (isStripped : target.shape.isStripped = true)
include isStripped

theorem convert_primitive {type : BasicType} (isShape : source.shape = .primitive type) :
    convert source isVariable (.primitive type) target bindings = (true, deduced) ↔
      ∃ other, target.shape = .primitive other ∧ type.convertsTo other = true ∧
        bindings = deduced := by
  have isSame := sameType_of_isStripped (by rw [isShape]; rfl) isStripped
  rw [convert, isSame, isShape]
  cases target.shape <;> simp [same]

theorem convert_aggregate (isShape : source.shape = .aggregate declared) :
    convert source isVariable (.aggregate declared) target bindings = (true, deduced) ↔
      ∃ other, target.shape = .aggregate other ∧ source.derivesFrom other.node = true ∧
        bindings = deduced := by
  have isSame := sameType_of_isStripped (by rw [isShape]; rfl) isStripped
  rw [convert, isSame, isShape]
  cases declared
  cases target.shape <;> simp [same]

theorem convert_array (isShape : source.shape = .array element length) :
    convert source isVariable (.array element length) target bindings = (true, deduced) ↔
      (∃ inner size, target.shape = .array inner size ∧ (size = none ∨ length = size) ∧
        convertOption element inner bindings = (true, deduced)) ∨
        ∃ pointee, target.shape = .pointer (some pointee) ∧ isVariable = false ∧
          source.isString = true ∧ pointee.isCharacter = true ∧ bindings = deduced := by
  have isSame := sameType_of_isStripped (by rw [isShape]; rfl) isStripped
  rw [convert, isSame, isShape]
  cases target.shape with
  | pointer inner => cases inner <;> simp [same, and_assoc]
  | array inner size =>
    by_cases fits : size = none ∨ length = size <;> simp [fits, and_assoc]
  | _ => simp [same]

theorem convert_associative (isShape : source.shape = .associative key value) :
    convert source isVariable (.associative key value) target bindings = (true, deduced) ↔
      ∃ otherKey otherValue, target.shape = .associative otherKey otherValue ∧
        ∃ between, convertOption key otherKey bindings = (true, between) ∧
        convertOption value otherValue between = (true, deduced) := by
  have isSame := sameType_of_isStripped (by rw [isShape]; rfl) isStripped
  rw [convert, isSame, isShape]
  cases target.shape with
  | associative otherKey otherValue =>
    cases isKey : convertOption key otherKey bindings with
    | mk converts between => cases converts <;> simp [isKey, and_assoc]
  | _ => simp [same]

theorem convert_pointer {inner : Option Symbol} (isShape : source.shape = .pointer inner) :
    Shape.convert source isVariable (.pointer inner) target bindings = (true, deduced) ↔
      ∃ place, target.shape = .pointer place ∧
        ((∃ other, place = some other ∧ other.shape = .primitive .void ∧ bindings = deduced) ∨
          (inner = none ∧ place = none ∧ bindings = deduced) ∨
          ∃ pointee other, inner = some pointee ∧ place = some other ∧
            (other.shape.isParameter = false ∧ pointee.sameType other = true ∧
            bindings = deduced ∨
              other.shape.isParameter = true ∧
                pointee.convert other bindings = (true, deduced))) := by
  have isSame := Symbol.sameType_of_isStripped (by rw [isShape]; rfl) isStripped
  have isOther {other : Symbol}
      (isNot : ∀ origin modifier tags, other ≠ ⟨.primitive .void, origin, modifier, tags⟩) :
      other.shape ≠ .primitive .void := by
    intro isVoid
    cases other
    cases isVoid
    exact isNot _ _ _ rfl
  cases inner with
  | none =>
    rw [Shape.convert, isSame, isShape]
    split
    next isPlace => simp [isPlace]
    next place notVoid isPlace =>
      cases place with
      | none => simp [isPlace]
      | some other =>
        have isNotVoid := isOther fun _ _ _ isVoid => notVoid _ _ _ (congrArg some isVoid)
        simp [isPlace, isNotVoid]
    next notPointer =>
      cases isTarget : target.shape with
      | pointer place => exact (notPointer place isTarget).elim
      | _ => simp [Shape.same]
  | some pointee =>
    rw [Shape.convert, isSame, isShape]
    split
    next isPlace => simp [isPlace, isParameter]
    next other notVoid isPlace =>
      split
      next isParameter =>
        simp [isPlace, isParameter, Shape.isParameter, Symbol.convert]
      next notParameter =>
        have isBare : other.shape.isParameter = false := by
          cases isShape : other.shape with
          | parameter binding => exact (notParameter binding isShape).elim
          | _ => rfl
        simp [isPlace, isBare, isOther notVoid]
    next isPlace => simp [isPlace]
    next notPointer notSome =>
      cases isTarget : target.shape with
      | pointer place => cases place <;> simp_all
      | _ => simp [Shape.same]

theorem convert_tuple (isShape : source.shape = .tuple items) :
    convert source isVariable (.tuple items) target bindings = (true, deduced) ↔
      ∃ others, target.shape = .tuple others ∧ items.length = others.length ∧
        convertAll items others bindings = (true, deduced) := by
  have isSame := sameType_of_isStripped (by rw [isShape]; rfl) isStripped
  rw [convert, isSame, isShape]
  cases target.shape with
  | tuple others => by_cases isLength : items.length = others.length <;> simp [isLength]
  | _ => simp [same]

end Shape

namespace Symbol

variable {whole : Symbol}

theorem bindParameter_iff :
    source.bindParameter parameter bindings = (true, deduced) ↔
      (∃ binding, bindings.get? parameter = some binding ∧
        (∀ bound, binding.base = some bound → source.sameType bound = true) ∧ bindings = deduced) ∨
        bindings.get? parameter = none ∧ bindings.set (.ofType parameter source) = deduced := by
  unfold bindParameter
  cases bindings.get? parameter with
  | none => simp
  | some binding => cases isBase : binding.base <;> simp [isBase]

theorem convertBelow_of_strip_none (isNothing : source.strip = none) :
    convertBelow whole isVariable source target bindings = (whole.sameType target, bindings) := by
  fun_induction strip source <;> simp_all [convertBelow]

theorem convertBelow_of_isStripped (isStripped : source.shape.isStripped = true) :
    convertBelow whole isVariable source target bindings = (true, deduced) ↔
      (∃ parameter, target.shape.unbound? = some parameter ∧
        source.bindParameter parameter bindings = (true, deduced)) ∨
        target.shape.unbound? = none ∧ ∃ type, target.strip = some type ∧
          Shape.convert source isVariable source.shape type bindings = (true, deduced) := by
  rw [convertBelow.eq_def]
  split
  case h_6 =>
    split
    next isParameter => simp [isParameter, Shape.unbound?]
    next notUnbound =>
      rw [Shape.unbound?_eq_none notUnbound]
      cases target.strip <;> simp
  all_goals cases isStripped

end Symbol

namespace Argument

variable {other : Argument}

theorem convert_iff :
    argument.convert other bindings = (true, deduced) ↔
      (∃ source target, argument.type? = some source ∧ other.type? = some target ∧
        source.convert target bindings = (true, deduced)) ∨
        (argument.type? = none ∨ other.type? = none) ∧ argument.agrees other = true ∧
          bindings = deduced := by
  cases argument with
  | type symbol =>
    rw [convert]
    cases other.type? <;> simp [type?, Symbol.convert]
  | value constant =>
    cases constant with
    | type symbol =>
      rw [convert]
      cases other.type? <;> simp [type?, Symbol.convert]
    | _ => simp [convert, type?]
  | unresolved text => simp [convert, type?]

theorem convertAll_cons :
    convertAll (argument :: arguments) (other :: others) bindings = (true, deduced) ↔
      ∃ between, argument.convert other bindings = (true, between) ∧
        convertAll arguments others between = (true, deduced) := by
  rw [convertAll]
  cases argument.convert other bindings with
  | mk converts between => cases converts <;> simp

end Argument

/-! ## Parameters that a conversion can bind -/

mutual

/-- The open parameters at the places of a symbol that a conversion to it looks at. -/
@[simp]
def Symbol.deducible : Symbol → List NodeId
  | ⟨shape, _, _, _⟩ => shape.deducible

/-- The open parameters at the places of a shape that a conversion to it looks at. -/
@[simp]
def Shape.deducible : Shape → List NodeId
  | .pointer inner | .array inner _ | .aliased _ inner => Symbol.optionDeducible inner
  | .associative key value => Symbol.optionDeducible key ++ Symbol.optionDeducible value
  | .member ⟨_, base, _, _⟩ => Symbol.optionDeducible base
  | .parameter ⟨node, none, none⟩ => [node]
  | .parameter ⟨_, base, _⟩ => Symbol.optionDeducible base
  | .tuple items => Argument.allDeducible items
  | _ => []

/-- The open parameters in a type that may be unknown. -/
@[simp]
def Symbol.optionDeducible : Option Symbol → List NodeId
  | none => []
  | some symbol => symbol.deducible

/-- The open parameters in a template argument. -/
@[simp]
def Argument.deducible : Argument → List NodeId
  | .type symbol => symbol.deducible
  | .value (.type symbol) => symbol.deducible
  | _ => []

/-- The open parameters in several template arguments. -/
@[simp]
def Argument.allDeducible : List Argument → List NodeId
  | [] => []
  | argument :: rest => argument.deducible ++ Argument.allDeducible rest

end

theorem Symbol.deducible_eq (symbol : Symbol) : symbol.deducible = symbol.shape.deducible := by
  cases symbol
  rw [deducible]

theorem Symbol.deducible_of_strip (isType : symbol.strip = some type) :
    type.deducible = symbol.deducible := by
  fun_induction strip symbol <;> simp_all

theorem Shape.deducible_of_unbound (isUnbound : shape.unbound? = some parameter) :
    shape.deducible = [parameter] := by
  rw [eq_of_unbound? isUnbound, deducible]

theorem Argument.deducible_of_type (isType : argument.type? = some type) :
    argument.deducible = type.deducible := by
  unfold type? at isType
  split at isType <;> simp_all

mutual

/-- The open parameters that a conversion to the symbol binds before it is decided. -/
@[simp]
def Symbol.tentative : Symbol → List NodeId
  | ⟨shape, _, _, _⟩ => shape.tentative

@[simp]
def Shape.tentative : Shape → List NodeId
  | .pointer inner | .array inner _ | .aliased _ inner => Symbol.optionTentative inner
  | .associative key value => Symbol.optionDeducible key ++ Symbol.optionTentative value
  | .member ⟨_, base, _, _⟩ => Symbol.optionTentative base
  | .parameter ⟨_, base, _⟩ => Symbol.optionTentative base
  | .tuple items => Argument.allTentative items
  | _ => []

@[simp]
def Symbol.optionTentative : Option Symbol → List NodeId
  | none => []
  | some symbol => symbol.tentative

@[simp]
def Argument.tentative : Argument → List NodeId
  | .type symbol => symbol.tentative
  | .value (.type symbol) => symbol.tentative
  | _ => []

/-- All arguments but the last are converted before the conversion is decided. -/
@[simp]
def Argument.allTentative : List Argument → List NodeId
  | [] => []
  | [last] => last.tentative
  | argument :: rest => argument.deducible ++ Argument.allTentative rest

end

theorem Symbol.tentative_eq (symbol : Symbol) : symbol.tentative = symbol.shape.tentative := by
  cases symbol
  rw [tentative]

theorem Symbol.tentative_of_strip (isType : symbol.strip = some type) :
    type.tentative = symbol.tentative := by
  fun_induction strip symbol <;> simp_all

theorem Argument.tentative_of_type (isType : argument.type? = some type) :
    argument.tentative = type.tentative := by
  unfold type? at isType
  split at isType <;> simp_all

theorem Symbol.exists_open_of_deducible :
    (∀ symbol : Symbol, ∀ parameter ∈ symbol.deducible,
        ∃ place ∈ symbol.parts, place.shape.unbound? = some parameter) ∧
      (∀ shape : Shape, ∀ parameter ∈ shape.deducible, shape.unbound? = some parameter ∨
          ∃ place ∈ shape.parts, place.shape.unbound? = some parameter) ∧
      (∀ arguments, ∀ parameter ∈ allDeducible arguments,
          ∃ place ∈ Argument.allParts arguments, place.shape.unbound? = some parameter) ∧
        (∀ argument : Argument, ∀ parameter ∈ argument.deducible,
            ∃ place ∈ argument.parts, place.shape.unbound? = some parameter) ∧
        ∀ symbol : Option Symbol, ∀ parameter ∈ optionDeducible symbol,
          ∃ place ∈ optionParts symbol, place.shape.unbound? = some parameter := by
  apply deducible.mutual_induct_unfolding
    (fun symbol places => ∀ parameter ∈ places,
      ∃ place ∈ symbol.parts, place.shape.unbound? = some parameter)
    (fun shape places => ∀ parameter ∈ places, shape.unbound? = some parameter ∨
      ∃ place ∈ shape.parts, place.shape.unbound? = some parameter)
    (fun arguments places => ∀ parameter ∈ places,
      ∃ place ∈ Argument.allParts arguments, place.shape.unbound? = some parameter)
    (fun argument places => ∀ parameter ∈ places,
      ∃ place ∈ argument.parts, place.shape.unbound? = some parameter)
    (fun symbol places => ∀ parameter ∈ places,
      ∃ place ∈ optionParts symbol, place.shape.unbound? = some parameter)
  all_goals
    simp_all [unbound?]
    try grind

/-! ## Bindings that a conversion makes -/

namespace Bindings

variable {otherParts parts : List Symbol} {otherPlaces places : List NodeId} {between : Bindings}

theorem get?_eq_none_of_filled (areEmpty : bindings.filled = []) (parameter : NodeId) :
    bindings.get? parameter = Option.none := by
  rw [filled, filterMap_eq_nil_iff] at areEmpty
  unfold get? slot?
  cases found : bindings.slots.find? (·.parameter == parameter) with
  | none => rfl
  | some slot => exact areEmpty slot (mem_of_find?_eq_some found)

theorem find?_putSlot (slot : Slot) (slots : List Slot) (parameter : NodeId) :
    (putSlot slot slots).find? (·.parameter == parameter) =
      if slot.parameter = parameter then some slot
      else slots.find? (·.parameter == parameter) := by
  induction slots with
  | nil => by_cases isSlot : slot.parameter = parameter <;> simp [putSlot]
  | cons other rest ih =>
    unfold putSlot
    by_cases isSlot : slot.parameter = parameter <;>
      by_cases isOther : other.parameter = parameter <;>
        grind

theorem get?_set (bindings : Bindings) (binding : Binding) (parameter : NodeId) :
    (bindings.set binding).get? parameter =
      if binding.parameter = parameter then some binding else bindings.get? parameter := by
  have isFound := find?_putSlot (.filled binding) bindings.slots parameter
  unfold get? slot? set
  split <;> simp_all [Slot.parameter, Slot.binding?]

theorem isEmpty_set (bindings : Bindings) (binding : Binding) :
    (bindings.set binding).isEmpty = false := by
  obtain ⟨slots⟩ := bindings
  cases slots with
  | nil => rfl
  | cons first rest =>
    unfold set putSlot isEmpty
    split <;> rfl

/-- Every binding is there later as well. -/
def KeptIn (bindings later : Bindings) : Prop :=
  ∀ parameter binding, bindings.get? parameter = some binding →
    later.get? parameter = some binding

/--
How a conversion may change bindings: one after the other, it binds open parameters at
the given places to types among the given symbols.
-/
inductive Deduces (parts : List Symbol) (places : List NodeId) (bindings : Bindings) :
    Bindings → Prop where
  | refl : Deduces parts places bindings bindings
  | bind
      {deduced : Bindings}
      {parameter : NodeId}
      {type : Symbol}
      (before : Deduces parts places bindings deduced)
      (isOpen : deduced.get? parameter = .none)
      (isPlace : parameter ∈ places)
      (areParts : type.parts ⊆ parts)
      (isStripped : type.shape.isStripped = true) :
      Deduces parts places bindings (deduced.set (.ofType parameter type))

namespace Deduces

theorem mono (deduces : Deduces parts places bindings deduced) (areParts : parts ⊆ otherParts)
    (arePlaces : places ⊆ otherPlaces) : Deduces otherParts otherPlaces bindings deduced := by
  induction deduces with
  | refl => exact .refl
  | bind _ isOpen isPlace arePart isStripped ih =>
    exact .bind ih isOpen (arePlaces isPlace) (Subset.trans arePart areParts) isStripped

theorem trans (first : Deduces parts places bindings between)
    (second : Deduces otherParts otherPlaces between deduced) :
    Deduces (parts ++ otherParts) (places ++ otherPlaces) bindings deduced := by
  induction second with
  | refl => exact first.mono (subset_append_left _ _) (subset_append_left _ _)
  | bind _ isOpen isPlace arePart isStripped ih =>
    exact .bind ih isOpen (mem_append_right places isPlace)
      (Subset.trans arePart (subset_append_right _ _)) isStripped

section

variable (deduces : Deduces parts places bindings deduced)
include deduces

theorem keeps : bindings.KeptIn deduced := by
  induction deduces with
  | refl => exact fun _ _ isBound => isBound
  | bind _ isOpen _ _ _ ih =>
    intro parameter binding isBound
    have isKept := ih parameter binding isBound
    rw [get?_set, if_neg, isKept]
    rintro rfl
    cases isOpen.symm.trans isKept

theorem makes (parameter : NodeId) (binding : Binding)
    (isBound : deduced.get? parameter = some binding) :
    bindings.get? parameter = some binding ∨
      parameter ∈ places ∧
        ∃ type, type.parts ⊆ parts ∧ type.shape.isStripped = true ∧
        binding = .ofType parameter type := by
  induction deduces with
  | refl => exact .inl isBound
  | @bind _ _ type _ _ isPlace areParts isStripped ih =>
    rw [get?_set] at isBound
    split at isBound
    next isSame =>
      cases isBound
      subst isSame
      exact .inr ⟨isPlace, type, areParts, isStripped, rfl⟩
    next => exact ih isBound

theorem isEmpty_eq_false (isKept : bindings.isEmpty = false) : deduced.isEmpty = false := by
  cases deduces with
  | refl => exact isKept
  | bind => exact isEmpty_set _ _

end

end Deduces

/-- What a conversion may bind, and what it may have bound if it fails. -/
structure Effect (parts : List Symbol) (places tentative : List NodeId) (bindings : Bindings)
    (result : Bool × Bindings) : Prop where
  deduces : Deduces parts places bindings result.2
  fails : result.1 = false → Deduces parts tentative bindings result.2

namespace Effect

variable {tentative otherTentative : List NodeId} {result : Bool × Bindings}

theorem refl (verdict : Bool) : Effect parts places tentative bindings (verdict, bindings) :=
  ⟨.refl, fun _ => .refl⟩

theorem mono (effect : Effect parts places tentative bindings result)
    (areParts : parts ⊆ otherParts) : Effect otherParts places tentative bindings result :=
  ⟨effect.deduces.mono areParts (Subset.refl _),
    fun fails => (effect.fails fails).mono areParts (Subset.refl _)⟩

theorem andThen (first : Effect parts places tentative bindings (true, between))
    (second : Effect otherParts otherPlaces otherTentative between result) :
    Effect (parts ++ otherParts) (places ++ otherPlaces) (places ++ otherTentative) bindings
      result :=
  ⟨first.deduces.trans second.deduces, fun fails => first.deduces.trans (second.fails fails)⟩

theorem butThen (first : Effect parts places tentative bindings result) :
    Effect (parts ++ otherParts) (places ++ otherPlaces) (places ++ otherTentative) bindings
      result :=
  have deduces (others : List NodeId) : Deduces (parts ++ otherParts) (places ++ others) bindings
      result.2 :=
    first.deduces.mono (subset_append_left _ _) (subset_append_left _ _)
  ⟨deduces otherPlaces, fun _ => deduces otherTentative⟩

end Effect

end Bindings

namespace Symbol

theorem bindParameter_effect (isStripped : source.shape.isStripped = true) :
    Bindings.Effect source.parts [parameter] [] bindings
      (source.bindParameter parameter bindings) := by
  unfold bindParameter
  split
  next => split <;> exact .refl _
  next isUnbound =>
    exact ⟨.bind .refl isUnbound (mem_singleton.mpr rfl) (Subset.refl _) isStripped,
      fun fails => by cases fails⟩

end Symbol

namespace Bindings

/--
A conversion binds only parameters that its target leaves open, to parts of its source.

This holds of the bindings that a conversion leaves behind when it fails as well, and these
are only for parameters that come before the place where it is decided.
-/
theorem convert_effect :
    (∀ whole isVariable source target bindings,
        Effect source.parts target.deducible target.tentative bindings
          (convertBelow whole isVariable source target bindings)) ∧
      (∀ source isVariable shape target bindings,
          Effect shape.parts target.deducible target.tentative bindings
            (convert source isVariable shape target bindings)) ∧
      (∀ arguments others bindings,
          Effect (Argument.allParts arguments) (allDeducible others)
            (allTentative others) bindings
            (convertAll arguments others bindings)) ∧
        (∀ argument other bindings,
            Effect argument.parts other.deducible other.tentative bindings
              (Argument.convert argument other bindings)) ∧
        ∀ source target bindings,
          Effect (optionParts source) (optionDeducible target)
            (optionTentative target) bindings
            (convertOption source target bindings) := by
  apply convertBelow.mutual_induct_unfolding
  -- A symbol converts with what it stands for.
  case case2 =>
    intro _ _ _ base _ _ _ _ _ _ _ below
    exact below.mono fun _ isPart => by simp [isPart]
  case case4 =>
    intro _ _ _ base _ _ _ _ _ below
    exact below.mono fun _ isPart => by simp [isPart]
  case case5 =>
    intro _ _ _ base _ _ _ _ _ _ below
    exact below.mono fun _ isPart => by simp [isPart]
  case case6 =>
    intro _ _ shape origin modifier tags target bindings _ _ _ _ _ parameter isParameter
    let source : Symbol := ⟨shape, origin, modifier, tags⟩
    have isItself : source.strip = some source := by
      rw [strip] <;> simp_all [source]
    rw [target.deducible_eq, target.tentative_eq, isParameter]
    exact bindParameter_effect (isStripped_of_strip isItself)
  case case8 =>
    intro _ _ _ _ _ _ _ _ _ _ _ _ _ _ isType _ below
    rw [← deducible_of_strip isType, ← tentative_of_strip isType]
    exact below.mono fun _ isPart => by simp [isPart]
  -- A shape converts part by part.
  case case16 =>
    intro _ _ _ base _ _ _ below
    exact below
  case case17 =>
    intro _ _ _ _ target _ _ _ isTarget _ below
    rw [target.deducible_eq, target.tentative_eq, isTarget]
    exact below
  case case21 =>
    intro _ _ _ _ target _ _ _ isTarget _ converted keys values
    rw [target.deducible_eq, target.tentative_eq, isTarget]
    rw [converted] at keys
    exact keys.andThen values
  case case22 =>
    intro _ _ _ _ target _ _ _ isTarget _ converted keys
    rw [target.deducible_eq, target.tentative_eq, isTarget]
    rw [converted] at keys
    exact keys.butThen
  case case28 =>
    intro _ _ _ target _ _ _ isTarget _ _ below
    rw [target.deducible_eq, target.tentative_eq, isTarget]
    exact below
  case case32 =>
    intro _ _ _ target _ _ isTarget _ below
    rw [target.deducible_eq, target.tentative_eq, isTarget]
    exact below
  -- Arguments convert one by one, and the last one decides.
  case case36 =>
    intro _ _ _ _ isType below
    rw [deducible_of_type isType, tentative_of_type isType]
    exact below
  case case38 =>
    intro _ _ _ _ isType below
    rw [deducible_of_type isType, tentative_of_type isType]
    exact below
  case case42 =>
    intro _ _ _ below
    exact below
  case case44 =>
    intro _ rest _ others _ _ converted first later
    rw [converted] at first
    cases others with
    | nil =>
      refine ⟨first.deduces.trans later.deduces, fun fails => ?_⟩
      cases rest <;> cases fails
    | cons => exact first.andThen later
  case case45 =>
    intro _ _ _ others _ _ converted first
    rw [converted] at first
    cases others with
    | nil => simpa using first.mono (subset_append_left _ _)
    | cons => exact first.butThen
  all_goals
    intros
    exact .refl _

end Bindings

section

variable {verdict : Bool}

theorem Symbol.convert_deduces (converts : source.convert target bindings = (verdict, deduced)) :
    bindings.Deduces source.parts target.deducible deduced := by
  have deduces := (Bindings.convert_effect.1 source source.isMember source target bindings).deduces
  rwa [← convert, converts] at deduces

theorem Symbol.convertOption_deduces {source target : Option Symbol}
    (converts : convertOption source target bindings = (verdict, deduced)) :
    bindings.Deduces (optionParts source) (optionDeducible target) deduced := by
  have deduces := (Bindings.convert_effect.2.2.2.2 source target bindings).deduces
  rwa [converts] at deduces

theorem Argument.convert_deduces {other : Argument}
    (converts : argument.convert other bindings = (verdict, deduced)) :
    bindings.Deduces argument.parts other.deducible deduced := by
  have deduces := (Bindings.convert_effect.2.2.2.1 argument other bindings).deduces
  rwa [converts] at deduces

theorem Argument.convertAll_deduces
    (converts : convertAll arguments others bindings = (verdict, deduced)) :
    bindings.Deduces (allParts arguments) (allDeducible others) deduced := by
  have deduces := (Bindings.convert_effect.2.2.1 arguments others bindings).deduces
  rwa [converts] at deduces

end

end DScope
