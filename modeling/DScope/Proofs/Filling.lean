import DScope.Proofs.Coherence

namespace DScope

/-!
# Filling in open parameters

A template parameter that is bound to nothing is open. This module binds the open
parameters of a symbol to given types, at every depth, and shows that a concrete
symbol which is the same type as another stays so when the other is filled in.
-/

open Argument hiding type value

mutual

/-- The symbol with its open parameters bound to the types that they are given. -/
@[simp]
def Symbol.filledBy (types : NodeId → Option Symbol) : Symbol → Symbol
  | ⟨shape, origin, modifier, tags⟩ =>
    ⟨shape.filledBy types, origin, modifier, Tag.allFilledBy types tags⟩

/-- The shape with its open parameters bound. -/
@[simp]
def Shape.filledBy (types : NodeId → Option Symbol) : Shape → Shape
  | .primitive type => .primitive type
  | .pointer target => .pointer (Symbol.optionFilledBy types target)
  | .array element length => .array (Symbol.optionFilledBy types element) length
  | .associative key value =>
    .associative (Symbol.optionFilledBy types key) (Symbol.optionFilledBy types value)
  | .callable ⟨result, parameters, isFunction⟩ =>
    .callable ⟨Symbol.optionFilledBy types result, Symbol.allFilledBy types parameters,
      isFunction⟩
  | .aggregate ⟨kind, node, baseClass, interfaces, bound⟩ =>
    .aggregate ⟨kind, node, Symbol.optionFilledBy types baseClass,
      Symbol.allFilledBy types interfaces, bound.filledBy types⟩
  | .enumeration node base => .enumeration node (Symbol.optionFilledBy types base)
  | .aliased node base => .aliased node (Symbol.optionFilledBy types base)
  | .module node => .module node
  | .package path => .package path
  | .member ⟨definition, base, bound, constant⟩ =>
    .member ⟨definition.filledBy types, Symbol.optionFilledBy types base,
      bound.filledBy types, Value.optionFilledBy types constant⟩
  | .parameter binding => .parameter (binding.filledBy types)
  | .ambiguous candidates => .ambiguous (Symbol.allFilledBy types candidates)
  | .tuple items => .tuple (Argument.allFilledBy types items)

/-- The symbol, if there is one, with its open parameters bound. -/
@[simp]
def Symbol.optionFilledBy (types : NodeId → Option Symbol) : Option Symbol → Option Symbol
  | none => none
  | some symbol => some (symbol.filledBy types)

/-- The symbols with their open parameters bound. -/
@[simp]
def Symbol.allFilledBy (types : NodeId → Option Symbol) : List Symbol → List Symbol
  | [] => []
  | symbol :: rest => symbol.filledBy types :: Symbol.allFilledBy types rest

/-- The definition with its open parameters bound. -/
@[simp]
def Definition.filledBy (types : NodeId → Option Symbol) : Definition → Definition
  | .node place => .node place
  | .builtin ⟨name, description, requiresInstance, none⟩ =>
    .builtin ⟨name, description, requiresInstance, none⟩
  | .builtin ⟨name, description, requiresInstance, some parameters⟩ =>
    .builtin ⟨name, description, requiresInstance,
      some (PropertyParameter.allFilledBy types parameters)⟩

/-- The parameters of a property with their open parameters bound. -/
@[simp]
def PropertyParameter.allFilledBy (types : NodeId → Option Symbol) :
    List PropertyParameter → List PropertyParameter
  | [] => []
  | ⟨name, type, isLazy⟩ :: rest =>
    ⟨name, Symbol.optionFilledBy types type, isLazy⟩ ::
      PropertyParameter.allFilledBy types rest

/-- The template parameter, bound if it is open and given a type. -/
@[simp]
def Binding.filledBy (types : NodeId → Option Symbol) : Binding → Binding
  | ⟨parameter, none, none⟩ => ⟨parameter, types parameter, none⟩
  | ⟨parameter, base, value⟩ =>
    ⟨parameter, Symbol.optionFilledBy types base, Value.optionFilledBy types value⟩

/-- The bindings with the open parameters in them bound. -/
@[simp]
def Bindings.filledBy (types : NodeId → Option Symbol) : Bindings → Bindings
  | ⟨slots⟩ => ⟨Slot.allFilledBy types slots⟩

/-- The slots with the open parameters in them bound. -/
@[simp]
def Slot.allFilledBy (types : NodeId → Option Symbol) : List Slot → List Slot
  | [] => []
  | .empty parameter :: rest => .empty parameter :: Slot.allFilledBy types rest
  | .filled binding :: rest =>
    .filled (binding.filledBy types) :: Slot.allFilledBy types rest

/-- The constant with its open parameters bound. -/
@[simp]
def Value.filledBy (types : NodeId → Option Symbol) : Value → Value
  | .array items => .array (Value.allFilledBy types items)
  | .type symbol => .type (symbol.filledBy types)
  | value => value

/-- The constant, if there is one, with its open parameters bound. -/
@[simp]
def Value.optionFilledBy (types : NodeId → Option Symbol) : Option Value → Option Value
  | none => none
  | some value => some (value.filledBy types)

/-- The constants with their open parameters bound. -/
@[simp]
def Value.allFilledBy (types : NodeId → Option Symbol) : List Value → List Value
  | [] => []
  | value :: rest => value.filledBy types :: Value.allFilledBy types rest

/-- The template argument with its open parameters bound. -/
@[simp]
def Argument.filledBy (types : NodeId → Option Symbol) : Argument → Argument
  | .type symbol => .type (symbol.filledBy types)
  | .value constant => .value (constant.filledBy types)
  | .unresolved text => .unresolved text

/-- The template arguments with their open parameters bound. -/
@[simp]
def Argument.allFilledBy (types : NodeId → Option Symbol) : List Argument → List Argument
  | [] => []
  | argument :: rest => argument.filledBy types :: Argument.allFilledBy types rest

/-- The tags with the open parameters in them bound. -/
@[simp]
def Tag.allFilledBy (types : NodeId → Option Symbol) : List Tag → List Tag
  | [] => []
  | .receiver symbol :: rest =>
    .receiver (symbol.filledBy types) :: Tag.allFilledBy types rest
  | tag :: rest => tag :: Tag.allFilledBy types rest

end

/-- The type that a parameter is bound to. -/
def Bindings.type? (bindings : Bindings) (parameter : NodeId) : Option Symbol :=
  (bindings.get? parameter).bind (·.base)

section Filling

variable {types : NodeId → Option Symbol} {shape : Shape}

@[simp]
theorem Symbol.shape_filledBy (symbol : Symbol) :
    (symbol.filledBy types).shape = symbol.shape.filledBy types := by
  cases symbol
  rw [filledBy]

theorem Shape.isParameter_filledBy (shape : Shape) :
    (shape.filledBy types).isParameter = shape.isParameter := by
  cases shape with
  | callable written | aggregate written | member written => cases written; rfl
  | _ => rfl

theorem Shape.isEnumeration_filledBy (shape : Shape) :
    (shape.filledBy types).isEnumeration = shape.isEnumeration := by
  cases shape with
  | callable written | aggregate written | member written => cases written; rfl
  | _ => rfl

theorem Symbol.isCharacter_filledBy (symbol : Symbol) :
    (symbol.filledBy types).isCharacter = symbol.isCharacter := by
  obtain ⟨shape, origin, modifier, tags⟩ := symbol
  cases shape with
  | callable written | aggregate written | member written => cases written; rfl
  | _ => rfl

theorem Shape.isStripped_filledBy
    (isStripped : shape.isStripped = true) (isBound : shape.unbound? = none) :
    (shape.filledBy types).isStripped = true := by
  cases shape with
  | callable written | aggregate written => cases written; rfl
  | member found => cases isStripped
  | aliased _ _ => cases isStripped
  | parameter binding =>
    obtain ⟨parameter, base, value⟩ := binding
    cases base with
    | none =>
      cases value with
      | none => cases isBound
      | some value => rfl
    | some base => cases isStripped
  | _ => rfl

theorem Shape.unbound?_filledBy (isBound : shape.unbound? = none) :
    (shape.filledBy types).unbound? = none := by
  cases shape with
  | callable written | aggregate written | member written => cases written; rfl
  | parameter binding =>
    obtain ⟨parameter, base, value⟩ := binding
    cases base with
    | some base => rfl
    | none =>
      cases value with
      | none => cases isBound
      | some value => rfl
  | _ => rfl

theorem Symbol.strip_filledBy (symbol : Symbol) :
    (symbol.filledBy types).strip = symbol.strip.bind fun type => (type.filledBy types).strip := by
  fun_induction strip symbol <;> simp_all [strip]

@[simp]
theorem Definition.outline_filledBy (definition : Definition) :
    (definition.filledBy types).outline = definition.outline := by
  fun_cases filledBy types definition <;> rfl

@[simp]
theorem Argument.type?_filledBy (argument : Argument) :
    (argument.filledBy types).type? = argument.type?.map (Symbol.filledBy types) := by
  cases argument with
  | value constant => cases constant <;> simp [type?]
  | _ => simp [type?]

@[simp]
theorem Argument.length_allFilledBy (arguments : List Argument) :
    (allFilledBy types arguments).length = arguments.length := by
  induction arguments <;> simp_all

@[simp]
theorem Value.isFinal_filledBy (value : Value) :
    (value.filledBy types).isFinal = value.isFinal := by
  cases value <;> simp [isFinal]

/-- A symbol that is no parameter stays the same as a filled in symbol if its shape does. -/
theorem Symbol.sameType_filledBy_of_same
    {symbol other : Symbol} (isBare : symbol.shape.isParameter = false)
    (staysSame : ∀ shape : Shape, symbol.shape.same shape = true → symbol.shape.same (shape.filledBy types) = true)
    (isSame : symbol.sameType other = true) : symbol.sameType (other.filledBy types) = true := by
  have isOther (parameter : NodeId) :
      ∀ binding, symbol.shape = .parameter binding → binding.parameter ≠ parameter := by
    intro binding isParameter
    rw [isParameter] at isBare
    cases isBare
  cases isShape : other.shape with
  | parameter binding =>
    obtain ⟨parameter, base, value⟩ := binding
    cases base with
    | none =>
      rw [sameType_unbound isShape isBare] at isSame
      cases isSame
    | some base =>
      have isFilled :
          (other.filledBy types).shape =
            .parameter ⟨parameter, some (base.filledBy types),
              Value.optionFilledBy types value⟩ := by
        simp [isShape]
      rw [sameType_bound isShape (isOther parameter), Bool.and_eq_true, Bool.not_eq_true'] at isSame
      obtain ⟨baseIsBare, isSame⟩ := isSame
      rw [sameType_of_bare isBare baseIsBare] at isSame
      have filledIsBare : (base.filledBy types).shape.isParameter = false := by
        rw [shape_filledBy, Shape.isParameter_filledBy, baseIsBare]
      rw [sameType_bound isFilled (isOther parameter), filledIsBare,
        sameType_of_bare isBare filledIsBare, shape_filledBy]
      exact staysSame base.shape isSame
  | _ =>
    have otherIsBare : other.shape.isParameter = false := by rw [isShape]; rfl
    have filledIsBare : (other.filledBy types).shape.isParameter = false := by
      rw [shape_filledBy, Shape.isParameter_filledBy, otherIsBare]
    rw [sameType_of_bare isBare otherIsBare] at isSame
    rw [sameType_of_bare isBare filledIsBare, shape_filledBy]
    exact staysSame other.shape isSame

mutual

theorem Symbol.sameType_filledBy
    (symbol : Symbol) {other : Symbol} (areConcrete : AreConcrete symbol.parts)
    (isSame : symbol.sameType other = true) : symbol.sameType (other.filledBy types) = true := by
  have isBare := Symbol.IsConcrete.isBare areConcrete
  have shapeIsConcrete := areConcrete.mono symbol.shape_parts_subset
  obtain ⟨shape, origin, modifier, tags⟩ := symbol
  exact Symbol.sameType_filledBy_of_same isBare
    (fun _ => Shape.same_filledBy shape shapeIsConcrete) isSame
termination_by structural symbol

theorem Shape.same_filledBy
    (shape : Shape) {other : Shape} (areConcrete : AreConcrete shape.parts)
    (isSame : shape.same other = true) : shape.same (other.filledBy types) = true := by
  cases shape with
  | primitive type =>
    obtain rfl := Shape.primitive_same.mp isSame
    exact isSame
  | pointer target =>
    obtain ⟨inner, rfl, targetIsSame⟩ := Shape.pointer_same.mp isSame
    rw [Shape.filledBy]
    exact Shape.pointer_same.mpr
      ⟨_, rfl, Symbol.optionSameType_filledBy target areConcrete targetIsSame⟩
  | array element length =>
    obtain ⟨inner, size, rfl, elementIsSame⟩ := Shape.array_same.mp isSame
    rw [Shape.filledBy]
    exact Shape.array_same.mpr
      ⟨_, _, rfl, Symbol.optionSameType_filledBy element areConcrete elementIsSame⟩
  | associative key value =>
    obtain ⟨otherKey, otherValue, rfl, keyIsSame, valueIsSame⟩ := Shape.associative_same.mp isSame
    rw [Shape.filledBy]
    refine Shape.associative_same.mpr ⟨_, _, rfl,
      Symbol.optionSameType_filledBy key (areConcrete.mono ?_) keyIsSame,
      Symbol.optionSameType_filledBy value (areConcrete.mono ?_) valueIsSame⟩
    all_goals simp
  | callable written =>
    obtain ⟨result, parameters, isFunction⟩ := written
    obtain ⟨⟨otherResult, otherParameters, otherIsFunction⟩, rfl, isKind, resultIsSame,
      parametersAreSame⟩ := Shape.callable_same.mp isSame
    rw [Shape.filledBy]
    refine Shape.callable_same.mpr ⟨_, rfl, isKind,
      Symbol.optionSameType_filledBy result (areConcrete.mono ?_) resultIsSame,
      Symbol.allSameType_filledBy parameters (areConcrete.mono ?_) parametersAreSame⟩
    all_goals simp
  | aggregate declared =>
    obtain ⟨⟨kind, node, baseClass, interfaces, bound⟩, rfl, isNode⟩ :=
      Shape.aggregate_same.mp isSame
    exact Shape.aggregate_same.mpr ⟨_, rfl, isNode⟩
  | enumeration node base =>
    obtain ⟨inner, rfl⟩ := Shape.enumeration_same.mp isSame
    rw [Shape.filledBy]
    exact Shape.enumeration_same.mpr ⟨_, rfl⟩
  | aliased node base =>
    obtain ⟨inner, rfl⟩ := Shape.aliased_same.mp isSame
    rw [Shape.filledBy]
    exact Shape.aliased_same.mpr ⟨_, rfl⟩
  | member found =>
    obtain ⟨⟨definition, base, bound, constant⟩, rfl, isDefinition⟩ := Shape.member_same.mp isSame
    exact Shape.member_same.mpr ⟨_, rfl, by simpa using isDefinition⟩
  | tuple items =>
    obtain ⟨others, rfl, agree⟩ := Shape.tuple_same.mp isSame
    exact Shape.tuple_same.mpr ⟨_, rfl, Argument.allAgree_filledBy items areConcrete agree⟩
  | module node => cases other <;> simp_all [Shape.same]
  | package path => cases other <;> simp_all [Shape.same]
  | parameter binding => simp at isSame
  | ambiguous candidates => simp [Shape.same] at isSame
termination_by structural shape

theorem Symbol.optionSameType_filledBy
    (symbol : Option Symbol) {other : Option Symbol}
    (areConcrete : AreConcrete (Symbol.optionParts symbol))
    (isSame : Symbol.optionSameType symbol other = true) :
    Symbol.optionSameType symbol (Symbol.optionFilledBy types other) = true := by
  cases symbol <;> cases other
  case none.none => simp [Symbol.optionSameType]
  case some.some symbol other =>
    rw [Symbol.optionSameType] at isSame
    rw [Symbol.optionFilledBy, Symbol.optionSameType]
    exact Symbol.sameType_filledBy symbol areConcrete isSame
  all_goals simp [Symbol.optionSameType] at isSame
termination_by structural symbol

theorem Symbol.allSameType_filledBy
    (symbols : List Symbol) {others : List Symbol}
    (areConcrete : AreConcrete (Symbol.allParts symbols))
    (areSame : Symbol.allSameType symbols others = true) :
    Symbol.allSameType symbols (Symbol.allFilledBy types others) = true := by
  cases symbols <;> cases others
  case nil.nil => simp [Symbol.allSameType]
  case cons.cons symbol rest other others =>
    rw [Symbol.allSameType, Bool.and_eq_true] at areSame
    rw [Symbol.allFilledBy, Symbol.allSameType, Bool.and_eq_true]
    refine ⟨Symbol.sameType_filledBy symbol (areConcrete.mono ?_) areSame.1,
      Symbol.allSameType_filledBy rest (areConcrete.mono ?_) areSame.2⟩
    all_goals simp
  all_goals simp [Symbol.allSameType] at areSame
termination_by structural symbols

theorem Argument.agrees_filledBy
    (argument : Argument) {other : Argument} (areConcrete : AreConcrete argument.parts)
    (agree : argument.agrees other = true) : argument.agrees (other.filledBy types) = true := by
  cases argument with
  | unresolved text => simp [agrees] at agree
  | type symbol =>
    cases other with
    | unresolved text => simp [agrees] at agree
    | type other =>
      rw [agrees] at agree
      rw [filledBy, agrees]
      exact Symbol.sameType_filledBy symbol areConcrete agree
    | value constant =>
      cases constant with
      | type other =>
        rw [agrees] at agree
        rw [filledBy, Value.filledBy, agrees]
        exact Symbol.sameType_filledBy symbol areConcrete agree
      | _ => simp_all [agrees, Value.isFinal]
  | value constant =>
    cases other with
    | unresolved text => simp [agrees] at agree
    | type other =>
      cases constant with
      | type symbol =>
        rw [agrees] at agree
        rw [filledBy, agrees]
        exact Symbol.sameType_filledBy symbol areConcrete agree
      | _ => simp_all [agrees]
    | value other =>
      simp only [agrees, Bool.or_eq_true] at agree
      simp only [filledBy, agrees, Value.isFinal_filledBy, Bool.or_eq_true]
      exact agree.imp_right (Value.same_filledBy constant areConcrete)
termination_by structural argument

theorem Argument.allAgree_filledBy
    (arguments : List Argument) {others : List Argument}
    (areConcrete : AreConcrete (allParts arguments))
    (agree : allAgree arguments others = true) :
    allAgree arguments (allFilledBy types others) = true := by
  cases arguments <;> cases others
  case nil.nil => simp [allAgree]
  case cons.cons argument rest other others =>
    rw [allAgree, Bool.and_eq_true] at agree
    rw [allFilledBy, allAgree, Bool.and_eq_true]
    refine ⟨Argument.agrees_filledBy argument (areConcrete.mono ?_) agree.1,
      Argument.allAgree_filledBy rest (areConcrete.mono ?_) agree.2⟩
    all_goals simp
  all_goals simp [allAgree] at agree
termination_by structural arguments

theorem Value.same_filledBy
    (value : Value) {other : Value} (areConcrete : AreConcrete value.parts)
    (isSame : value.same other = true) : value.same (other.filledBy types) = true := by
  cases other with
  | array others =>
    cases value with
    | array items =>
      rw [Value.same] at isSame
      rw [Value.filledBy, Value.same]
      exact Value.allSame_filledBy items areConcrete isSame
    | _ => simp [Value.same, Value.sameNumber, Value.integer?, Value.float?] at isSame
  | type other =>
    cases value with
    | type symbol =>
      rw [Value.same] at isSame
      rw [Value.filledBy, Value.same]
      exact Symbol.sameType_filledBy symbol areConcrete isSame
    | _ => simp [Value.same, Value.sameNumber, Value.integer?, Value.float?] at isSame
  | _ =>
    exact isSame
termination_by structural value

theorem Value.allSame_filledBy
    (values : List Value) {others : List Value}
    (areConcrete : AreConcrete (Value.allParts values))
    (areSame : Value.allSame values others = true) :
    Value.allSame values (Value.allFilledBy types others) = true := by
  cases values <;> cases others
  case nil.nil => simp [Value.allSame]
  case cons.cons value rest other others =>
    rw [Value.allSame, Bool.and_eq_true] at areSame
    rw [Value.allFilledBy, Value.allSame, Bool.and_eq_true]
    refine ⟨Value.same_filledBy value (areConcrete.mono ?_) areSame.1,
      Value.allSame_filledBy rest (areConcrete.mono ?_) areSame.2⟩
    all_goals simp
  all_goals simp [Value.allSame] at areSame
termination_by structural values

end

end Filling

end DScope
