import DScope.Proofs.Conversion

namespace DScope

variable {root source target type : Symbol} {argument other : Argument} {holds : Bindings → Prop}

/-!
# Concrete and coherent symbols

A concrete symbol leaves nothing open and holds no template parameter. Sameness
of types disregards array lengths and what members and aliases stand for, which
conversion does not. In a coherent symbol, parts of the same type agree in these
respects too, and then each of them converts to the other. So does every symbol to
itself, if its open parameters can be bound to themselves.
-/

open Shape hiding parts
open List Argument

/-! ## Concrete symbols -/

/-- Whether nothing is left open in the shape and it is no template parameter. -/
def Shape.isConcrete (shape : Shape) : Bool :=
  shape.isDefinite && !shape.isParameter

def AreConcrete (symbols : List Symbol) : Prop :=
  ∀ symbol ∈ symbols, symbol.shape.isConcrete = true

/-- A symbol in which nothing is left open and that holds no template parameter. -/
def Symbol.IsConcrete (symbol : Symbol) : Prop :=
  AreConcrete symbol.parts

instance (symbol : Symbol) : Decidable symbol.IsConcrete :=
  inferInstanceAs (Decidable (∀ part ∈ symbol.parts, part.shape.isConcrete = true))

theorem AreConcrete.mono {symbols others : List Symbol} (areConcrete : AreConcrete symbols)
    (areSymbols : others ⊆ symbols) : AreConcrete others :=
  fun symbol isSymbol => areConcrete symbol (areSymbols isSymbol)

theorem Shape.isBare_of_isConcrete {shape : Shape} (isConcrete : shape.isConcrete = true) :
    shape.isParameter = false := by
  simp only [Shape.isConcrete, Bool.and_eq_true, Bool.not_eq_true'] at isConcrete
  exact isConcrete.2

theorem Symbol.self_mem_parts (symbol : Symbol) : symbol ∈ symbol.parts := by
  cases symbol
  simp

theorem Symbol.shape_parts_subset (symbol : Symbol) : symbol.shape.parts ⊆ symbol.parts := by
  cases symbol
  intro part isPart
  simp [isPart]

theorem Symbol.sameType_self (isComparable : source.IsComparable) : source.sameType source = true :=
  (sameType_iff source source isComparable isComparable).mpr rfl

namespace Symbol.IsConcrete

variable {symbol : Symbol}

theorem isBare (isConcrete : symbol.IsConcrete) : symbol.shape.isParameter = false :=
  isBare_of_isConcrete (isConcrete symbol symbol.self_mem_parts)

theorem isComparable (isConcrete : symbol.IsConcrete) : symbol.IsComparable := by
  intro part isPart
  have isConcrete := isConcrete part isPart
  have isBare := isBare_of_isConcrete isConcrete
  unfold Shape.isConcrete at isConcrete
  unfold Shape.isComparable
  cases isShape : part.shape with
  | parameter binding =>
    rw [isShape] at isBare
    cases isBare
  | _ => simp_all [isBoundToParameter]

end Symbol.IsConcrete

theorem Shape.isStripped_of_same {shape other : Shape} (isSame : shape.same other = true)
    (isStripped : shape.isStripped = true) : other.isStripped = true := by
  rw [same.eq_def] at isSame
  split at isSame <;> first | rfl | cases isSame | cases isStripped

/-! ## Coherent symbols -/

/-- Whether shapes of the same type agree also in array lengths and in what they stand for. -/
def Shape.agreesBelow : Shape → Shape → Bool
  | .array _ length, .array _ other => length == other
  | .member found, .member other => Symbol.optionSameType found.base other.base
  | .aliased _ base, .aliased _ other => Symbol.optionSameType base other
  | _, _ => true

/-- A symbol whose parts, where they are the same type, agree also below. -/
def Symbol.IsCoherent (symbol : Symbol) : Prop :=
  ∀ part ∈ symbol.parts, ∀ other ∈ symbol.parts,
    part.sameType other = true → part.shape.agreesBelow other.shape = true

instance (symbol : Symbol) : Decidable symbol.IsCoherent :=
  inferInstanceAs (Decidable (∀ part ∈ symbol.parts, ∀ other ∈ symbol.parts,
    part.sameType other = true → part.shape.agreesBelow other.shape = true))

section

variable (isConcrete : root.IsConcrete) (isCoherent : root.IsCoherent)
include isConcrete isCoherent

theorem Symbol.IsCoherent.agree
    (areParts : source.parts ⊆ root.parts) (areOthers : target.parts ⊆ root.parts)
    (isSameType : source.sameType target = true) :
    source.shape.same target.shape = true ∧ source.shape.agreesBelow target.shape = true := by
  rw [← sameType_of_bare (IsConcrete.isBare (isConcrete.mono areParts))
    (IsConcrete.isBare (isConcrete.mono areOthers))]
  exact ⟨isSameType, isCoherent source (areParts source.self_mem_parts) target
    (areOthers target.self_mem_parts) isSameType⟩

theorem Symbol.IsCoherent.strip (areParts : source.parts ⊆ root.parts)
    (areOthers : target.parts ⊆ root.parts) (isSameType : source.sameType target = true)
    (isType : source.strip = some type) :
    ∃ other, target.strip = some other ∧ type.sameType other = true := by
  have isStripped := isStripped_of_strip isType
  fun_induction Symbol.strip source generalizing target with
  | case1 | case3 => cases isType
  | case2 definition base bindings constant origin modifier tags ih =>
    obtain ⟨isSame, agrees⟩ := agree isConcrete isCoherent areParts areOthers isSameType
    obtain ⟨⟨otherDefinition, otherBase, otherBindings, otherConstant⟩, isTarget, -⟩ :=
      member_same.mp isSame
    cases target
    cases isTarget
    cases otherBase with
    | none => simp [agreesBelow, optionSameType] at agrees
    | some inner =>
      rw [Symbol.strip]
      refine ih (Subset.trans ?_ areParts) (Subset.trans ?_ areOthers)
        (by simpa [agreesBelow, optionSameType] using agrees) isType
      all_goals intro part isPart; simp [isPart]
  | case4 node base origin modifier tags ih =>
    obtain ⟨isSame, agrees⟩ := agree isConcrete isCoherent areParts areOthers isSameType
    obtain ⟨otherBase, isTarget⟩ := aliased_same.mp isSame
    cases target
    cases isTarget
    cases otherBase with
    | none => simp [agreesBelow, optionSameType] at agrees
    | some inner =>
      rw [Symbol.strip]
      refine ih (Subset.trans ?_ areParts) (Subset.trans ?_ areOthers)
        (by simpa [agreesBelow, optionSameType] using agrees) isType
      all_goals simp
  | case5 => cases IsConcrete.isBare (isConcrete.mono areParts)
  | case6 symbol =>
    cases isType
    have isSame := (agree isConcrete isCoherent areParts areOthers isSameType).1
    exact ⟨target, strip_eq_self (isStripped_of_same isSame isStripped), isSameType⟩

end

/-! ## Symbols that meet -/

/-- A conversion that succeeds and keeps what holds of the bindings. -/
def Succeeds (holds : Bindings → Prop) (conversion : Bindings → Bool × Bindings) : Prop :=
  ∀ bindings, holds bindings → ∃ deduced, conversion bindings = (true, deduced) ∧ holds deduced

namespace Succeeds

variable {conversion first second : Bindings → Bool × Bindings}

theorem of_eq (converts : ∀ bindings, conversion bindings = (true, bindings)) :
    Succeeds holds conversion :=
  fun bindings isHeld => ⟨bindings, converts bindings, isHeld⟩

theorem eq {bindings : Bindings} (succeeds : Succeeds (· = bindings) conversion) :
    conversion bindings = (true, bindings) := by
  obtain ⟨deduced, converts, rfl⟩ := succeeds bindings rfl
  exact converts

theorem imp (succeeds : Succeeds holds first)
    (follows : ∀ {bindings deduced}, first bindings = (true, deduced) →
      conversion bindings = (true, deduced)) :
    Succeeds holds conversion := by
  intro bindings isHeld
  obtain ⟨deduced, converts, isHeld⟩ := succeeds bindings isHeld
  exact ⟨deduced, follows converts, isHeld⟩

theorem andThen (succeeds : Succeeds holds first) (thenSucceeds : Succeeds holds second)
    (follows : ∀ {bindings between deduced}, first bindings = (true, between) →
      second between = (true, deduced) → conversion bindings = (true, deduced)) :
    Succeeds holds conversion := by
  intro bindings isHeld
  obtain ⟨between, converts, isHeld⟩ := succeeds bindings isHeld
  obtain ⟨deduced, thenConverts, isHeld⟩ := thenSucceeds between isHeld
  exact ⟨deduced, follows converts thenConverts, isHeld⟩

end Succeeds

/-- Comparable symbols of which each open parameter can be bound to itself. -/
def AreSettled (holds : Bindings → Prop) (symbols : List Symbol) : Prop :=
  ∀ symbol ∈ symbols, symbol.shape.isComparable = true ∧
    ∀ parameter, symbol.shape.unbound? = some parameter →
      Succeeds holds (symbol.bindParameter parameter)

/-- Items that agree and are equal and settled, or both found in a concrete coherent symbol. -/
structure Meets
    {α : Type}
    (parts : α → List Symbol)
    (agrees : α → α → Bool)
    (holds : Bindings → Prop)
    (root : Symbol)
    (item other : α) : Prop where
  agree : agrees item other = true
  areKin :
    item = other ∧ AreSettled holds (parts item) ∨
      root.IsConcrete ∧ root.IsCoherent ∧ parts item ⊆ root.parts ∧ parts other ⊆ root.parts

theorem Meets.inner
    {α β : Type} {parts : α → List Symbol} {innerParts : β → List Symbol} {agrees : α → α → Bool}
    {innerAgrees : β → β → Bool} {item other : α} {inner otherInner : β}
    (meets : Meets parts agrees holds root item other) (agree : innerAgrees inner otherInner = true)
    (areParts : innerParts inner ⊆ parts item) (areOthers : innerParts otherInner ⊆ parts other)
    (areSame : item = other → inner = otherInner) :
    Meets innerParts innerAgrees holds root inner otherInner := by
  refine ⟨agree, ?_⟩
  rcases meets.areKin with ⟨isSame, areSettled⟩ | ⟨isConcrete, isCoherent, areRoot, othersAreRoot⟩
  · exact .inl ⟨areSame isSame, fun part isPart => areSettled part (areParts isPart)⟩
  · exact .inr ⟨isConcrete, isCoherent, Subset.trans areParts areRoot,
      Subset.trans areOthers othersAreRoot⟩

abbrev Symbol.Meets (holds : Bindings → Prop) (root source target : Symbol) : Prop :=
  DScope.Meets Symbol.parts Symbol.sameType holds root source target

namespace Symbol.Meets

variable {shape : Shape} (meets : Meets holds root source target)
include meets

theorem otherIsBare (isBare : source.shape.isParameter = false) :
    target.shape.isParameter = false := by
  rcases meets.areKin with ⟨rfl, -⟩ | ⟨isConcrete, -, -, areOthers⟩
  · exact isBare
  · exact IsConcrete.isBare (isConcrete.mono areOthers)

theorem same (isShape : source.shape = shape) (isBare : shape.isParameter = false) :
    shape.same target.shape = true := by
  subst isShape
  rw [← sameType_of_bare isBare (meets.otherIsBare isBare)]
  exact meets.agree

theorem otherIsStripped (isStripped : source.shape.isStripped = true) :
    target.shape.isStripped = true := by
  rcases meets.areKin with ⟨rfl, -⟩ | ⟨isConcrete, -, areParts, -⟩
  · exact isStripped
  · have isBare := IsConcrete.isBare (isConcrete.mono areParts)
    exact isStripped_of_same (meets.same rfl isBare) isStripped

theorem innerShape
    {β : Type} {innerParts : β → List Symbol} {innerAgrees : β → β → Bool} {inner otherInner : β}
    {other : Shape} (isShape : source.shape = shape) (isOther : target.shape = other)
    (agree : innerAgrees inner otherInner = true) (areParts : innerParts inner ⊆ shape.parts)
    (areOthers : innerParts otherInner ⊆ other.parts)
    (areSame : shape = other → inner = otherInner) :
    DScope.Meets innerParts innerAgrees holds root inner otherInner := by
  subst isShape isOther
  exact meets.inner agree (Subset.trans areParts source.shape_parts_subset)
    (Subset.trans areOthers target.shape_parts_subset)
    fun isSame => areSame (congrArg Symbol.shape isSame)

theorem array
    {element : Option Symbol} {length : Option Nat}
    (isShape : source.shape = .array element length) :
    ∃ inner, target.shape = .array inner length ∧
      DScope.Meets Symbol.optionParts Symbol.optionSameType holds root element inner := by
  obtain ⟨inner, size, isTarget, agree⟩ := array_same.mp (meets.same isShape rfl)
  have isLength : length = size := by
    rcases meets.areKin with ⟨rfl, -⟩ | ⟨isConcrete, isCoherent, areParts, areOthers⟩
    · rw [isTarget] at isShape
      exact (array.inj isShape).2.symm
    · have agrees := (IsCoherent.agree isConcrete isCoherent areParts areOthers meets.agree).2
      simpa [isShape, isTarget, agreesBelow] using agrees
  subst isLength
  exact ⟨inner, isTarget,
    meets.innerShape isShape isTarget agree (by simp) (by simp) (by simp +contextual)⟩

theorem strip (isType : source.strip = some type) :
    ∃ other, target.strip = some other ∧ Meets holds root type other := by
  have areBelow := parts_subset_of_strip isType
  rcases meets.areKin with ⟨rfl, areSettled⟩ | ⟨isConcrete, isCoherent, areParts, areOthers⟩
  · have isSettled : AreSettled holds type.parts :=
      fun part isPart => areSettled part (areBelow isPart)
    exact ⟨type, isType, sameType_self fun part isPart => (isSettled part isPart).1,
      .inl ⟨rfl, isSettled⟩⟩
  · obtain ⟨other, isOther, agree⟩ :=
      IsCoherent.strip isConcrete isCoherent areParts areOthers meets.agree isType
    exact ⟨other, isOther, agree, .inr ⟨isConcrete, isCoherent, Subset.trans areBelow areParts,
      Subset.trans (parts_subset_of_strip isOther) areOthers⟩⟩

end Symbol.Meets

/-! ## Conversion of symbols that meet -/

theorem BasicType.convertsTo_self (type : BasicType) : type.convertsTo type = true := by
  simp [convertsTo]

theorem Symbol.derivesFrom_self
    {symbol : Symbol} {declared : Aggregate} (isShape : symbol.shape = .aggregate declared) :
    symbol.derivesFrom declared.node = true := by
  cases symbol
  cases declared
  cases isShape
  simp [derivesFrom]

theorem Shape.unbound?_of_isBare {shape : Shape} (isBare : shape.isParameter = false) :
    shape.unbound? = none :=
  unbound?_eq_none fun _ isParameter => by rw [isParameter] at isBare; cases isBare

theorem Symbol.convertBelow_succeeds_of_isStripped
    {whole : Symbol} {isVariable : Bool} (isStripped : source.shape.isStripped = true)
    (meets :
      ∀ type, source.strip = some type →
        ∃ other, target.strip = some other ∧ Meets holds root type other)
    (converts : ∀ other, Meets holds root source other →
      Succeeds holds (Shape.convert source isVariable source.shape other)) :
    Succeeds holds (convertBelow whole isVariable source target) := by
  obtain ⟨other, isOther, meetsOther⟩ := meets source (strip_eq_self isStripped)
  cases isUnbound : target.shape.unbound? with
  | none =>
    exact (converts other meetsOther).imp fun converts =>
      (convertBelow_of_isStripped isStripped).mpr (.inr ⟨isUnbound, other, isOther, converts⟩)
  | some parameter =>
    -- An open parameter stands for itself, so it meets its own symbol here.
    have isOpen : target.shape.isStripped = true := by rw [eq_of_unbound? isUnbound]; rfl
    obtain rfl : target = other := Option.some.inj ((strip_eq_self isOpen).symm.trans isOther)
    rcases meetsOther.areKin with ⟨rfl, areSettled⟩ | ⟨isConcrete, -, -, areOthers⟩
    · exact ((areSettled source source.self_mem_parts).2 parameter isUnbound).imp fun binds =>
        (convertBelow_of_isStripped isStripped).mpr (.inl ⟨parameter, isUnbound, binds⟩)
    · rw [unbound?_of_isBare (IsConcrete.isBare (isConcrete.mono areOthers))] at isUnbound
      cases isUnbound

theorem Argument.length_eq_of_allAgree
    {arguments others : List Argument} (agree : allAgree arguments others = true) :
    arguments.length = others.length := by
  induction arguments generalizing others with
  | nil => cases others <;> simp_all [allAgree]
  | cons argument rest ih =>
    cases others with
    | nil => simp [allAgree] at agree
    | cons other others =>
      rw [allAgree, Bool.and_eq_true] at agree
      simp [ih agree.2]

theorem Argument.agrees_of_type
    (isSource : argument.type? = some source) (isTarget : other.type? = some target) :
    argument.agrees other = source.sameType target := by
  unfold type? at isSource isTarget
  split at isSource <;> split at isTarget <;> cases isSource <;> cases isTarget <;>
    simp [agrees, Value.isFinal, Value.same]

theorem Argument.parts_of_type (isType : argument.type? = some type) :
    argument.parts = type.parts := by
  unfold type? at isType
  split at isType <;> cases isType <;> simp

theorem Symbol.Meets.ofSome
    (meets : DScope.Meets optionParts optionSameType holds root (some source) (some target)) :
    Meets holds root source target := by
  have agree := meets.agree
  rw [optionSameType] at agree
  exact meets.inner agree (Subset.refl _) (Subset.refl _) Option.some.inj

theorem Symbol.Meets.ofType
    (meets : DScope.Meets Argument.parts Argument.agrees holds root argument other)
    (isSource : argument.type? = some source) (isTarget : other.type? = some target) :
    Meets holds root source target := by
  refine meets.inner ?_ ?_ ?_ ?_
  · rw [← agrees_of_type isSource isTarget]
    exact meets.agree
  · rw [parts_of_type isSource]
    exact Subset.refl _
  · rw [parts_of_type isTarget]
    exact Subset.refl _
  · rintro rfl
    exact Option.some.inj (isSource.symm.trans isTarget)

mutual

theorem Symbol.convertBelow_succeeds
    (source : Symbol) {root whole target : Symbol} {isVariable : Bool}
    (isNothing : source.strip = none → whole.sameType target = true)
    (meets :
      ∀ type, source.strip = some type →
        ∃ other, target.strip = some other ∧ Symbol.Meets holds root type other) :
    Succeeds holds (Symbol.convertBelow whole isVariable source target) := by
  obtain ⟨shape, origin, modifier, tags⟩ := source
  cases shape with
  | member found =>
    obtain ⟨definition, base, bound, constant⟩ := found
    cases base with
    | none =>
      exact .of_eq fun bindings => by rw [Symbol.convertBelow, isNothing (by rw [Symbol.strip])]
    | some base =>
      exact (Symbol.convertBelow_succeeds base isNothing meets).imp fun converts => by
        rwa [Symbol.convertBelow]
  | aliased node base =>
    cases base with
    | none =>
      exact .of_eq fun bindings => by rw [Symbol.convertBelow, isNothing (by rw [Symbol.strip])]
    | some base =>
      exact (Symbol.convertBelow_succeeds base isNothing meets).imp fun converts => by
        rwa [Symbol.convertBelow]
  | parameter binding =>
    obtain ⟨parameter, base, value⟩ := binding
    cases base with
    | none =>
      exact Symbol.convertBelow_succeeds_of_isStripped rfl meets
        fun _ => Shape.convert_succeeds _ rfl rfl
    | some base =>
      exact (Symbol.convertBelow_succeeds base isNothing meets).imp fun converts => by
        rwa [Symbol.convertBelow]
  | _ =>
    exact Symbol.convertBelow_succeeds_of_isStripped rfl meets
      fun _ => Shape.convert_succeeds _ rfl rfl
termination_by structural source

theorem Shape.convert_succeeds
    (shape : Shape) {root source target : Symbol} {isVariable : Bool}
    (isShape : source.shape = shape) (isStripped : shape.isStripped = true)
    (meets : Symbol.Meets holds root source target) :
    Succeeds holds (convert source isVariable shape target) := by
  have otherIsStripped := meets.otherIsStripped (isShape ▸ isStripped)
  cases shape with
  | primitive type =>
    have isTarget := primitive_same.mp (meets.same isShape rfl)
    exact .of_eq fun bindings => (convert_primitive otherIsStripped isShape).mpr
      ⟨type, isTarget, type.convertsTo_self, rfl⟩
  | aggregate declared =>
    obtain ⟨other, isTarget, isNode⟩ := aggregate_same.mp (meets.same isShape rfl)
    exact .of_eq fun bindings => (convert_aggregate otherIsStripped isShape).mpr
      ⟨other, isTarget, isNode ▸ Symbol.derivesFrom_self isShape, rfl⟩
  | enumeration node base =>
    obtain ⟨inner, isTarget⟩ := enumeration_same.mp (meets.same isShape rfl)
    exact .of_eq fun bindings => convert_enumeration.mpr (.inl ⟨inner, isTarget, rfl⟩)
  | array element length =>
    obtain ⟨inner, isTarget, meetsInner⟩ := meets.array isShape
    exact (Symbol.convertOption_succeeds element meetsInner).imp fun converts =>
      (convert_array otherIsStripped isShape).mpr
        (.inl ⟨inner, length, isTarget, .inr rfl, converts⟩)
  | associative key value =>
    obtain ⟨otherKey, otherValue, isTarget, keysAgree, valuesAgree⟩ :=
      associative_same.mp (meets.same isShape rfl)
    refine (Symbol.convertOption_succeeds key (meets.innerShape isShape isTarget keysAgree
      ?_ ?_ ?_)).andThen (Symbol.convertOption_succeeds value (meets.innerShape isShape isTarget
        valuesAgree ?_ ?_ ?_)) fun keys values =>
          (convert_associative otherIsStripped isShape).mpr
            ⟨otherKey, otherValue, isTarget, _, keys, values⟩
    all_goals simp +contextual
  | pointer inner =>
    obtain ⟨place, isTarget, isSameInner⟩ := pointer_same.mp (meets.same isShape rfl)
    cases inner <;> cases place
    case none.none =>
      exact .of_eq fun bindings => (convert_pointer otherIsStripped isShape).mpr
        ⟨none, isTarget, .inr (.inl ⟨rfl, rfl, rfl⟩)⟩
    case some.some pointee other =>
      rw [Symbol.optionSameType] at isSameInner
      cases isParameter : other.shape.isParameter with
      | false =>
        exact .of_eq fun bindings => (convert_pointer otherIsStripped isShape).mpr
          ⟨some other, isTarget, .inr (.inr ⟨pointee, other, rfl, rfl,
            .inl ⟨isParameter, isSameInner, rfl⟩⟩)⟩
      | true =>
        have meets : Symbol.Meets holds root pointee other :=
          meets.innerShape isShape isTarget isSameInner (by simp) (by simp) (by simp +contextual)
        exact (Symbol.convertBelow_succeeds pointee (fun _ => isSameInner)
          fun _ => meets.strip).imp fun converts =>
            (convert_pointer otherIsStripped isShape).mpr
              ⟨some other, isTarget, .inr (.inr ⟨pointee, other, rfl, rfl,
                .inr ⟨isParameter, converts⟩⟩)⟩
    all_goals simp [Symbol.optionSameType] at isSameInner
  | tuple items =>
    obtain ⟨others, isTarget, agree⟩ := tuple_same.mp (meets.same isShape rfl)
    have meetsItems : DScope.Meets allParts allAgree holds root items others :=
      meets.innerShape isShape isTarget agree (by simp) (by simp) (by simp +contextual)
    exact (Argument.convertAll_succeeds items meetsItems).imp fun converts =>
      (convert_tuple otherIsStripped isShape).mpr
        ⟨others, isTarget, length_eq_of_allAgree agree, converts⟩
  | _ => exact .of_eq fun bindings => by rw [convert_of_isRigid rfl, meets.agree]
termination_by structural shape

theorem Symbol.convertOption_succeeds
    (source : Option Symbol) {root : Symbol} {target : Option Symbol}
    (meets : DScope.Meets Symbol.optionParts Symbol.optionSameType holds root source target) :
    Succeeds holds (Symbol.convertOption source target) := by
  cases source <;> cases target
  case none.none => exact .of_eq fun bindings => by rw [Symbol.convertOption]
  case some.some source target =>
    have meets := Symbol.Meets.ofSome meets
    exact (Symbol.convertBelow_succeeds source (fun _ => meets.agree) fun _ => meets.strip).imp
      fun converts => by rwa [Symbol.convertOption]
  all_goals
    have agree := meets.agree
    simp [Symbol.optionSameType] at agree
termination_by structural source

theorem Argument.convert_succeeds
    (argument : Argument) {root : Symbol} {other : Argument}
    (meets : DScope.Meets parts agrees holds root argument other) :
    Succeeds holds (argument.convert other) := by
  have agree := meets.agree
  cases isSource : argument.type? with
  | none => exact .of_eq fun bindings => convert_iff.mpr (.inr ⟨.inl isSource, agree, rfl⟩)
  | some source =>
    cases isTarget : other.type? with
    | none =>
      exact .of_eq fun bindings => convert_iff.mpr (.inr ⟨.inr isTarget, agree, rfl⟩)
    | some target =>
      have meets := Symbol.Meets.ofType meets isSource isTarget
      suffices Succeeds holds (source.convert target) from
        this.imp fun converts =>
          convert_iff.mpr (.inl ⟨source, target, isSource, isTarget, converts⟩)
      cases argument with
      | type symbol =>
        obtain rfl : symbol = source := Option.some.inj isSource
        exact Symbol.convertBelow_succeeds symbol (fun _ => meets.agree) fun _ => meets.strip
      | value constant =>
        cases constant with
        | type symbol =>
          obtain rfl : symbol = source := Option.some.inj isSource
          exact Symbol.convertBelow_succeeds symbol (fun _ => meets.agree) fun _ => meets.strip
        | _ => cases isSource
      | unresolved _ => cases isSource
termination_by structural argument

theorem Argument.convertAll_succeeds
    (arguments : List Argument) {root : Symbol} {others : List Argument}
    (meets : DScope.Meets allParts allAgree holds root arguments others) :
    Succeeds holds (convertAll arguments others) := by
  cases arguments <;> cases others
  case cons.cons argument rest other others =>
    have agree := meets.agree
    rw [allAgree, Bool.and_eq_true] at agree
    refine (Argument.convert_succeeds argument (meets.inner agree.1 ?_ ?_ ?_)).andThen
      (Argument.convertAll_succeeds rest (meets.inner agree.2 ?_ ?_ ?_))
      fun first following => convertAll_cons.mpr ⟨_, first, following⟩
    all_goals simp +contextual
  all_goals exact .of_eq fun bindings => by simp [convertAll]
termination_by structural arguments

end

end DScope
