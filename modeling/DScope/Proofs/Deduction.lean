import DScope.Proofs.Filling

namespace DScope

variable {bindings : Bindings} {root : Symbol}

/-!
# Soundness of deduction

A conversion to a symbol with open parameters binds them. This module shows that the
conversion succeeds again once these bindings are filled in, and that it can fail
where sameness of types disregards what conversion regards.
-/

open Argument hiding filledBy type?
open Symbol hiding associative filledBy parameter
open Bindings hiding filledBy none
open List Shape

/-! ## Converting again -/

/-- Whether the shape is that of an enumeration based on an enumeration. -/
def Shape.isNestedEnumeration : Shape → Bool
  | .enumeration _ (some base) => base.strip.any (·.shape.isEnumeration)
  | _ => false

theorem Shape.isEnumeration_eq_of_same {shape other : Shape} (isSame : shape.same other = true) :
    shape.isEnumeration = other.isEnumeration := by
  rw [same.eq_def] at isSame
  split at isSame <;> first | rfl | cases isSame

/-- Whether the symbol stands for an open parameter without being one. -/
def Symbol.hidesParameter (symbol : Symbol) : Bool :=
  symbol.shape.unbound?.isNone && symbol.strip.any (·.shape.unbound?.isSome)

/--
A conversion to these places, with these bindings already made, meets no parameter
again, or it meets only types that are parts of a coherent root.
-/
def Bindings.Ready (root : Symbol) (places : List NodeId) (bindings : Bindings) : Prop :=
  (places.Nodup ∧ ∀ parameter ∈ places, bindings.get? parameter = Option.none) ∨
    root.IsCoherent ∧
      ∀ parameter binding,
        bindings.get? parameter = some binding →
          ∃ type, type.parts ⊆ root.parts ∧ type.shape.isStripped = true ∧
            binding = .ofType parameter type

namespace Bindings.Ready

variable {places otherPlaces : List NodeId} {bindings deduced : Bindings}

theorem left (ready : Ready root (places ++ otherPlaces) bindings) :
    Ready root places bindings := by
  rcases ready with ⟨areDifferent, areFree⟩ | isCoherent
  · exact .inl ⟨(nodup_append.mp areDifferent).1,
      fun parameter isPlace => areFree parameter (mem_append_left otherPlaces isPlace)⟩
  · exact .inr isCoherent

theorem right {parts : List Symbol} (ready : Ready root (places ++ otherPlaces) bindings)
    (deduces : Deduces parts places bindings deduced) (areParts : parts ⊆ root.parts) :
    Ready root otherPlaces deduced := by
  rcases ready with ⟨areDifferent, areFree⟩ | ⟨isCoherent, areTypes⟩
  · obtain ⟨-, othersAreDifferent, areApart⟩ := nodup_append.mp areDifferent
    refine .inl ⟨othersAreDifferent, fun parameter isPlace => ?_⟩
    cases isBound : deduced.get? parameter with
    | none => rfl
    | some binding =>
      rcases deduces.makes parameter binding isBound with isOld | ⟨isFirst, -⟩
      · rw [areFree parameter (mem_append_right places isPlace)] at isOld
        cases isOld
      · exact absurd rfl (areApart parameter isFirst parameter isPlace)
  · refine .inr ⟨isCoherent, fun parameter binding isBound => ?_⟩
    rcases deduces.makes parameter binding isBound with isOld | ⟨-, type, arePart, isNew⟩
    · exact areTypes parameter binding isOld
    · exact ⟨type, Subset.trans arePart areParts, isNew⟩

end Bindings.Ready

namespace Symbol

variable {source target : Symbol} {parameter : NodeId} {bindings deduced later : Bindings}
  {type : Symbol} {isVariable : Bool}

theorem IsConcrete.meets_self (isConcrete : source.IsConcrete) :
    Meets (· = .none) root source source := by
  refine ⟨sameType_self isConcrete.isComparable, .inl ⟨rfl, fun part isPart =>
    ⟨isConcrete.isComparable part isPart, fun parameter isUnbound => ?_⟩⟩⟩
  rw [unbound?_of_isBare (isBare_of_isConcrete (isConcrete part isPart))] at isUnbound
  cases isUnbound

theorem meets_of_bindParameter (isConcrete : root.IsConcrete) (areParts : source.parts ⊆ root.parts)
    (isStripped : source.shape.isStripped = true) (ready : Ready root [parameter] bindings)
    (binds : source.bindParameter parameter bindings = (true, deduced)) :
    ∃ type, deduced.get? parameter = some (.ofType parameter type) ∧
      type.shape.isStripped = true ∧ Meets (· = .none) root source type := by
  rcases bindParameter_iff.mp binds with ⟨binding, isBound, isSame, rfl⟩ | ⟨-, rfl⟩
  · rcases ready with ⟨-, isFree⟩ | ⟨isCoherent, areTypes⟩
    · rw [isFree parameter (mem_singleton.mpr rfl)] at isBound
      cases isBound
    · obtain ⟨type, arePart, typeIsStripped, rfl⟩ := areTypes parameter binding isBound
      exact ⟨type, isBound, typeIsStripped, isSame type rfl,
        .inr ⟨isConcrete, isCoherent, areParts, arePart⟩⟩
  · refine ⟨source, ?_, isStripped, IsConcrete.meets_self (isConcrete.mono areParts)⟩
    rw [get?_set, if_pos]
    rfl

theorem filledBy_of_unbound (isUnbound : target.shape.unbound? = some parameter)
    (isBound : later.get? parameter = some (.ofType parameter type)) :
    (target.filledBy later.type?).shape.unbound? = none ∧
      (target.filledBy later.type?).strip = type.strip := by
  have isType : later.type? parameter = some type := by rw [type?, isBound]; rfl
  have isShape := eq_of_unbound? isUnbound
  obtain ⟨shape, origin, modifier, tags⟩ := target
  cases isShape
  simp [isType, strip, unbound?]

theorem convert_unbound
    (isBare : source.shape.isParameter = false) (isUnbound : target.shape.unbound? = some parameter)
    (converts : Shape.convert source isVariable source.shape target bindings = (true, deduced)) :
    ∃ node base, source.shape = .enumeration node (some base) ∧
      base.convert target bindings = (true, deduced) := by
  have isTarget := Shape.eq_of_unbound? isUnbound
  have isDifferent := sameType_unbound isTarget isBare
  cases isShape : source.shape with
  | enumeration node base =>
    rw [isShape] at converts
    rcases Shape.convert_enumeration.mp converts with ⟨_, isOther, _⟩ | ⟨_, type, rfl, below⟩
    · rw [isTarget] at isOther
      cases isOther
    · exact ⟨node, type, rfl, below⟩
  | pointer inner =>
    rw [isShape] at converts
    cases inner <;> simp [Shape.convert, isTarget, isDifferent] at converts
  | _ =>
    rw [isShape] at converts
    simp [Shape.convert, isTarget, isDifferent] at converts

theorem convertBelow_eq_of_strip {whole : Symbol} (isType : source.strip = some type) :
    convertBelow whole isVariable source target bindings =
      convertBelow whole isVariable type target bindings := by
  fun_induction strip source <;> simp_all [convertBelow]

/-- What hides an open parameter that was bound stands for a type that can be converted to. -/
theorem convert_hidden
    (isConcrete : root.IsConcrete) (isFlat : source.shape.isNestedEnumeration = false)
    (areParts : source.parts ⊆ root.parts) (ready : Ready root [parameter] bindings)
    (isUnbound : target.shape.unbound? = some parameter) (isKept : deduced.KeptIn later)
    (converts : Shape.convert source isVariable source.shape target bindings = (true, deduced)) :
    ∃ type, (target.filledBy later.type?).strip = some type ∧
      Shape.convert source isVariable source.shape type .none = (true, .none) := by
  have isBare := IsConcrete.isBare (isConcrete.mono areParts)
  obtain ⟨node, base, isShape, below⟩ := convert_unbound isBare isUnbound converts
  have baseParts : base.parts ⊆ root.parts := by
    refine Subset.trans ?_ (Subset.trans source.shape_parts_subset areParts)
    simp [isShape]
  have baseIsBare := IsConcrete.isBare (isConcrete.mono baseParts)
  cases isType : base.strip with
  | none =>
    have isSame := sameType_unbound (Shape.eq_of_unbound? isUnbound) baseIsBare
    rw [convert, convertBelow_of_strip_none isType, isSame] at below
    cases below
  | some type =>
    have typeIsStripped := isStripped_of_strip isType
    have typeParts := Subset.trans (parts_subset_of_strip isType) baseParts
    rw [convert, convertBelow_eq_of_strip isType] at below
    rcases (convertBelow_of_isStripped typeIsStripped).mp below with
      ⟨other, isOther, binds⟩ | ⟨isBound, -⟩
    · obtain rfl : parameter = other := Option.some.inj (isUnbound.symm.trans isOther)
      obtain ⟨bound, isBound, boundIsStripped, meets⟩ :=
        meets_of_bindParameter isConcrete typeParts typeIsStripped ready binds
      have isFilled := filledBy_of_unbound isUnbound (isKept _ _ isBound)
      refine ⟨bound, isFilled.2.trans (strip_eq_self boundIsStripped), ?_⟩
      rw [isShape]
      refine Shape.convert_enumeration.mpr (.inr ⟨?_, base, rfl, ?_⟩)
      · have typeIsBare := IsConcrete.isBare (isConcrete.mono typeParts)
        rw [← Shape.isEnumeration_eq_of_same (meets.same rfl typeIsBare)]
        simpa [isShape, isType, Shape.isNestedEnumeration] using isFlat
      · have meetsBelow :
            ∀ other, base.strip = some other →
              ∃ inner, bound.strip = some inner ∧ Meets (· = .none) root other inner := by
          intro other isOther
          obtain rfl : type = other := Option.some.inj (isType.symm.trans isOther)
          exact ⟨bound, strip_eq_self boundIsStripped, meets⟩
        refine (convertBelow_succeeds base (fun isNothing => ?_) meetsBelow).eq
        rw [isType] at isNothing
        cases isNothing
    · rw [isUnbound] at isBound
      cases isBound

end Symbol

/-- What is asked of a conversion between parts of two symbols so that it can be repeated. -/
structure Repeatable (root top : Symbol) : Prop where
  isConcrete : root.IsConcrete
  isFlat :
    (∀ part ∈ top.parts, part.hidesParameter = false) ∨
      ∀ part ∈ root.parts, part.shape.isNestedEnumeration = false

/-- A stripped symbol converts again if its shape does so wherever no parameter is bound. -/
theorem Symbol.convertBelow_filledBy_of_isStripped {top whole source target : Symbol}
    {isVariable : Bool} {deduced later : Bindings} (isRepeatable : Repeatable root top)
    (isStripped : source.shape.isStripped = true) (areParts : source.parts ⊆ root.parts)
    (areTargets : target.parts ⊆ top.parts)
    (ready : Ready root target.deducible bindings) (isKept : deduced.KeptIn later)
    (converts : convertBelow whole isVariable source target bindings = (true, deduced))
    (repeats :
      ∀ type : Symbol,
        type.shape.isStripped = true →
          type.shape.unbound? = none →
          type.parts ⊆ top.parts →
            Ready root type.deducible bindings →
            Shape.convert source isVariable source.shape type bindings = (true, deduced) →
              Shape.convert source isVariable source.shape (type.filledBy later.type?) .none =
                (true, .none)) :
    convertBelow whole isVariable source (target.filledBy later.type?) .none =
      (true, .none) := by
  rw [convertBelow_of_isStripped isStripped]
  rcases (convertBelow_of_isStripped isStripped).mp converts with
    ⟨parameter, isUnbound, binds⟩ | ⟨isBound, type, isType, converts⟩
  · -- The target is an open parameter, which is bound to the source or to what it meets.
    rw [target.deducible_eq, Shape.deducible_of_unbound isUnbound] at ready
    obtain ⟨type, isBound, typeIsStripped, meets⟩ :=
      meets_of_bindParameter isRepeatable.isConcrete areParts isStripped ready binds
    obtain ⟨isFilled, stands⟩ := filledBy_of_unbound isUnbound (isKept _ _ isBound)
    exact .inr ⟨isFilled, type, stands.trans (strip_eq_self typeIsStripped),
      (Shape.convert_succeeds source.shape rfl isStripped meets).eq⟩
  · have standsFor : (target.filledBy later.type?).strip = (type.filledBy later.type?).strip := by
      rw [strip_filledBy, isType, Option.bind_some]
    have isFilled : (target.filledBy later.type?).shape.unbound? = none := by
      rw [shape_filledBy]
      exact Shape.unbound?_filledBy isBound
    have typeIsStripped := isStripped_of_strip isType
    have typeParts := Subset.trans (parts_subset_of_strip isType) areTargets
    rw [← deducible_of_strip isType] at ready
    refine .inr ⟨isFilled, ?_⟩
    rw [standsFor]
    cases isUnbound : type.shape.unbound? with
    | none =>
      have filledIsStripped : (type.filledBy later.type?).shape.isStripped = true := by
        rw [shape_filledBy]
        exact Shape.isStripped_filledBy typeIsStripped isUnbound
      exact ⟨_, strip_eq_self filledIsStripped,
        repeats type typeIsStripped isUnbound typeParts ready converts⟩
    | some parameter =>
      -- The target hides an open parameter, and only an enumeration can have bound it.
      have isFlat : source.shape.isNestedEnumeration = false := by
        rcases isRepeatable.isFlat with hidesNone | isFlat
        · have hides := hidesNone target (areTargets target.self_mem_parts)
          simp [hidesParameter, isBound, isType, isUnbound] at hides
        · exact isFlat source (areParts source.self_mem_parts)
      rw [type.deducible_eq, Shape.deducible_of_unbound isUnbound] at ready
      exact convert_hidden isRepeatable.isConcrete isFlat areParts ready isUnbound isKept converts

section

variable {top : Symbol} (isRepeatable : Repeatable root top)
include isRepeatable

-- The theorems use the assumption in turn.
set_option linter.unusedSectionVars false in
mutual

/-- A conversion succeeds again when the bindings that it made, or more, are filled in. -/
theorem Symbol.convertBelow_filledBy
    (source : Symbol) {whole target : Symbol} {isVariable : Bool}
    {bindings deduced later : Bindings} (isWhole : whole.parts ⊆ root.parts)
    (areParts : source.parts ⊆ root.parts) (areTargets : target.parts ⊆ top.parts)
    (ready : Ready root target.deducible bindings) (isKept : deduced.KeptIn later)
    (converts : convertBelow whole isVariable source target bindings = (true, deduced)) :
    convertBelow whole isVariable source (target.filledBy later.type?) .none =
      (true, .none) := by
  have isConcrete := isRepeatable.isConcrete.mono areParts
  have shapeParts := Subset.trans source.shape_parts_subset areParts
  obtain ⟨shape, origin, modifier, tags⟩ := source
  cases shape with
  | member found =>
    obtain ⟨definition, base, bound, constant⟩ := found
    cases base with
    | none =>
      rw [convertBelow] at converts ⊢
      rw [sameType_filledBy whole (isRepeatable.isConcrete.mono isWhole)
        (Prod.mk.inj converts).1]
    | some base =>
      have baseParts : base.parts ⊆ root.parts :=
        Subset.trans (by intro part isPart; simp [isPart]) shapeParts
      exact Symbol.convertBelow_filledBy base isWhole baseParts areTargets ready isKept converts
  | aliased node base =>
    cases base with
    | none =>
      rw [convertBelow] at converts ⊢
      rw [sameType_filledBy whole (isRepeatable.isConcrete.mono isWhole)
        (Prod.mk.inj converts).1]
    | some base =>
      have baseParts : base.parts ⊆ root.parts := shapeParts
      exact Symbol.convertBelow_filledBy base isWhole baseParts areTargets ready isKept converts
  | parameter binding => cases IsConcrete.isBare isConcrete
  | _ =>
    exact convertBelow_filledBy_of_isStripped isRepeatable rfl areParts areTargets ready
      isKept converts fun _ => Shape.convert_filledBy _ rfl areParts isKept
termination_by structural source

theorem Shape.convert_filledBy
    (shape : Shape) {source target : Symbol} {isVariable : Bool}
    {bindings deduced later : Bindings} (isShape : source.shape = shape)
    (areParts : source.parts ⊆ root.parts) (isKept : deduced.KeptIn later)
    (isStripped : target.shape.isStripped = true) (isBound : target.shape.unbound? = none)
    (areTargets : target.parts ⊆ top.parts)
    (ready : Ready root target.deducible bindings)
    (converts : convert source isVariable shape target bindings = (true, deduced)) :
    convert source isVariable shape (target.filledBy later.type?) .none = (true, .none) := by
  have isFilled : (target.filledBy later.type?).shape.isStripped = true := by
    rw [shape_filledBy]
    exact isStripped_filledBy isStripped isBound
  have isTargetFilled : (target.filledBy later.type?).shape = target.shape.filledBy later.type? :=
    target.shape_filledBy
  have shapeParts : shape.parts ⊆ root.parts :=
    isShape ▸ Subset.trans source.shape_parts_subset areParts
  have targetParts := Subset.trans target.shape_parts_subset areTargets
  rw [target.deducible_eq] at ready
  cases shape with
  | primitive type =>
    obtain ⟨other, isTarget, widens, -⟩ := (convert_primitive isStripped isShape).mp converts
    rw [isTarget] at isTargetFilled
    exact (convert_primitive isFilled isShape).mpr ⟨other, isTargetFilled, widens, rfl⟩
  | aggregate declared =>
    obtain ⟨⟨kind, node, baseClass, interfaces, bound⟩, isTarget, derives, -⟩ :=
      (convert_aggregate isStripped isShape).mp converts
    rw [isTarget] at isTargetFilled
    exact (convert_aggregate isFilled isShape).mpr ⟨_, isTargetFilled, derives, rfl⟩
  | enumeration node base =>
    rcases convert_enumeration.mp converts with
      ⟨inner, isTarget, -⟩ | ⟨isOther, type, isBase, below⟩
    · rw [isTarget] at isTargetFilled
      exact convert_enumeration.mpr (.inl ⟨_, isTargetFilled, rfl⟩)
    · cases base with
      | none => cases isBase
      | some base =>
        obtain rfl : base = type := Option.some.inj isBase
        refine convert_enumeration.mpr (.inr ⟨?_, base, rfl, ?_⟩)
        · rw [isTargetFilled, isEnumeration_filledBy, isOther]
        · rw [← target.deducible_eq] at ready
          exact Symbol.convertBelow_filledBy base shapeParts shapeParts areTargets
            ready isKept below
  | array element length =>
    rcases (convert_array isStripped isShape).mp converts with
      ⟨inner, size, isTarget, fits, below⟩ | ⟨pointee, isTarget, isNoVariable, isText, isLetter, -⟩
    · rw [isTarget] at ready targetParts
      rw [isTarget] at isTargetFilled
      exact (convert_array isFilled isShape).mpr (.inl ⟨_, size, isTargetFilled, fits,
        Symbol.convertOption_filledBy element shapeParts targetParts ready isKept below⟩)
    · rw [isTarget, filledBy, optionFilledBy] at isTargetFilled
      exact (convert_array isFilled isShape).mpr (.inr ⟨_, isTargetFilled, isNoVariable,
        isText, by rw [isCharacter_filledBy, isLetter], rfl⟩)
  | associative key value =>
    obtain ⟨otherKey, otherValue, isTarget, between, keys, values⟩ :=
      (convert_associative isStripped isShape).mp converts
    rw [isTarget] at ready targetParts
    rw [isTarget] at isTargetFilled
    have keyParts := Subset.trans (subset_append_left _ _) shapeParts
    have valueParts := Subset.trans (subset_append_right _ _) shapeParts
    have deducesKeys := convertOption_deduces keys
    have deducesValues := convertOption_deduces values
    exact (convert_associative isFilled isShape).mpr ⟨_, _, isTargetFilled, .none,
      Symbol.convertOption_filledBy key keyParts
        (Subset.trans (subset_append_left _ _) targetParts) ready.left
        (fun _ _ isBound => isKept _ _ (deducesValues.keeps _ _ isBound)) keys,
      Symbol.convertOption_filledBy value valueParts
        (Subset.trans (subset_append_right _ _) targetParts)
        (ready.right deducesKeys keyParts) isKept values⟩
  | pointer inner =>
    obtain ⟨place, isTarget, isPlaced⟩ := (convert_pointer isStripped isShape).mp converts
    rw [isTarget] at ready targetParts
    rw [isTarget] at isTargetFilled
    refine (convert_pointer isFilled isShape).mpr ⟨_, isTargetFilled, ?_⟩
    rcases isPlaced with ⟨other, rfl, isVoid, -⟩ | ⟨rfl, rfl, -⟩ |
      ⟨pointee, other, isInner, rfl, isOther⟩
    · exact .inl ⟨_, rfl, by simp [isVoid], rfl⟩
    · exact .inr (.inl ⟨rfl, rfl, rfl⟩)
    · cases inner with
      | none => cases isInner
      | some inner =>
        obtain rfl : inner = pointee := Option.some.inj isInner
        refine .inr (.inr ⟨inner, _, rfl, rfl, ?_⟩)
        rw [shape_filledBy, isParameter_filledBy]
        rcases isOther with ⟨isBare, isSame, -⟩ | ⟨isParameter, below⟩
        · exact .inl ⟨isBare, sameType_filledBy inner
            (isRepeatable.isConcrete.mono shapeParts) isSame, rfl⟩
        · exact .inr ⟨isParameter, Symbol.convertBelow_filledBy inner shapeParts
            shapeParts targetParts ready isKept below⟩
  | tuple items =>
    obtain ⟨others, isTarget, isLength, below⟩ := (convert_tuple isStripped isShape).mp converts
    rw [isTarget] at ready targetParts
    rw [isTarget] at isTargetFilled
    exact (convert_tuple isFilled isShape).mpr ⟨_, isTargetFilled, by simpa using isLength,
      Argument.convertAll_filledBy items shapeParts targetParts ready isKept below⟩
  | _ =>
    rw [convert_of_isRigid rfl] at converts ⊢
    rw [sameType_filledBy source (isRepeatable.isConcrete.mono areParts)
      (Prod.mk.inj converts).1]
termination_by structural shape

theorem Symbol.convertOption_filledBy
    (source : Option Symbol) {target : Option Symbol}
    {bindings deduced later : Bindings} (areParts : optionParts source ⊆ root.parts)
    (areTargets : optionParts target ⊆ top.parts)
    (ready : Ready root (optionDeducible target) bindings)
    (isKept : deduced.KeptIn later)
    (converts : convertOption source target bindings = (true, deduced)) :
    convertOption source (optionFilledBy later.type? target) .none =
      (true, .none) := by
  cases source <;> cases target
  case none.none => rw [optionFilledBy, convertOption]
  case some.some source target =>
    exact Symbol.convertBelow_filledBy source areParts areParts areTargets ready isKept converts
  all_goals simp [convertOption] at converts
termination_by structural source

theorem Argument.convert_filledBy
    (argument : Argument) {other : Argument}
    {bindings deduced later : Bindings} (areParts : argument.parts ⊆ root.parts)
    (areTargets : other.parts ⊆ top.parts) (ready : Ready root other.deducible bindings)
    (isKept : deduced.KeptIn later) (converts : argument.convert other bindings = (true, deduced)) :
    argument.convert (other.filledBy later.type?) .none = (true, .none) := by
  rw [convert_iff, type?_filledBy]
  rcases convert_iff.mp converts with
    ⟨source, target, isSource, isTarget, below⟩ | ⟨areTypes, agree, -⟩
  · rw [parts_of_type isTarget] at areTargets
    rw [deducible_of_type isTarget] at ready
    refine .inl ⟨source, _, isSource, by rw [isTarget]; rfl, ?_⟩
    cases argument with
    | type symbol =>
      obtain rfl : symbol = source := Option.some.inj isSource
      exact Symbol.convertBelow_filledBy symbol areParts areParts areTargets ready isKept below
    | value constant =>
      cases constant with
      | type symbol =>
        obtain rfl : symbol = source := Option.some.inj isSource
        exact Symbol.convertBelow_filledBy symbol areParts areParts areTargets ready isKept below
      | _ => cases isSource
    | unresolved _ => cases isSource
  · exact .inr ⟨by simpa using areTypes,
      agrees_filledBy argument (isRepeatable.isConcrete.mono areParts) agree, rfl⟩
termination_by structural argument

theorem Argument.convertAll_filledBy
    (arguments : List Argument) {others : List Argument}
    {bindings deduced later : Bindings} (areParts : allParts arguments ⊆ root.parts)
    (areTargets : allParts others ⊆ top.parts)
    (ready : Ready root (allDeducible others) bindings)
    (isKept : deduced.KeptIn later)
    (converts : convertAll arguments others bindings = (true, deduced)) :
    convertAll arguments (allFilledBy later.type? others) .none =
      (true, .none) := by
  cases arguments <;> cases others
  case cons.cons argument rest other others =>
    obtain ⟨between, first, following⟩ := convertAll_cons.mp converts
    have firstParts := Subset.trans (subset_append_left _ _) areParts
    have restParts := Subset.trans (subset_append_right _ _) areParts
    have deducesFirst := convert_deduces first
    have deducesRest := convertAll_deduces following
    exact convertAll_cons.mpr ⟨.none,
      Argument.convert_filledBy argument firstParts
        (Subset.trans (subset_append_left _ _) areTargets) ready.left
        (fun _ _ isBound => isKept _ _ (deducesRest.keeps _ _ isBound)) first,
      Argument.convertAll_filledBy rest restParts
        (Subset.trans (subset_append_right _ _) areTargets)
        (ready.right deducesFirst firstParts) isKept following⟩
  all_goals simp [convertAll]
termination_by structural arguments

end

end

/--
What a conversion from a concrete symbol deduces makes the conversion succeed when it
is filled in, provided that the target does not repeat a parameter or the source is
coherent, and that the target hides no parameter or no enumeration in the source is
based on an enumeration.
-/
theorem deduced_types_are_converted_to
    {source target : Symbol}
    {bindings deduced : Bindings}
    (isConcrete : source.IsConcrete)
    (areEmpty : bindings.filled = [])
    (isSteady : target.deducible.Nodup ∨ source.IsCoherent)
    (isFlat :
      (∀ part ∈ target.parts, part.hidesParameter = false) ∨
        ∀ part ∈ source.parts, part.shape.isNestedEnumeration = false)
    (converts : source.convert target bindings = (true, deduced)) :
    source.convertsTo (target.filledBy deduced.type?) = true := by
  have areFree := get?_eq_none_of_filled areEmpty
  have ready : Ready source target.deducible bindings := by
    rcases isSteady with areDifferent | isCoherent
    · exact .inl ⟨areDifferent, fun parameter _ => areFree parameter⟩
    · refine .inr ⟨isCoherent, fun parameter binding isBound => ?_⟩
      rw [areFree parameter] at isBound
      cases isBound
  have converted := Symbol.convertBelow_filledBy ⟨isConcrete, isFlat⟩ source (Subset.refl _)
    (Subset.refl _) (Subset.refl _) ready (fun _ _ isBound => isBound) converts
  exact congrArg Prod.fst converted

/-- Two arrays of one length are converted to a parameter that they share. -/
theorem arrays_share_a_parameter :
    let numbers := Symbol.fixedArray (some (.primitive .int)) 4
    let shared := Symbol.parameter (.unbound ⟨2⟩)
    let source := Symbol.associative (some numbers) (some numbers)
    let target := Symbol.associative (some shared) (some shared)
    let deduced := (source.convert target ⟨[.empty ⟨2⟩]⟩).2
    source.convertsTo (target.filledBy deduced.type?) = true := by
  intro numbers shared source target deduced
  have isConcrete : source.IsConcrete := by decide +kernel
  have isCoherent : source.IsCoherent := by decide +kernel
  have isFlat : ∀ part ∈ source.parts, part.shape.isNestedEnumeration = false := by decide +kernel
  have converts : (source.convert target ⟨[.empty ⟨2⟩]⟩).1 = true := by decide +kernel
  exact deduced_types_are_converted_to isConcrete rfl (.inr isCoherent) (.inr isFlat)
    (Prod.ext converts rfl)

/-- Whether a conversion succeeds by deduction and fails when what it deduced is filled in. -/
def Symbol.deducesTooMuch (source target : Symbol) : Bool :=
  let (converts, deduced) := source.convert target .none
  converts && !source.convertsTo (target.filledBy deduced.type?)

/--
Deduction overlooks the lengths of arrays and the types of members at a parameter that
is shared, and that an enumeration has another as its base at a parameter that is hidden.
-/
theorem deduction_overlooks_what_sameness_disregards :
    let shared := Symbol.parameter (.unbound ⟨2⟩)
    let pair := Symbol.associative (some shared) (some shared)
    let array (length : Nat) := Symbol.fixedArray (some (.primitive .int)) length
    let list (type : BasicType) :=
      dynamicArray (some (.member ⟨5⟩ (some (.primitive type)) .none))
    let lengths := Symbol.associative (some (array 4)) (some (array 3))
    let fields := Symbol.associative (some (list .bool)) (some (list .int))
    let color := declared ⟨1⟩ (.enumeration ⟨1⟩ (some (.primitive .int)))
    let shade := declared ⟨3⟩ (.enumeration ⟨3⟩ (some color))
    let hidden := Symbol.parameter (.ofType ⟨4⟩ shared)
    (lengths.IsConcrete ∧ lengths.deducesTooMuch pair = true) ∧
      (fields.IsConcrete ∧ fields.deducesTooMuch pair = true) ∧
      shade.IsConcrete ∧ shade.deducesTooMuch hidden = true := by
  decide +kernel

end DScope
