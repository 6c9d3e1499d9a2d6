import DScope.Evaluation.Arithmetic
import DScope.Proofs.Rounding
import Mathlib

namespace DScope

/-!
# The order of integer constants

Constants are ordered as floating-point numbers, integers among them. So two integers
compare as the numbers that they are rounded to, while they are equal only if they are
the same.
-/

open Integer

namespace Binary64

variable {first second shift otherShift : Nat}

open Float.Model Float.Model.UnpackedFloat

/-! ## Bits of a normal number -/

section Packing

theorem withLeadingBit_pos (fraction : Nat) : 0 < 2 ^ 52 + fraction := by
  positivity

variable
  (sign : Sign)
  {field fraction : Nat}
  (isNormal : 0 < field)
  (isFinite : field < 2047)
  (isFraction : fraction < 2 ^ 52)

include isFinite

theorem ofNat_ne_top : BitVec.ofNat 11 field ≠ -1#11 := by
  intro isSame
  have := congrArg BitVec.toNat isSame
  simp at this
  omega

theorem isNaNBits_packComponents :
    isNaNBits (packComponents Format.binary64 sign (.ofNat 11 field) (.ofNat 52 fraction)) =
      false := by
  simp only [isNaNBits, unpackExponent_packComponents]
  exact decide_eq_false fun isUndefined => ofNat_ne_top isFinite isUndefined.1

include isFraction

include isNormal in
theorem unpack_packComponents :
    UnpackedFloat.unpack Format.binary64
        (packComponents Format.binary64 sign (.ofNat 11 field) (.ofNat 52 fraction)) =
      .finite sign (2 ^ 52 + fraction) (field - 1075) (withLeadingBit_pos fraction) := by
  have isField : (BitVec.ofNat 11 field).toNat = field := by simp; omega
  have notSmall : BitVec.ofNat 11 field ≠ 0#11 := by
    intro isSame
    have := congrArg BitVec.toNat isSame
    simp at this
    omega
  have isMantissa : (1#1 ++ BitVec.ofNat 52 fraction).toNat = 2 ^ 52 + fraction := by
    have isFraction : (BitVec.ofNat 52 fraction).toNat = fraction := by simp; omega
    rw [BitVec.toNat_append, ← Nat.shiftLeft_add_eq_or_of_lt (BitVec.isLt _), isFraction]
    rfl
  simp only [UnpackedFloat.unpack, unpackExponent_packComponents, unpackMantissa_packComponents,
    unpackSign_packComponents, ofNat_ne_top isFinite, notSmall, isField, isMantissa,
    Sign.ofBitVec_toBitVec]
  rfl

theorem toBitVec_ofNat :
    (UInt64.ofNat (sign.toBitVec.toNat * 2 ^ 63 + (field * 2 ^ 52 + fraction))).toBitVec =
      packComponents Format.binary64 sign (.ofNat 11 field) (.ofNat 52 fraction) := by
  have isField : (BitVec.ofNat 11 field).toNat = field := by simp; omega
  have isMantissa : (BitVec.ofNat 52 fraction).toNat = fraction := by simp; omega
  apply BitVec.eq_of_toNat_eq
  rw [packComponents, BitVec.toNat_append, ← Nat.shiftLeft_add_eq_or_of_lt (BitVec.isLt _),
    BitVec.toNat_append, ← Nat.shiftLeft_add_eq_or_of_lt (BitVec.isLt _), isField, isMantissa,
    Nat.shiftLeft_eq, Nat.shiftLeft_eq, UInt64.toNat_toBitVec, UInt64.toNat_ofNat_of_lt']
  · ring
  · rw [UInt64.size]
    omega

end Packing

def signOf (negative : Bool) : Sign :=
  if negative then .negative else .positive

theorem unpack_ofMagnitude
    (negative : Bool) {field fraction : Nat} (isNormal : 0 < field) (isFinite : field < 2047)
    (isFraction : fraction < 2 ^ 52) :
    (ofMagnitude negative (field * 2 ^ 52 + fraction)).toModel.unpack =
      .finite (signOf negative) (2 ^ 52 + fraction) (field - 1075)
        (withLeadingBit_pos fraction) := by
  have isBits :
      (UInt64.ofNat (if negative then field * 2 ^ 52 + fraction + Nat.pow 2 63
        else field * 2 ^ 52 + fraction)).toBitVec =
        packComponents Format.binary64 (signOf negative) (.ofNat 11 field)
          (.ofNat 52 fraction) := by
    rw [← toBitVec_ofNat (signOf negative) isFinite isFraction]
    cases negative
    · simp [signOf, Sign.toBitVec]
    · simp [signOf, Sign.toBitVec, Nat.add_comm]
  change UnpackedFloat.unpack Format.binary64 (UnpackedFloat.pack Format.binary64
    (UnpackedFloat.unpack Format.binary64 (UInt64.toBitVec _))) = _
  rw [isBits, pack_unpack, isNaNBits_packComponents (signOf negative) isFinite]
  exact unpack_packComponents (signOf negative) isNormal isFinite isFraction

/-! ## Order of whole numbers -/

/-- A floating-point number that is a whole number. -/
inductive Writes : UnpackedFloat → Int → Prop
  | zero (sign : Sign) : Writes (.zero sign) 0
  /-- The exponent leaves 52 bits of the significand behind the point if nothing is shifted. -/
  | finite
      (sign : Sign)
      {significand shift value : Nat}
      (isPositive : 0 < significand)
      (isNonzero : 0 < value)
      (isLow : 2 ^ 52 ≤ significand)
      (isHigh : significand < 2 ^ 53)
      (isValue : significand * 2 ^ shift = value * 2 ^ 52) :
      Writes (.finite sign significand (shift - 52) isPositive) (sign.apply value)

theorem scaled_lt
    (isHigh : first < 2 ^ 53) (otherIsLow : 2 ^ 52 ≤ second) (isBelow : shift < otherShift) :
    first * 2 ^ shift < second * 2 ^ otherShift := by
  calc
    first * 2 ^ shift < 2 ^ 53 * 2 ^ shift := Nat.mul_lt_mul_of_pos_right isHigh (by positivity)
    _ = 2 ^ 52 * 2 ^ (shift + 1) := by ring
    _ ≤ 2 ^ 52 * 2 ^ otherShift :=
      Nat.mul_le_mul_left _ (Nat.pow_le_pow_right (by norm_num) isBelow)
    _ ≤ second * 2 ^ otherShift := Nat.mul_le_mul_right _ otherIsLow

theorem compare_finite {value other : Nat} (isLow : 2 ^ 52 ≤ first) (isHigh : first < 2 ^ 53)
    (otherIsLow : 2 ^ 52 ≤ second) (otherIsHigh : second < 2 ^ 53)
    (isValue : first * 2 ^ shift = value * 2 ^ 52)
    (otherIsValue : second * 2 ^ otherShift = other * 2 ^ 52) :
    (compare ((shift : Int) - 52) (otherShift - 52)).then (compare first second) =
      compare (value : Int) other := by
  rcases Nat.lt_trichotomy shift otherShift with isBelow | rfl | isAbove
  · have isLess := scaled_lt isHigh otherIsLow isBelow
    have isOrder : compare (value : Int) other = .lt := Int.compare_eq_lt.mpr (by omega)
    rw [isOrder, Int.compare_eq_lt.mpr (by omega)]
    rfl
  · have isPower : 0 < 2 ^ shift := by positivity
    rw [Int.compare_eq_eq.mpr rfl, Ordering.then]
    rcases Nat.lt_trichotomy first second with isLess | rfl | isMore
    · have := Nat.mul_lt_mul_of_pos_right isLess isPower
      rw [Nat.compare_eq_lt.mpr isLess, Int.compare_eq_lt.mpr (by omega)]
    · rw [Nat.compare_eq_eq.mpr rfl, Int.compare_eq_eq.mpr (by omega)]
    · have := Nat.mul_lt_mul_of_pos_right isMore isPower
      rw [Nat.compare_eq_gt.mpr isMore, Int.compare_eq_gt.mpr (by omega)]
  · have isMore := scaled_lt otherIsHigh isLow isAbove
    have isOrder : compare (value : Int) other = .gt := Int.compare_eq_gt.mpr (by omega)
    rw [isOrder, Int.compare_eq_gt.mpr (by omega)]
    rfl

theorem compare_neg (value other : Int) :
    compare (-value) (-other) = (compare value other).swap := by
  rcases Int.lt_trichotomy value other with isLess | rfl | isMore
  · rw [Int.compare_eq_lt.mpr isLess, Int.compare_eq_gt.mpr (by omega), Ordering.swap]
  · rw [Int.compare_eq_eq.mpr rfl, Int.compare_eq_eq.mpr rfl, Ordering.swap]
  · rw [Int.compare_eq_gt.mpr isMore, Int.compare_eq_lt.mpr (by omega), Ordering.swap]

theorem Writes.compare_eq
    {first second : UnpackedFloat} {value other : Int} (writes : Writes first value)
    (otherWrites : Writes second other) : first.compare second = some (compare value other) := by
  cases writes with
  | zero sign =>
    cases otherWrites with
    | zero otherSign => rfl
    | finite otherSign isPositive isNonzero =>
      cases otherSign
      · rw [UnpackedFloat.compare, Sign.apply, Int.compare_eq_gt.mpr (by omega)]
      · rw [UnpackedFloat.compare, Sign.apply, Int.compare_eq_lt.mpr (by omega)]
  | finite sign isPositive isNonzero isLow isHigh isValue =>
    cases otherWrites with
    | zero otherSign =>
      cases sign
      · rw [UnpackedFloat.compare, Sign.apply, Int.compare_eq_lt.mpr (by omega)]
      · rw [UnpackedFloat.compare, Sign.apply, Int.compare_eq_gt.mpr (by omega)]
    | finite otherSign otherIsPositive otherIsNonzero otherIsLow otherIsHigh otherIsValue =>
      have isOrder := compare_finite isLow isHigh otherIsLow otherIsHigh isValue otherIsValue
      cases sign <;> cases otherSign <;> simp only [Sign.apply]
      · rw [UnpackedFloat.compare, isOrder, compare_neg]
      · rw [UnpackedFloat.compare, Int.compare_eq_lt.mpr (by omega)]
      · rw [UnpackedFloat.compare, Int.compare_eq_gt.mpr (by omega)]
      · rw [UnpackedFloat.compare, isOrder]

theorem writes_ofInteger {number : Int} (isInRange : InRange number) :
    Writes (ofInteger number).toModel.unpack (nearest number) := by
  unfold ofInteger
  split
  next isZero =>
    subst isZero
    exact .zero .positive
  next isNonzero =>
    have isNatural : number.natAbs ≠ 0 := by omega
    have isTop : number.natAbs.log2 < 128 := by
      rw [Nat.log2_lt isNatural]
      obtain ⟨isLow, isHigh⟩ := isInRange
      have isLeast : least = -2 ^ 127 := rfl
      have isGreatest : greatest = 2 ^ 127 - 1 := rfl
      omega
    obtain ⟨field, fraction, isBits, isLow, isHigh, isFraction, isValue⟩ := exists_fields isNatural
    have isMagnitude := (nearestMagnitude_bounds isNatural).1
    have isPositive : 0 < nearestMagnitude number.natAbs :=
      lt_of_lt_of_le (by positivity) isMagnitude
    rw [isBits, unpack_ofMagnitude _ (by omega) (by omega) isFraction]
    have isNearest :
        nearest number = (signOf (number < 0)).apply (nearestMagnitude number.natAbs) := by
      rcases nearest_cases number with ⟨isSign, isNearest⟩ | ⟨isSign, isNearest⟩
      · simp [isNearest, signOf, Sign.apply, Int.not_lt.mpr isSign]
      · simp [isNearest, signOf, Sign.apply, isSign]
    have isShift : (field : Int) - 1075 = ((field - 1023 : Nat) : Int) - 52 := by omega
    rw [isNearest]
    simp only [isShift]
    exact .finite _ _ isPositive (by omega) (by omega) isValue

end Binary64

namespace Arithmetic

variable {number other : Int}

open Binary64

theorem lt_iff_compare (first second : Float) :
    first < second ↔ first.toModel.unpack.compare second.toModel.unpack = some .lt := by
  change decide ((first.toModel.unpack.compare second.toModel.unpack == some .lt) = true) = true ↔ _
  simp

theorem beq_iff_compare (first second : Float) :
    (first == second) = true ↔ first.toModel.unpack.compare second.toModel.unpack = some .eq := by
  change (first.toModel.unpack.compare second.toModel.unpack == some .eq) = true ↔ _
  simp

theorem floatOrder?_ofInteger
    (isInRange : InRange number) (otherIsInRange : InRange other) :
    floatOrder? (ofInteger number) (ofInteger other) =
      some (compare (nearest number) (nearest other)) := by
  have isOrder := (writes_ofInteger isInRange).compare_eq (writes_ofInteger otherIsInRange)
  have isReverse := (writes_ofInteger otherIsInRange).compare_eq (writes_ofInteger isInRange)
  unfold floatOrder?
  simp only [lt_iff_compare, beq_iff_compare, isOrder, isReverse, Option.some.injEq,
    Int.compare_eq_lt, Int.compare_eq_eq]
  rcases Int.lt_trichotomy (nearest number) (nearest other) with isLess | isSame | isMore
  · rw [if_pos isLess, Int.compare_eq_lt.mpr isLess]
  · rw [if_neg (by omega), if_neg (by omega), if_pos isSame, Int.compare_eq_eq.mpr isSame]
  · rw [if_neg (by omega), if_pos isMore, Int.compare_eq_gt.mpr isMore]

/-- Constants whose order is that of two whole numbers. -/
structure OrderedAs (left right : Value) (first second : Int) : Prop where
  less : fold .less left right = .ok (.bool (first < second))
  lessOrEqual : fold .lessOrEqual left right = .ok (.bool (first ≤ second))
  greater : fold .greater left right = .ok (.bool (first > second))
  greaterOrEqual : fold .greaterOrEqual left right = .ok (.bool (first ≥ second))

theorem OrderedAs.ofOrder {left right : Value} {first second : Int} (isFinal : left.isFinal = true)
    (otherIsFinal : right.isFinal = true)
    (isOrder : order? left right = some (compare first second)) :
    OrderedAs left right first second := by
  have isFold (operator : BinaryOperator) (relation : Prop) [Decidable relation]
      (isComparison : fold operator left right = compareValues operator left right)
      (isTruth : holds operator (compare first second) = true ↔ relation) :
      fold operator left right = .ok (.bool (decide relation)) := by
    have isSame : holds operator (compare first second) = decide relation := by
      rw [Bool.eq_iff_iff, isTruth, decide_eq_true_iff]
    rw [isComparison, compareValues, isOrder, ← isSame]
  constructor
  · exact isFold .less _ (by simp [fold, isFinal, otherIsFinal])
      (by simp [holds, Int.compare_eq_lt])
  · exact isFold .lessOrEqual _ (by simp [fold, isFinal, otherIsFinal])
      (by simp [holds, Int.isLE_compare])
  · exact isFold .greater _ (by simp [fold, isFinal, otherIsFinal])
      (by simp [holds, Int.compare_eq_gt])
  · exact isFold .greaterOrEqual _ (by simp [fold, isFinal, otherIsFinal])
      (by simp [holds, Int.isGE_compare])

theorem orderedAs_nearest
    (isInRange : InRange number) (otherIsInRange : InRange other)
    (type otherType : BasicType) :
    OrderedAs (.integer number type) (.integer other otherType) (nearest number)
      (nearest other) := by
  refine .ofOrder rfl rfl ?_
  rw [← floatOrder?_ofInteger isInRange otherIsInRange]
  rfl

theorem fold_equal_integers (number other : Int) (type otherType : BasicType) :
    fold .equal (.integer number type) (.integer other otherType) =
      .ok (.bool (number = other)) := by
  simp only [fold, Value.same]
  rfl

end Arithmetic

open Arithmetic Binary64

/--
Integer constants are ordered as the numbers that they are rounded to, which are the
constants themselves up to 53 bits. Rounding keeps the order, so that of two constants
the smaller one is never taken for the greater; but only constants that are the same
are equal.
-/
theorem integers_are_ordered_as_rounded
    {number other : Int}
    (isInRange : Integer.InRange number)
    (otherIsInRange : Integer.InRange other)
    (type otherType : BasicType) :
    ∃ rounded otherRounded,
      IsNearest number rounded ∧ IsNearest other otherRounded ∧
        (number.natAbs ≤ 2 ^ 53 → rounded = number) ∧
        (other.natAbs ≤ 2 ^ 53 → otherRounded = other) ∧
        (number ≤ other → rounded ≤ otherRounded) ∧
        (other ≤ number → otherRounded ≤ rounded) ∧
        OrderedAs (.integer number type) (.integer other otherType) rounded otherRounded ∧
        fold .equal (.integer number type) (.integer other otherType) =
          .ok (.bool (number = other)) := by
  have isNearest := isNearest_nearest number
  have otherIsNearest := isNearest_nearest other
  refine ⟨nearest number, nearest other, isNearest, otherIsNearest, ?_, ?_, nearest_mono,
    nearest_mono, orderedAs_nearest isInRange otherIsInRange type otherType,
    fold_equal_integers number other type otherType⟩
  · exact fun isSmall => isNearest.eq_of_isRepresentable (isRepresentable_of_le isSmall)
  · exact fun isSmall => otherIsNearest.eq_of_isRepresentable (isRepresentable_of_le isSmall)

/-- Two numbers halfway between representable ones are ordered as they are rounded. -/
theorem halfway_integers_are_ordered_as_rounded :
    Integer.InRange 9007199254740993 ∧ Integer.InRange 9007199254740995 ∧
      ∃ rounded otherRounded,
        IsNearest 9007199254740993 rounded ∧ IsNearest 9007199254740995 otherRounded ∧
          OrderedAs (.integer 9007199254740993 .ulong) (.integer 9007199254740995 .long)
            rounded otherRounded := by
  have isInRange : InRange 9007199254740993 := by decide +kernel
  have otherIsInRange : InRange 9007199254740995 := by decide +kernel
  obtain ⟨rounded, otherRounded, isNearest, otherIsNearest, -, -, -, -, isOrdered, -⟩ :=
    integers_are_ordered_as_rounded isInRange otherIsInRange .ulong .long
  exact ⟨isInRange, otherIsInRange, rounded, otherRounded, isNearest, otherIsNearest, isOrdered⟩

/-- The first number of 54 bits is neither below the next one nor equal to it nor above it. -/
theorem neighbours_of_54_bits_have_no_order :
    (9007199254740992 : Int) < 9007199254740993 ∧
      ∀ operator ∈ [BinaryOperator.less, .equal, .greater],
        fold operator (.integer 9007199254740992 .ulong) (.integer 9007199254740993 .ulong) =
          .ok (.bool false) := by
  have isInRange : InRange 9007199254740992 := by decide +kernel
  have otherIsInRange : InRange 9007199254740993 := by decide +kernel
  have isOrdered := orderedAs_nearest isInRange otherIsInRange .ulong .ulong
  have isRounded : nearest 9007199254740993 = nearest 9007199254740992 := by decide +kernel
  rw [isRounded] at isOrdered
  refine ⟨by decide, ?_⟩
  simp only [List.forall_mem_cons]
  refine ⟨by simpa using isOrdered.less, ?_, by simpa using isOrdered.greater⟩
  simp [fold_equal_integers]

end DScope
