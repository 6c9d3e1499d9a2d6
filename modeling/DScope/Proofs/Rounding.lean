import DScope.Number.Binary64
import Mathlib.Algebra.Order.Ring.Int
import Mathlib.Tactic.Linarith
import Mathlib.Tactic.Ring

namespace DScope.Binary64

/-!
# Rounding of whole numbers

A whole number is rounded to the nearest one that 53 bits and a power of two can
write. This module says what being nearest means, and shows that the bits of
`nearestBits` write the nearest number.
-/

open Nat hiding eq_zero_or_pos

variable {number : Nat}

/-! ## Nearest numbers -/

/-- A whole number with at most 53 significant bits. -/
def IsRepresentable (value : Int) : Prop :=
  ∃ significand exponent : Nat, significand < 2 ^ 53 ∧ value.natAbs = significand * 2 ^ exponent

/-- A whole number that ends in a zero when it is written with 53 significant bits. -/
def HasEvenSignificand (value : Int) : Prop :=
  ∃ half exponent : Nat,
    2 ^ 51 ≤ half ∧ half < 2 ^ 52 ∧ value.natAbs = 2 * half * 2 ^ exponent

/-- The representable number nearest to a whole number; of two the one with even significand. -/
structure IsNearest (number value : Int) : Prop where
  isRepresentable : IsRepresentable value
  closest :
    ∀ other, IsRepresentable other → (number - value).natAbs ≤ (number - other).natAbs
  tie :
    ∀ other,
      IsRepresentable other →
        other ≠ value →
        (number - value).natAbs = (number - other).natAbs →
          HasEvenSignificand value

theorem isRepresentable_of_le {value : Int} (isSmall : value.natAbs ≤ 2 ^ 53) :
    IsRepresentable value := by
  rcases lt_or_eq_of_le isSmall with isBelow | isPower
  · exact ⟨value.natAbs, 0, isBelow, by simp⟩
  · exact ⟨2 ^ 52, 1, by norm_num, isPower⟩

theorem IsNearest.eq_of_isRepresentable {number value : Int} (isNearest : IsNearest number value)
    (isRepresentable : IsRepresentable number) : value = number := by
  have isClose := isNearest.closest number isRepresentable
  omega

/-! ## Multiples of a unit -/

/-- How often a unit goes into a number, rounded to the nearest, a tie to the even one. -/
def nearestMultiple (number unit : Nat) : Nat :=
  if unit < 2 * (number % unit) ∨ 2 * (number % unit) = unit ∧ number / unit % 2 = 1 then
    number / unit + 1
  else
    number / unit

section Multiples

variable {other unit : Nat}

theorem multiple_apart (count other unit : Nat) :
    other * unit + unit ≤ count * unit ∨ other = count ∨ count * unit + unit ≤ other * unit := by
  rcases lt_trichotomy other count with isBelow | isSame | isAbove
  · exact .inl (by simpa [succ_mul] using mul_le_mul_right unit (succ_le_of_lt isBelow))
  · exact .inr (.inl isSame)
  · exact .inr (.inr (by
      simpa [succ_mul] using mul_le_mul_right unit (succ_le_of_lt isAbove)))

theorem nearestMultiple_cases (number unit : Nat) :
    nearestMultiple number unit = number / unit ∧ 2 * (number % unit) ≤ unit ∨
      nearestMultiple number unit = number / unit + 1 ∧ unit ≤ 2 * (number % unit) := by
  unfold nearestMultiple
  split <;> omega

theorem nearestMultiple_closest (number : Nat) (isUnit : 0 < unit) (count : Nat) :
    ((number : Int) - (nearestMultiple number unit * unit : Nat)).natAbs ≤
      ((number : Int) - (count * unit : Nat)).natAbs := by
  have isWhole : number / unit * unit + number % unit = number := div_add_mod' number unit
  have isRest := mod_lt number isUnit
  have apart := multiple_apart (number / unit) count unit
  have isNext : (number / unit + 1) * unit = number / unit * unit + unit := succ_mul _ _
  rcases nearestMultiple_cases number unit with ⟨isMultiple, isLow⟩ | ⟨isMultiple, isHigh⟩ <;>
    rw [isMultiple]
  · rcases apart with isBelow | rfl | isAbove <;> omega
  · rcases apart with isBelow | rfl | isAbove <;> omega

theorem nearestMultiple_even
    {count : Nat} (isUnit : 0 < unit) (isOther : count ≠ nearestMultiple number unit)
    (isTie :
      ((number : Int) - (nearestMultiple number unit * unit : Nat)).natAbs =
        ((number : Int) - (count * unit : Nat)).natAbs) :
    nearestMultiple number unit % 2 = 0 := by
  have isWhole : number / unit * unit + number % unit = number := div_add_mod' number unit
  have isRest := mod_lt number isUnit
  have isNext : (number / unit + 1) * unit = number / unit * unit + unit := succ_mul _ _
  have apart := multiple_apart (number / unit) count unit
  have apartNext := multiple_apart (number / unit + 1) count unit
  unfold nearestMultiple at isOther isTie ⊢
  split at isTie
  next isUp =>
    rw [if_pos isUp] at isOther ⊢
    omega
  next isDown =>
    rw [if_neg isDown] at isOther ⊢
    omega

theorem nearestMultiple_mono (unit : Nat) (isLe : number ≤ other) :
    nearestMultiple number unit ≤ nearestMultiple other unit := by
  have isQuotient : number / unit ≤ other / unit := Nat.div_le_div_right isLe
  have isWhole : number / unit * unit + number % unit = number := div_add_mod' number unit
  have otherIsWhole : other / unit * unit + other % unit = other := div_add_mod' other unit
  rcases lt_or_eq_of_le isQuotient with isBelow | isSame
  · have := nearestMultiple_cases number unit
    have := nearestMultiple_cases other unit
    omega
  · unfold nearestMultiple
    rw [isSame] at isWhole ⊢
    split <;> split <;> omega

theorem nearestMultiple_one (number : Nat) : nearestMultiple number 1 = number := by
  simp [nearestMultiple, mod_one]

end Multiples

/-! ## The nearest number -/

/-- The distance between representable numbers about as large as the number. -/
def unitOf (number : Nat) : Nat :=
  2 ^ (number.log2 - 52)

/-- The significand that a number is rounded to, in units. -/
def significandOf (number : Nat) : Nat :=
  nearestMultiple number (unitOf number)

/-- The representable number nearest to a number without a sign. -/
def nearestMagnitude (number : Nat) : Nat :=
  significandOf number * unitOf number

/-- The representable number nearest to a whole number. -/
def nearest (number : Int) : Int :=
  number.sign * nearestMagnitude number.natAbs

section Nearest

variable {other : Nat} {value : Nat}

theorem unitOf_pos (number : Nat) : 0 < unitOf number := by
  unfold unitOf
  positivity

theorem two_pow_log2_add (isLarge : 52 ≤ number.log2) (bits : Nat) :
    2 ^ (number.log2 + bits) = 2 ^ (52 + bits) * unitOf number := by
  rw [unitOf, ← pow_add]
  congr 1
  omega

theorem unitOf_of_small (isSmall : number.log2 ≤ 52) : unitOf number = 1 := by
  rw [unitOf, Nat.sub_eq_zero_of_le isSmall, pow_zero]

theorem significandOf_of_small (isSmall : number.log2 ≤ 52) : significandOf number = number := by
  rw [significandOf, unitOf_of_small isSmall, nearestMultiple_one]

theorem significandOf_bounds (isLarge : 52 ≤ number.log2) :
    2 ^ 52 ≤ significandOf number ∧ significandOf number ≤ 2 ^ 53 := by
  have isNonzero : number ≠ 0 := by
    rintro rfl
    simp at isLarge
  have isUnit := unitOf_pos number
  have isLow : 2 ^ 52 ≤ number / unitOf number := by
    rw [le_div_iff_mul_le isUnit, ← two_pow_log2_add isLarge 0]
    exact log2_self_le isNonzero
  have isHigh : number / unitOf number < 2 ^ 53 := by
    rw [div_lt_iff_lt_mul isUnit, ← two_pow_log2_add isLarge 1]
    exact lt_log2_self
  have := nearestMultiple_cases number (unitOf number)
  unfold significandOf
  omega

theorem nearestMagnitude_of_small (isSmall : number.log2 ≤ 52) :
    nearestMagnitude number = number := by
  rw [nearestMagnitude, significandOf_of_small isSmall, unitOf_of_small isSmall, mul_one]

theorem nearestMagnitude_bounds (isNonzero : number ≠ 0) :
    2 ^ number.log2 ≤ nearestMagnitude number ∧
      nearestMagnitude number ≤ 2 ^ (number.log2 + 1) := by
  rcases le_total number.log2 52 with isSmall | isLarge
  · rw [nearestMagnitude_of_small isSmall]
    exact ⟨log2_self_le isNonzero, lt_log2_self.le⟩
  · obtain ⟨isLow, isHigh⟩ := significandOf_bounds isLarge
    have isTop := two_pow_log2_add isLarge 0
    rw [two_pow_log2_add isLarge 1]
    exact ⟨isTop ▸ mul_le_mul_right _ isLow, mul_le_mul_right _ isHigh⟩

theorem nearestMagnitude_mono (isLe : number ≤ other) :
    nearestMagnitude number ≤ nearestMagnitude other := by
  rcases Nat.eq_zero_or_pos number with rfl | isPositive
  · simp [nearestMagnitude_of_small]
  have isNonzero : number ≠ 0 := by omega
  have otherIsNonzero : other ≠ 0 := by omega
  have isTop : number.log2 ≤ other.log2 := by
    rw [le_log2 otherIsNonzero]
    exact le_trans (log2_self_le isNonzero) isLe
  rcases lt_or_eq_of_le isTop with isBelow | isSame
  · calc
      nearestMagnitude number ≤ 2 ^ (number.log2 + 1) := (nearestMagnitude_bounds isNonzero).2
      _ ≤ 2 ^ other.log2 := Nat.pow_le_pow_right (by norm_num) isBelow
      _ ≤ nearestMagnitude other := (nearestMagnitude_bounds otherIsNonzero).1
  · have isUnit : unitOf number = unitOf other := by rw [unitOf, isSame, unitOf]
    unfold nearestMagnitude significandOf
    rw [isUnit]
    exact mul_le_mul_right _ (nearestMultiple_mono (unitOf other) isLe)

theorem exists_significand (isLarge : 52 ≤ number.log2) :
    ∃ significand exponent,
      2 ^ 52 ≤ significand ∧ significand < 2 ^ 53 ∧
        nearestMagnitude number = significand * 2 ^ exponent ∧
        (significandOf number % 2 = 0 → significand % 2 = 0) := by
  obtain ⟨isLow, isHigh⟩ := significandOf_bounds isLarge
  rcases lt_or_eq_of_le isHigh with isBelow | isCarry
  · exact ⟨significandOf number, number.log2 - 52, isLow, isBelow, rfl, id⟩
  · refine ⟨2 ^ 52, number.log2 - 51, le_rfl, by norm_num, ?_, fun _ => by norm_num⟩
    rw [nearestMagnitude, isCarry, unitOf, ← pow_add, ← pow_add]
    congr 1
    omega

theorem isRepresentable_nearestMagnitude (number : Nat) :
    IsRepresentable (nearestMagnitude number) := by
  rcases le_total number.log2 52 with isSmall | isLarge
  · rw [nearestMagnitude_of_small isSmall]
    apply isRepresentable_of_le
    rw [Int.natAbs_natCast]
    exact le_trans lt_log2_self.le (Nat.pow_le_pow_right (by norm_num) (by omega))
  · obtain ⟨significand, exponent, -, isBelow, isValue, -⟩ := exists_significand isLarge
    exact ⟨significand, exponent, isBelow, isValue⟩

theorem IsRepresentable.multiple_or_lt {value : Nat} (isRepresentable : IsRepresentable value)
    (number : Nat) :
    (∃ count, value = count * unitOf number) ∨
      52 ≤ number.log2 ∧ value < 2 ^ 52 * unitOf number := by
  obtain ⟨significand, exponent, isBelow, isValue⟩ := isRepresentable
  rw [Int.natAbs_natCast] at isValue
  rcases Nat.lt_or_ge exponent (number.log2 - 52) with isFiner | isCoarser
  · refine .inr ⟨by omega, ?_⟩
    calc
      value = significand * 2 ^ exponent := isValue
      _ < 2 ^ 53 * 2 ^ exponent := Nat.mul_lt_mul_of_pos_right isBelow (by positivity)
      _ = 2 ^ 52 * 2 ^ (exponent + 1) := by ring
      _ ≤ 2 ^ 52 * unitOf number :=
        Nat.mul_le_mul_left _ (Nat.pow_le_pow_right (by norm_num) isFiner)
  · refine .inl ⟨significand * 2 ^ (exponent - (number.log2 - 52)), ?_⟩
    rw [isValue, unitOf, Nat.mul_assoc, ← pow_add, Nat.sub_add_cancel isCoarser]

theorem two_pow_mul_unitOf_le (isLarge : 52 ≤ number.log2) : 2 ^ 52 * unitOf number ≤ number := by
  rw [← two_pow_log2_add isLarge 0]
  exact log2_self_le (by rintro rfl; simp at isLarge)

theorem nearestMagnitude_closest (number : Nat) (isRepresentable : IsRepresentable value) :
    ((number : Int) - nearestMagnitude number).natAbs ≤ ((number : Int) - value).natAbs := by
  have isUnit := unitOf_pos number
  rcases isRepresentable.multiple_or_lt number with ⟨count, rfl⟩ | ⟨isLarge, isBelow⟩
  · exact nearestMultiple_closest number isUnit count
  · have isReached := two_pow_mul_unitOf_le isLarge
    have isClose := nearestMultiple_closest number isUnit (2 ^ 52)
    unfold nearestMagnitude significandOf
    omega

theorem hasEvenSignificand_nearestMagnitude
    (isRepresentable : IsRepresentable value) (isOther : value ≠ nearestMagnitude number)
    (isTie : ((number : Int) - nearestMagnitude number).natAbs = ((number : Int) - value).natAbs) :
    HasEvenSignificand (nearestMagnitude number) := by
  have isUnit := unitOf_pos number
  have isLarge : 52 ≤ number.log2 := by
    by_contra isSmall
    rw [nearestMagnitude_of_small (by omega)] at isOther isTie
    omega
  obtain ⟨significand, exponent, isLow, isBelow, isValue, isEven⟩ := exists_significand isLarge
  rcases isRepresentable.multiple_or_lt number with ⟨count, rfl⟩ | ⟨-, isBelow⟩
  · have isDouble := isEven (nearestMultiple_even isUnit (fun isSame => isOther ?_) isTie)
    · refine ⟨significand / 2, exponent, by omega, by omega, ?_⟩
      rw [Nat.mul_div_cancel' (Nat.dvd_of_mod_eq_zero isDouble), Int.natAbs_natCast, isValue]
    · rw [isSame, nearestMagnitude, significandOf]
  · have isReached := two_pow_mul_unitOf_le isLarge
    have isClose := nearestMultiple_closest number isUnit (2 ^ 52)
    unfold nearestMagnitude significandOf at isTie
    omega

end Nearest

theorem nearest_cases (number : Int) :
    0 ≤ number ∧ nearest number = nearestMagnitude number.natAbs ∨
      number < 0 ∧ nearest number = -nearestMagnitude number.natAbs := by
  unfold nearest
  rcases Int.lt_trichotomy number 0 with isNegative | rfl | isPositive
  · exact .inr ⟨isNegative, by rw [Int.sign_eq_neg_one_of_neg isNegative, Int.neg_one_mul]⟩
  · exact .inl ⟨le_rfl, by simp [nearestMagnitude_of_small]⟩
  · exact .inl ⟨isPositive.le, by rw [Int.sign_eq_one_of_pos isPositive, Int.one_mul]⟩

theorem nearest_mono {number other : Int} (isLe : number ≤ other) :
    nearest number ≤ nearest other := by
  rcases nearest_cases number with ⟨isSign, isNearest⟩ | ⟨isSign, isNearest⟩ <;>
    rcases nearest_cases other with ⟨otherIsSign, otherIsNearest⟩ | ⟨otherIsSign, otherIsNearest⟩
  · have := nearestMagnitude_mono (show number.natAbs ≤ other.natAbs by omega)
    omega
  · omega
  · omega
  · have := nearestMagnitude_mono (show other.natAbs ≤ number.natAbs by omega)
    omega

theorem IsRepresentable.natAbs {value : Int} (isRepresentable : IsRepresentable value) :
    IsRepresentable value.natAbs := by
  obtain ⟨significand, exponent, isBelow, isValue⟩ := isRepresentable
  exact ⟨significand, exponent, isBelow, by rw [Int.natAbs_natCast, isValue]⟩

theorem isNearest_nearest (number : Int) : IsNearest number (nearest number) := by
  have isCase := nearest_cases number
  have isMagnitude : (nearest number).natAbs = nearestMagnitude number.natAbs := by omega
  constructor
  · obtain ⟨significand, exponent, isBelow, isValue⟩ :=
      isRepresentable_nearestMagnitude number.natAbs
    exact ⟨significand, exponent, isBelow, isMagnitude.trans isValue⟩
  · intro other isRepresentable
    have isClose := nearestMagnitude_closest number.natAbs isRepresentable.natAbs
    omega
  · intro other isRepresentable isOther isTie
    -- A number of the other sign is farther away than its magnitude, so there is no tie with it.
    have isClose := nearestMagnitude_closest number.natAbs isRepresentable.natAbs
    have isZero : number = 0 → nearestMagnitude number.natAbs = 0 := by
      rintro rfl
      simp [nearestMagnitude_of_small]
    have isOtherMagnitude : other.natAbs ≠ nearestMagnitude number.natAbs := by omega
    obtain ⟨half, exponent, isLow, isBelow, isValue⟩ :=
      hasEvenSignificand_nearestMagnitude isRepresentable.natAbs isOtherMagnitude (by omega)
    exact ⟨half, exponent, isLow, isBelow, isMagnitude.trans isValue⟩

/-! ## Bits of the nearest number -/

section Bits

/-- The significand that a number is rounded to, moved to the place of the leading bit. -/
def alignedSignificand (number : Nat) : Nat :=
  significandOf number * 2 ^ (52 - number.log2)

theorem nearestBits_eq (number : Nat) :
    nearestBits number = (number.log2 + 1022) * 2 ^ 52 + alignedSignificand number := by
  have isLeading : leadingBit = 2 ^ 52 := rfl
  simp only [nearestBits, isLeading]
  split
  next isSmall => rw [alignedSignificand, significandOf_of_small isSmall, pow_eq]
  next isLarge =>
    have isNoShift : 52 - number.log2 = 0 := by omega
    have isUnit : Nat.pow 2 (number.log2 - 52) = unitOf number := rfl
    rw [isUnit]
    simp [alignedSignificand, isNoShift, significandOf, nearestMultiple]

theorem alignedSignificand_mul (number : Nat) :
    alignedSignificand number * 2 ^ number.log2 = nearestMagnitude number * 2 ^ 52 := by
  unfold alignedSignificand nearestMagnitude unitOf
  rw [mul_assoc, mul_assoc, ← pow_add, ← pow_add]
  congr 2
  omega

theorem alignedSignificand_bounds (isNonzero : number ≠ 0) :
    2 ^ 52 ≤ alignedSignificand number ∧ alignedSignificand number ≤ 2 ^ 53 := by
  have isPower : 0 < 2 ^ number.log2 := by positivity
  have isAligned := alignedSignificand_mul number
  obtain ⟨isLow, isHigh⟩ := nearestMagnitude_bounds isNonzero
  constructor
  · refine le_of_mul_le_mul_right ?_ isPower
    rw [isAligned, mul_comm]
    exact mul_le_mul_right _ isLow
  · refine le_of_mul_le_mul_right ?_ isPower
    calc
      alignedSignificand number * 2 ^ number.log2 = nearestMagnitude number * 2 ^ 52 := isAligned
      _ ≤ 2 ^ (number.log2 + 1) * 2 ^ 52 := mul_le_mul_right _ isHigh
      _ = 2 ^ 53 * 2 ^ number.log2 := by ring

/--
The bits of a rounded number are an exponent field and a fraction of 52 bits, and these
write the nearest number.
-/
theorem exists_fields (isNonzero : number ≠ 0) :
    ∃ field fraction,
      nearestBits number = field * 2 ^ 52 + fraction ∧
        1023 ≤ field ∧ field ≤ number.log2 + 1024 ∧ fraction < 2 ^ 52 ∧
        (2 ^ 52 + fraction) * 2 ^ (field - 1023) = nearestMagnitude number * 2 ^ 52 := by
  obtain ⟨isLow, isHigh⟩ := alignedSignificand_bounds isNonzero
  rcases lt_or_eq_of_le isHigh with isBelow | isCarry
  · refine ⟨number.log2 + 1023, alignedSignificand number - 2 ^ 52, ?_, by omega, by omega,
      by omega, ?_⟩
    · rw [nearestBits_eq]
      omega
    · rw [Nat.add_sub_cancel' isLow, Nat.add_sub_cancel, alignedSignificand_mul]
  · -- Rounding reached the next power of two.
    refine ⟨number.log2 + 1024, 0, ?_, by omega, by omega, by norm_num, ?_⟩
    · rw [nearestBits_eq]
      omega
    · rw [← alignedSignificand_mul, isCarry,
        show number.log2 + 1024 - 1023 = number.log2 + 1 by omega]
      ring

end Bits

end DScope.Binary64
