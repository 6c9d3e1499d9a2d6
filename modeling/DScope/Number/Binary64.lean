namespace DScope.Binary64

/-!
# Binary floating-point numbers

A finite 64-bit floating-point number is a sign, a whole significand and a
power of two. This module takes numbers apart, puts them together, rounds whole
numbers to the nearest representable one, and computes exact remainders.
-/

/-- The significand's implicit leading bit. -/
def leadingBit : Nat := Nat.pow 2 52

/-- The exponent of the smallest positive number. -/
def leastExponent : Int := -1074

/-- A finite number: `significand * 2 ^ exponent`, negated when `negative`. -/
structure Parts where
  negative : Bool
  significand : Nat
  exponent : Int
deriving Repr, DecidableEq

def hexDigits : List Char := "0123456789abcdef".toList

/-- The last groups of four bits of a number, written as digits. -/
def hexText : Nat → Nat → List Char
  | 0, _ => []
  | count + 1, bits => hexText count (bits / 16) ++ [hexDigits[bits % 16]?.getD '0']

/-- The bit pattern of a number in sixteen digits; all NaNs share one pattern. -/
def pattern (number : Float) : String :=
  if number.isNaN then
    "7ff8000000000000"
  else
    String.ofList (hexText 16 number.toBits.toNat)

/-- The number with a bit pattern of at most sixteen digits. -/
def ofPattern? (pattern : String) : Option Float := do
  let digits ← pattern.toList.mapM fun digit => hexDigits.idxOf? digit.toLower
  if digits.isEmpty || digits.length > 16 then
    none
  else
    some (Float.ofBits (UInt64.ofNat (digits.foldl (fun bits digit => bits * 16 + digit) 0)))

def isNegative (number : Float) : Bool :=
  number.toBits.toNat ≥ Nat.pow 2 63

def parts (number : Float) : Parts :=
  let bits := number.toBits.toNat
  let fraction := bits % leadingBit
  let field := bits / leadingBit % 2048
  if field = 0 then
    ⟨isNegative number, fraction, leastExponent⟩
  else
    ⟨isNegative number, fraction + leadingBit, (field : Int) - 1075⟩

def ofMagnitude (negative : Bool) (bits : Nat) : Float :=
  Float.ofBits (UInt64.ofNat (if negative then bits + Nat.pow 2 63 else bits))

/--
The bits of the number nearest to a positive whole number, an exact tie going
to the even significand.

Adding the rounded significand, leading bit included, to the exponent field
carries into the next exponent when rounding reaches a power of two.
-/
def nearestBits (number : Nat) : Nat :=
  let top := number.log2
  if top ≤ 52 then
    (top + 1022) * leadingBit + number * Nat.pow 2 (52 - top)
  else
    let unit := Nat.pow 2 (top - 52)
    let quotient := number / unit
    let rest := number % unit
    let up := unit < 2 * rest || (2 * rest == unit && quotient % 2 == 1)
    (top + 1022) * leadingBit + (if up then quotient + 1 else quotient)

/-- The floating-point number nearest to a whole number of at most 128 bits. -/
def ofInteger (number : Int) : Float :=
  if number = 0 then
    ofMagnitude false 0
  else
    ofMagnitude (number < 0) (nearestBits number.natAbs)

/-- The number `significand * 2 ^ exponent`, when it is representable. -/
def compose (negative : Bool) (significand : Nat) (exponent : Int) : Float :=
  if significand = 0 then
    ofMagnitude negative 0
  else
    let top := significand.log2
    let place := max leastExponent (exponent + top - 52)
    let scaled :=
      if place ≤ exponent then
        significand * Nat.pow 2 (exponent - place).toNat
      else
        significand / Nat.pow 2 (place - exponent).toNat
    ofMagnitude negative ((place - leastExponent).toNat * leadingBit + scaled)

/--
The remainder of a division that truncates toward zero.

It has the sign of the dividend and is computed without rounding; an infinite
dividend, a zero divisor or an undefined operand leave it undefined.
-/
def remainder (dividend divisor : Float) : Float :=
  if dividend.isNaN || divisor.isNaN || dividend.isInf || divisor == 0 then
    0 / 0
  else if divisor.isInf then
    dividend
  else
    let first := parts dividend
    let second := parts divisor
    let place := min first.exponent second.exponent
    let total := first.significand * Nat.pow 2 (first.exponent - place).toNat
    let unit := second.significand * Nat.pow 2 (second.exponent - place).toNat
    compose first.negative (total % unit) place

end DScope.Binary64
