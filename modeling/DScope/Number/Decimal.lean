import DScope.Number.Binary64

namespace DScope.Decimal

/-!
# Decimal text of floating-point numbers

The text of a number has the fewest significant digits that still read back as
that number, and of those the digits nearest to it; an exact tie goes upward.
Digits are always written by position, without an exponent.

The search compares exact multiples: a number `m * 2 ^ e` reads back from every
decimal between the midpoints to its two neighbours, midpoints included when
`m` is even.
-/

/--
The decimals that read back as one number, over a common denominator.

A decimal `d / unit` reads back when `low ≤ d * scale ≤ high` with the ends
themselves allowed only when `closed`.
-/
structure Interval where
  value : Nat
  low : Nat
  high : Nat
  closed : Bool
deriving Repr, DecidableEq

namespace Interval

def holds (interval : Interval) (decimal : Nat) : Bool :=
  if interval.closed then
    interval.low ≤ decimal && decimal ≤ interval.high
  else
    interval.low < decimal && decimal < interval.high

end Interval

/--
The interval of `significand * 2 ^ exponent` in units of
`2 ^ (exponent - 2)`, or of a quarter when the exponent is not negative.

The gap below a power of two is half as wide as the gap above it.
-/
def interval (significand : Nat) (exponent : Int) : Interval :=
  let below :=
    if significand = Binary64.leadingBit && Binary64.leastExponent < exponent then 1 else 2
  { value := 4 * significand
    low := 4 * significand - below
    high := 4 * significand + 2
    closed := significand % 2 == 0 }

/-- The exponent of the highest decimal digit of `numerator / denominator`. -/
def magnitude (numerator denominator : Nat) : Int :=
  let guess : Int :=
    ((toString (numerator / denominator)).length : Int) - 1
  if denominator ≤ numerator then
    guess
  else
    -- The ratio is below one: `10 ^ k * numerator` first reaches the denominator at `-k`.
    let digits := (toString (denominator / numerator)).length
    if denominator ≤ numerator * Nat.pow 10 (digits - 1) then
      -((digits : Int) - 1)
    else
      -(digits : Int)

/--
The decimal `digits * 10 ^ place` with one candidate on each side of the value,
if one of them reads back.
-/
def onGrid? (range : Interval) (numerator denominator : Nat) (place : Int) : Option Nat :=
  -- The value is `range.value * numerator / denominator`; a grid step is `10 ^ place`.
  let scale := denominator * (if 0 ≤ place then Nat.pow 10 place.toNat else 1)
  let lift := numerator * (if place < 0 then Nat.pow 10 (-place).toNat else 1)
  let scaled : Interval :=
    { value := range.value * lift
      low := range.low * lift
      high := range.high * lift
      closed := range.closed }
  let down := scaled.value / scale
  let rest := scaled.value % scale
  let downHolds := scaled.holds (down * scale)
  let upHolds := scaled.holds ((down + 1) * scale)
  if upHolds && (!downHolds || scale ≤ 2 * rest) then
    some (down + 1)
  else if downHolds then
    some down
  else
    none

/-- The first grid with a hit, from the coarsest of one digit to ever finer ones. -/
def search (range : Interval) (numerator denominator : Nat) : Nat → Int → Nat × Int
  | 0, place => (range.value * numerator / denominator, place)
  | steps + 1, place =>
    match onGrid? range numerator denominator place with
    | some digits => (digits, place)
    | none => search range numerator denominator steps (place - 1)

/-- The shortest decimal `digits * 10 ^ place` of a positive finite number. -/
def shortest (significand : Nat) (exponent : Int) : Nat × Int :=
  let range := interval significand exponent
  let numerator := Nat.pow 2 (exponent - 2).toNat
  let denominator := Nat.pow 2 (2 - exponent).toNat
  let top := magnitude (range.value * numerator) denominator
  search range numerator denominator 20 top

/-- Writes `digits * 10 ^ place` by position, without trailing zeros after the point. -/
def positional (digits : Nat) (place : Int) : String :=
  let text := toString digits
  if 0 ≤ place then
    text ++ String.ofList (List.replicate place.toNat '0')
  else
    let places := (-place).toNat
    let characters := text.toList
    let padded := List.replicate (places + 1 - characters.length) '0' ++ characters
    let whole := padded.take (padded.length - places)
    let fraction := (padded.drop (padded.length - places)).reverse.dropWhile (· == '0')
    if fraction.isEmpty then
      String.ofList whole
    else
      String.ofList whole ++ "." ++ String.ofList fraction.reverse

def text (number : Float) : String :=
  if number.isNaN then
    "NaN"
  else
    let sign := if Binary64.isNegative number then "-" else ""
    if number.isInf then
      sign ++ "inf"
    else
      let parts := Binary64.parts number
      if parts.significand = 0 then
        sign ++ "0"
      else
        let (digits, place) := shortest parts.significand parts.exponent
        sign ++ positional digits place

end DScope.Decimal
