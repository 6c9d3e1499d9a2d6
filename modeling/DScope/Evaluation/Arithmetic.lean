import DScope.Conversion
import DScope.Diagnostic

namespace DScope

/-!
# Arithmetic on constants

Operators are folded on constants of any type. Whole numbers are exact and have
128 bits; a result outside that range is an error. As soon as one operand is a
floating-point number, both are taken as such.
-/

namespace BasicType

/-- Whether a size is smaller than another; a missing size is the smallest. -/
def sizeBelow : Option Nat → Option Nat → Bool
  | none, some _ => true
  | some size, some other => size < other
  | _, none => false

/-- The type as which a small whole number takes part in arithmetic. -/
def widened (type : BasicType) : BasicType :=
  if type.size?.getD 4 < 4 then .int else type

/--
The type of the result of arithmetic.

A floating-point type wins over any other, and otherwise the larger type wins
after small types were widened to `int`. Of equal sizes the left one wins.
-/
def promote (left right : BasicType) : BasicType :=
  if left.isFloating then
    if right.isFloating && sizeBelow left.size? right.size? then right else left
  else if right.isFloating then
    right
  else if sizeBelow left.widened.size? right.widened.size? then
    right.widened
  else
    left.widened

end BasicType

namespace Arithmetic

/-- The type as which a constant takes part in arithmetic. -/
def operandType : Value → BasicType
  | .integer _ type | .float _ type => type
  | .character _ => .char
  | .bool _ => .bool
  | _ => .int

def invalid (operator : BinaryOperator) (left right : Value) : EvalError :=
  .invalidOperands operator.sign left.text right.text

/-- The order of two floating-point numbers; a NaN has none. -/
def floatOrder? (left right : Float) : Option Ordering :=
  if left < right then
    some .lt
  else if right < left then
    some .gt
  else if left == right then
    some .eq
  else
    none

/-- The order of two constants: strings by code points, all others as numbers. -/
def order? : Value → Value → Option Ordering
  | .string left, .string right => some (compare left right)
  | left, right =>
    match left.float?, right.float? with
    | some left, some right => floatOrder? left right
    | _, _ => none

def holds : BinaryOperator → Ordering → Bool
  | .less, order => order.isLT
  | .lessOrEqual, order => order.isLE
  | .greater, order => order.isGT
  | _, order => order.isGE

def float? (operator : BinaryOperator) (left right : Float) : Option Float :=
  match operator with
  | .add => some (left + right)
  | .subtract => some (left - right)
  | .multiply => some (left * right)
  | .divide => some (left / right)
  | .remainder => some (Binary64.remainder left right)
  | _ => none

/--
Arithmetic on whole numbers by a divisor other than zero, where the exact result
is in range.

Division goes toward zero. A remainder exists only where the quotient does.
-/
def integer? (operator : BinaryOperator) (left right : Int) : Option Int :=
  match operator with
  | .add => Integer.checked? (left + right)
  | .subtract => Integer.checked? (left - right)
  | .multiply => Integer.checked? (left * right)
  | .divide => Integer.checked? (left.tdiv right)
  | .remainder => (Integer.checked? (left.tdiv right)).map fun _ => left.tmod right
  | _ => none

def divides : BinaryOperator → Bool
  | .divide | .remainder => true
  | _ => false

def concatenate : Value → Value → Except EvalError Value
  | .string left, .string right => .ok (.string (left ++ right))
  | .array left, .array right => .ok (.array (left ++ right))
  | left, right => .error (invalid .concatenate left right)

def compareValues (operator : BinaryOperator) (left right : Value) : Except EvalError Value :=
  match order? left right with
  | some order => .ok (.bool (holds operator order))
  | none => .error (invalid operator left right)

def onIntegers (operator : BinaryOperator) (type : BasicType) (left right : Value) :
    Except EvalError Value :=
  match left.integer?, right.integer? with
  | some first, some second =>
    if divides operator && second == 0 then
      .error .divisionByZero
    else
      match integer? operator first second with
      | some number => .ok (.integer number type)
      | none => .error (invalid operator left right)
  | _, _ => .error (invalid operator left right)

def onFloats (operator : BinaryOperator) (type : BasicType) (left right : Value) :
    Except EvalError Value :=
  match left.float?, right.float? with
  | some first, some second =>
    match float? operator first second with
    | some number => .ok (.float number type)
    | none => .error (invalid operator left right)
  | _, _ => .error (invalid operator left right)

/-- The constant that an operator makes of two constants. -/
def fold (operator : BinaryOperator) (left right : Value) : Except EvalError Value :=
  if !left.isFinal || !right.isFinal then
    .error (.notConstant (left.text ++ " " ++ operator.sign ++ " " ++ right.text))
  else
    match operator with
    | .equal => .ok (.bool (left.same right))
    | .notEqual => .ok (.bool (!left.same right))
    | .concatenate => concatenate left right
    | .less | .lessOrEqual | .greater | .greaterOrEqual => compareValues operator left right
    | _ =>
      let type := (operandType left).promote (operandType right)
      if type.isFloating then
        onFloats operator type left right
      else
        onIntegers operator type left right

end Arithmetic

end DScope
