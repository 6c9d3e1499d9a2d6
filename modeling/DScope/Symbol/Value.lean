import DScope.Symbol
import DScope.Term.Text

namespace DScope

/-!
# Constants

What a constant is worth as a truth value, as a whole number or as a
floating-point number, the type it has, and how it is written.
-/

namespace Value

def int (number : Int) : Value :=
  integer number .int

/-- A length or a count, of type `ulong`. -/
def size (number : Nat) : Value :=
  integer number .ulong

/-- The constant that a literal writes. -/
def ofLiteral : Literal → Value
  | .integer number basic => integer number basic
  | .float number basic => float number basic
  | .bool truth => bool truth
  | .character code => character code
  | .string text => string text
  | .null => null

/-- Whether the constant is fully known. -/
def isFinal : Value → Bool
  | symbolic _ => false
  | _ => true

/-- Whether a condition holds with this constant, if that is known. -/
def truth? : Value → Option Bool
  | integer number _ => some (number != 0)
  | float number _ => some (number != 0)
  | bool truth => some truth
  | character code => some (code.toNat != 0)
  | string _ | array _ | type _ => some true
  | null => some false
  | symbolic _ => none

/-- The constant as a whole number. -/
def integer? : Value → Option Int
  | integer number _ => some number
  | bool truth => some (if truth then 1 else 0)
  | character code => some code.toNat
  | _ => none

/-- The constant as a floating-point number; whole numbers are rounded to the nearest. -/
def float? : Value → Option Float
  | float number _ => some number
  | other => other.integer?.map Binary64.ofInteger

mutual

def representedType : Value → Option Symbol
  | integer _ basic | float _ basic => some (Symbol.primitive basic)
  | bool _ => some (Symbol.primitive .bool)
  | character _ => some (Symbol.primitive .char)
  | string _ => some Symbol.string
  | array items => some (Symbol.fixedArray (firstType items) items.length)
  | type symbol => some symbol
  | null | symbolic _ => none

/-- The type of the first of several constants. -/
def firstType : List Value → Option Symbol
  | [] => none
  | first :: _ => representedType first

end

mutual

def text : Value → String
  | integer number _ => toString number
  | float number _ => Decimal.text number
  | bool truth => if truth then "true" else "false"
  | character code => "'" ++ code.toString ++ "'"
  | string text => "\"" ++ text ++ "\""
  | array items => "[" ++ commaSeparated (texts items) ++ "]"
  | type _ => "<type>"
  | null => "null"
  | symbolic text => text

def texts : List Value → List String
  | [] => []
  | value :: rest => text value :: texts rest

end

end Value

end DScope
