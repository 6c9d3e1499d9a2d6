namespace DScope.Integer

/-!
# Integers of limited width

Integer constants are whole numbers of at most 128 bits with a sign. The
checked operations give a result only when it stays inside that range.
-/

def least : Int := -Int.pow 2 127

def greatest : Int := Int.pow 2 127 - 1

/-- Whether a number is an integer constant. -/
def InRange (number : Int) : Prop :=
  least ≤ number ∧ number ≤ greatest

instance (number : Int) : Decidable (InRange number) :=
  inferInstanceAs (Decidable (_ ∧ _))

/-- The number itself when it is an integer constant. -/
def checked? (number : Int) : Option Int :=
  if InRange number then some number else none

/-- The number of values of a 64-bit word, which bounds lengths and sizes. -/
def wordBound : Nat := Nat.pow 2 64

def fitsWord (number : Nat) : Bool :=
  number < wordBound

/-- The value of a run of decimal digits, at least one of them. -/
def digits? (text : List Char) : Option Nat :=
  if !text.isEmpty && text.all Char.isDigit then
    some (text.foldl (fun total digit => total * 10 + (digit.toNat - '0'.toNat)) 0)
  else
    none

/-- Reads a decimal number with an optional sign, inside the range. -/
def read? (text : String) : Option Int :=
  match text.toList with
  | '-' :: rest => (digits? rest).bind fun number => checked? (-(number : Int))
  | '+' :: rest => (digits? rest).bind fun number => checked? number
  | rest => (digits? rest).bind fun number => checked? number

/-- Reads a decimal 64-bit word; a plus sign may stand in front. -/
def readWord? (text : String) : Option Nat :=
  let digits := match text.toList with
    | '+' :: rest => rest
    | rest => rest
  (digits? digits).filter fitsWord

end DScope.Integer
