import DScope.Property.Owner

namespace DScope.Property

/-!
# Constants of properties

Some properties are constants: sizes, lengths, and the limits of number types.
Sizes that do not fit a 64-bit word are unknown.
-/

/-- The rules by which a property gets its constant. -/
inductive ConstantRule where
  | size
  | length
  | count
  | greatest
  | least
  | infinity
  | undefined
deriving Repr, DecidableEq

/--
The storage size of a type.

Members, aliases and bound parameters are looked through only where the element
of a fixed array is measured, which is when `looksThrough` is set.
-/
def layoutSize (looksThrough : Bool) : Symbol → Option Nat
  | ⟨.primitive type, _, _, _⟩ => type.size?
  | ⟨.pointer _, _, _, _⟩ | ⟨.callable _, _, _, _⟩ | ⟨.associative _ _, _, _, _⟩ => some 8
  | ⟨.array _ none, _, _, _⟩ => some 16
  | ⟨.array (some element) (some length), _, _, _⟩ =>
    ((layoutSize true element).map (· * length)).filter Integer.fitsWord
  | ⟨.enumeration _ (some base), _, _, _⟩ => layoutSize false base
  | ⟨.member ⟨_, some base, _, _⟩, _, _, _⟩ =>
    if looksThrough then layoutSize true base else none
  | ⟨.aliased _ (some base), _, _, _⟩ =>
    if looksThrough then layoutSize true base else none
  | ⟨.parameter ⟨_, some base, _⟩, _, _, _⟩ =>
    if looksThrough then layoutSize true base else none
  | _ => none

/-- The length of a fixed array, below pointers, members, aliases and bound parameters. -/
def fixedLength? : Symbol → Option Nat
  | ⟨.array _ length, _, _, _⟩ => length
  | ⟨.pointer (some base), _, _, _⟩ => fixedLength? base
  | ⟨.member ⟨_, some base, _, _⟩, _, _, _⟩ => fixedLength? base
  | ⟨.aliased _ (some base), _, _, _⟩ => fixedLength? base
  | ⟨.parameter ⟨_, some base, _⟩, _, _, _⟩ => fixedLength? base
  | _ => none

/-- The least and the greatest value of an integral type. -/
def integralRange? : BasicType → Option (Int × Int)
  | .bool => some (0, 1)
  | .byte => some (-Int.pow 2 7, Int.pow 2 7 - 1)
  | .ubyte | .char => some (0, Int.pow 2 8 - 1)
  | .short => some (-Int.pow 2 15, Int.pow 2 15 - 1)
  | .ushort | .wchar => some (0, Int.pow 2 16 - 1)
  | .int => some (-Int.pow 2 31, Int.pow 2 31 - 1)
  | .uint => some (0, Int.pow 2 32 - 1)
  | .dchar => some (0, 0x10FFFF)
  | .long => some (-Int.pow 2 63, Int.pow 2 63 - 1)
  | .ulong => some (0, Int.pow 2 64 - 1)
  | .cent => some (Integer.least, Integer.greatest)
  | .void | .ucent | .float | .double | .real => none

namespace Owner

/-- The built-in type that the owner is, below members and aliases. -/
def basic? (owner : Owner) : Option BasicType :=
  match owner.symbol?.map Symbol.shape with
  | some (.primitive basic) => some basic
  | _ => none

def size? : Owner → Option Nat
  | value (.integer _ basic) | value (.float _ basic) => basic.size?
  | value (.bool _) => some 1
  | owner => owner.symbol?.bind (layoutSize false)

/-- The number of elements of the owner, for text the number of its bytes. -/
def length? : Owner → Option Nat
  | value (.array items) => some items.length
  | value (.string text) => some text.utf8ByteSize
  | type symbol => fixedLength? symbol
  | value (.type symbol) => fixedLength? symbol
  | value _ => none

def count? (owner : Owner) : Option Nat :=
  match owner.symbol?.map Symbol.shape with
  | some (.tuple items) => some items.length
  | _ => none

/-- The integral type whose limits the owner has. -/
def integral? : Owner → Option BasicType
  | value (.integer _ basic) => some basic
  | value (.bool _) => some .bool
  | value (.character _) => some .char
  | owner => owner.basic?

/-- The floating-point type whose special values the owner has. -/
def floating? : Owner → Option BasicType
  | value (.float _ basic) => some basic
  | owner => owner.basic?.filter (·.isFloating)

end Owner

def ConstantRule.constant? (rule : ConstantRule) (owner : Owner) : Option Value :=
  match rule with
  | .size => owner.size?.map fun size => .integer size .uint
  | .length => owner.length?.map fun length => .int length
  | .count => owner.count?.map Value.size
  | .greatest => do
      let basic ← owner.integral?
      let (_, upper) ← integralRange? basic
      return .integer upper basic
  | .least => do
      let basic ← owner.integral?
      let (lower, _) ← integralRange? basic
      return .integer lower basic
  | .infinity => owner.floating?.map fun basic => .float (1 / 0) basic
  | .undefined => owner.floating?.map fun basic => .float (0 / 0) basic

end DScope.Property
