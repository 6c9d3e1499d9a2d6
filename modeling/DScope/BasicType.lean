namespace DScope

/-!
# Built-in types

The keywords that name a type by themselves, with their storage sizes, and the
type constructors such as `const` that may be wrapped around any type.
-/

/-- The built-in type keywords, in the order in which they are listed. -/
inductive BasicType where
  | void
  | bool
  | byte
  | ubyte
  | short
  | ushort
  | int
  | uint
  | long
  | ulong
  | cent
  | ucent
  | float
  | double
  | real
  | char
  | wchar
  | dchar
deriving Repr, DecidableEq, Inhabited

namespace BasicType

def all : List BasicType :=
  [void, bool, byte, ubyte, short, ushort, int, uint, long, ulong, cent, ucent,
    float, double, real, char, wchar, dchar]

def keyword : BasicType → String
  | void => "void"
  | bool => "bool"
  | byte => "byte"
  | ubyte => "ubyte"
  | short => "short"
  | ushort => "ushort"
  | int => "int"
  | uint => "uint"
  | long => "long"
  | ulong => "ulong"
  | cent => "cent"
  | ucent => "ucent"
  | float => "float"
  | double => "double"
  | real => "real"
  | char => "char"
  | wchar => "wchar"
  | dchar => "dchar"

def ofKeyword? (keyword : String) : Option BasicType :=
  all.find? (·.keyword == keyword)

def isFloating : BasicType → Bool
  | float | double | real => true
  | _ => false

def isCharacter : BasicType → Bool
  | char | wchar | dchar => true
  | _ => false

/-- Whether the values are integers, truth values and characters included. -/
def isIntegral : BasicType → Bool
  | void | float | double | real => false
  | _ => true

/-- The storage size in bytes; `void` has none. -/
def size? : BasicType → Option Nat
  | void => none
  | bool | byte | ubyte | char => some 1
  | short | ushort | wchar => some 2
  | int | uint | float | dchar => some 4
  | long | ulong | double => some 8
  | real => some 10
  | cent | ucent => some 16

end BasicType

/-- The type constructors that qualify access to a value. -/
inductive Modifier where
  | const
  | immutable
  | shared
  | inout
deriving Repr, DecidableEq

namespace Modifier

def keyword : Modifier → String
  | const => "const"
  | immutable => "immutable"
  | shared => "shared"
  | inout => "inout"

def ofKeyword? (keyword : String) : Option Modifier :=
  [const, immutable, shared, inout].find? (·.keyword == keyword)

end Modifier

end DScope
