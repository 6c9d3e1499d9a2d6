import DScope.BasicType
import DScope.Path

namespace DScope

/-!
# Written types and expressions

Types and expressions as they stand in source text, before any name in them is
looked up. The two refer to each other: a type may hold an array length or the
operand of `typeof`, and an expression may name a type.
-/

/-- A constant written out in source text. -/
inductive Literal where
  | integer (value : Int) (type : BasicType)
  | float (value : Float) (type : BasicType)
  | bool (value : Bool)
  | character (value : Char)
  | string (value : String)
  | null
deriving Repr, DecidableEq

inductive BinaryOperator where
  | add
  | subtract
  | multiply
  | divide
  | remainder
  | concatenate
  | equal
  | notEqual
  | less
  | lessOrEqual
  | greater
  | greaterOrEqual
  | and
  | or
deriving Repr, DecidableEq

namespace BinaryOperator

def all : List BinaryOperator :=
  [add, subtract, multiply, divide, remainder, concatenate, equal, notEqual,
    less, lessOrEqual, greater, greaterOrEqual, and, or]

def sign : BinaryOperator → String
  | add => "+"
  | subtract => "-"
  | multiply => "*"
  | divide => "/"
  | remainder => "%"
  | concatenate => "~"
  | equal => "=="
  | notEqual => "!="
  | less => "<"
  | lessOrEqual => "<="
  | greater => ">"
  | greaterOrEqual => ">="
  | and => "&&"
  | or => "||"

def ofSign? (sign : String) : Option BinaryOperator :=
  all.find? (·.sign == sign)

def isComparison : BinaryOperator → Bool
  | equal | notEqual | less | lessOrEqual | greater | greaterOrEqual | and | or => true
  | _ => false

end BinaryOperator

inductive UnaryOperator where
  | not
  | negate
deriving Repr, DecidableEq

/-- The relation tested by `is(T == U)` or `is(T : U)`. -/
inductive TypeRelation where
  | same
  | convertible
deriving Repr, DecidableEq

mutual

/-- A type as written. -/
inductive TypeExpr where
  | basic (type : BasicType)
  /-- A name without template arguments. -/
  | named (name : String)
  /-- A name with an argument list, `name!(arguments)`. -/
  | instantiated (name : String) (arguments : List WrittenArgument)
  /-- A member of another type, `inner.name`. -/
  | member (inner : TypeExpr) (name : String)
  /-- A member with an argument list, `inner.name!(arguments)`. -/
  | memberInstantiated (inner : TypeExpr) (name : String) (arguments : List WrittenArgument)
  | pointer (target : TypeExpr)
  | dynamicArray (element : TypeExpr)
  /-- `element[key]` with a type between the brackets. -/
  | keyedArray (element key : TypeExpr)
  /-- `element[length]` with an expression between the brackets. -/
  | sizedArray (element : TypeExpr) (length : Expr)
  /-- A `delegate`, or a `function` pointer when `isFunction`. -/
  | callable (result : TypeExpr) (parameters : List TypeExpr) (isFunction : Bool)
  /-- `typeof(return)`. -/
  | typeOfReturn
  | typeOf (operand : Expr)
  | modified (modifier : Modifier) (inner : TypeExpr)

/-- An expression as written. -/
inductive Expr where
  | literal (literal : Literal)
  | named (name : String)
  | instantiated (name : String) (arguments : List WrittenArgument)
  | member (base : Expr) (name : String)
  | call (callee : Expr) (arguments : List Expr)
  | index (base position : Expr)
  | binary (operator : BinaryOperator) (left right : Expr)
  | unary (operator : UnaryOperator) (operand : Expr)
  | array (items : List Expr)
  /-- `is(T)`: whether the type exists. -/
  | isType (subject : TypeExpr)
  /-- `is(T == U)` or `is(T : U)`. -/
  | isRelated (subject : TypeExpr) (relation : TypeRelation) (other : TypeExpr)
  /-- A type in the place of an expression, such as the `int` of `int.max`. -/
  | type (type : TypeExpr)
  | new (type : TypeExpr)

inductive WrittenArgument where
  | type (type : TypeExpr)
  | value (value : Expr)

end

namespace TypeExpr

/-- The chain of names `a.b.c` that a dotted path writes. -/
def dotted (path : String) : TypeExpr :=
  match Path.segments path with
  | [] => named path
  | first :: rest => rest.foldl member (named first)

/-- The name of a type that is a single name without arguments. -/
def plainName? : TypeExpr → Option String
  | named name => some name
  | _ => none

mutual

/-- Whether a name that satisfies the test stands in the type. -/
def mentions (test : String → Bool) : TypeExpr → Bool
  | basic _ | typeOfReturn | typeOf _ => false
  | named name => test name
  | instantiated name arguments => test name || argumentsMention test arguments
  | member inner _ | memberInstantiated inner _ _ => mentions test inner
  | pointer inner | dynamicArray inner | modified _ inner | sizedArray inner _ =>
    mentions test inner
  | keyedArray element key => mentions test element || mentions test key
  | callable result parameters _ => mentions test result || anyMentions test parameters

/-- Whether one of the types mentions a name that satisfies the test. -/
def anyMentions (test : String → Bool) : List TypeExpr → Bool
  | [] => false
  | type :: rest => mentions test type || anyMentions test rest

/-- Whether one of the type arguments mentions a name that satisfies the test. -/
def argumentsMention (test : String → Bool) : List WrittenArgument → Bool
  | [] => false
  | .type type :: rest => mentions test type || argumentsMention test rest
  | .value _ :: rest => argumentsMention test rest

end

end TypeExpr

namespace Expr

def isNull : Expr → Bool
  | literal .null => true
  | _ => false

end Expr

end DScope
