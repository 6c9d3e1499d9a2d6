import DScope.Number.Decimal
import DScope.Term

namespace DScope

/-!
# Text of types and expressions

Types and expressions are written back without parentheses around operands and
without escapes inside quotes.
-/

/-- Puts the parts one after another with commas between them. -/
def commaSeparated (parts : List String) : String :=
  String.intercalate ", " parts

def Literal.text : Literal → String
  | .integer value _ => toString value
  | .float value _ => Decimal.text value
  | .bool value => if value then "true" else "false"
  | .character value => "'" ++ value.toString ++ "'"
  | .string value => "\"" ++ value ++ "\""
  | .null => "null"

mutual

def TypeExpr.text : TypeExpr → String
  | .basic type => type.keyword
  | .named name => name
  | .instantiated name arguments =>
    name ++ "!(" ++ commaSeparated (WrittenArgument.texts arguments) ++ ")"
  | .member inner name => inner.text ++ "." ++ name
  | .memberInstantiated inner name arguments =>
    inner.text ++ "." ++ name ++ "!(" ++ commaSeparated (WrittenArgument.texts arguments) ++ ")"
  | .pointer target => target.text ++ "*"
  | .dynamicArray element => element.text ++ "[]"
  | .keyedArray element key => element.text ++ "[" ++ key.text ++ "]"
  | .sizedArray element length => element.text ++ "[" ++ length.text ++ "]"
  | .callable result parameters isFunction =>
    result.text ++ (if isFunction then " function(" else " delegate(") ++
      commaSeparated (TypeExpr.texts parameters) ++ ")"
  | .typeOfReturn => "typeof(return)"
  | .typeOf operand => "typeof(" ++ operand.text ++ ")"
  | .modified modifier inner => modifier.keyword ++ "(" ++ inner.text ++ ")"

def TypeExpr.texts : List TypeExpr → List String
  | [] => []
  | type :: rest => type.text :: TypeExpr.texts rest

def Expr.text : Expr → String
  | .literal literal => literal.text
  | .named name => name
  | .instantiated name arguments =>
    name ++ "!(" ++ commaSeparated (WrittenArgument.texts arguments) ++ ")"
  | .member base name => base.text ++ "." ++ name
  | .call callee arguments => callee.text ++ "(" ++ commaSeparated (Expr.texts arguments) ++ ")"
  | .index base position => base.text ++ "[" ++ position.text ++ "]"
  | .binary operator left right => left.text ++ " " ++ operator.sign ++ " " ++ right.text
  | .unary .not operand => "!" ++ operand.text
  | .unary .negate operand => "-" ++ operand.text
  | .array items => "[" ++ commaSeparated (Expr.texts items) ++ "]"
  | .isType subject => "is(" ++ subject.text ++ ")"
  | .isRelated subject .same other => "is(" ++ subject.text ++ " == " ++ other.text ++ ")"
  | .isRelated subject .convertible other => "is(" ++ subject.text ++ " : " ++ other.text ++ ")"
  | .type type => type.text
  | .new type => "new " ++ type.text

def Expr.texts : List Expr → List String
  | [] => []
  | expression :: rest => expression.text :: Expr.texts rest

def WrittenArgument.texts : List WrittenArgument → List String
  | [] => []
  | .type type :: rest => type.text :: WrittenArgument.texts rest
  | .value value :: rest => value.text :: WrittenArgument.texts rest

end

end DScope
