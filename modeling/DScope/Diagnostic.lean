import DScope.Symbol

namespace DScope

/-!
# Diagnostics

What can go wrong in a query. Every diagnostic is advisory: it is put into the
log of the query, which carries on with whatever it has found.
-/

inductive Diagnostic where
  | nothingFound (subject : String) (origin : Option NodeId) (detail : Option String)
  | ambiguity (subject : String) (origin : Option NodeId) (candidates : List Symbol)
  /-- A template argument does not fit its parameter. -/
  | deduction (parameter : NodeId) (name : String) (argument : Option Argument) (reason : String)
  | ambiguousSpecialization (subject : String) (overloads : List Symbol)

namespace Diagnostic

def code : Diagnostic → String
  | nothingFound .. => "E0001"
  | ambiguity .. => "E0002"
  | deduction .. => "E0020"
  | ambiguousSpecialization .. => "E0021"

def message : Diagnostic → String
  | nothingFound subject _ none => "`" ++ subject ++ "` could not be resolved"
  | nothingFound subject _ (some detail) =>
    "`" ++ subject ++ "` could not be resolved: " ++ detail
  | ambiguity subject _ candidates =>
    "`" ++ subject ++ "` is ambiguous between " ++ toString candidates.length ++ " candidates"
  | deduction _ name _ reason =>
    "cannot deduce template parameter `" ++ name ++ "`: " ++ reason
  | ambiguousSpecialization subject overloads =>
    "could not distinguish a most specialized overload of `" ++ subject ++ "` among " ++
      toString overloads.length ++ " equally specialized overloads"

end Diagnostic

/-- Why an expression has no constant value. -/
inductive EvalError where
  | notConstant (subject : String)
  | invalidOperands (operator left right : String)
  | divisionByZero
  | unresolved (subject : String)
  /-- A constant depends on itself. -/
  | recursion
deriving Repr, DecidableEq

namespace EvalError

def code : EvalError → String
  | notConstant _ => "NotConstant"
  | invalidOperands .. => "InvalidOperands"
  | divisionByZero => "DivisionByZero"
  | unresolved _ => "Unresolved"
  | recursion => "Recursion"

def message : EvalError → String
  | notConstant subject => "`" ++ subject ++ "` is not a compile-time constant"
  | invalidOperands operator left right =>
    "operator `" ++ operator ++ "` cannot be applied to `" ++ left ++ "` and `" ++ right ++ "`"
  | divisionByZero => "division by zero"
  | unresolved subject => "`" ++ subject ++ "` could not be resolved"
  | recursion => "constant initializer depends on itself"

end EvalError

end DScope
