import DScope.Evaluation.Arithmetic
import DScope.Resolution

namespace DScope.Typing

/-!
# Types of expressions

The static type of an expression in the current scope. A call takes the return
type of the only overload that accepts its arguments.
-/

open Query

def ofLiteral : Literal → Symbol
  | .integer _ type | .float _ type => .primitive type
  | .bool _ => .primitive .bool
  | .character _ => .primitive .char
  | .string _ => .string
  | .null => .pointer none

/-- The built-in type that a symbol stands for. -/
def primitive? (symbol : Symbol) : Option BasicType :=
  match symbol.strip.map Symbol.shape with
  | some (.primitive type) => some type
  | _ => none

/-- The type of arithmetic on operands of which the right one may be unknown. -/
def ofArithmetic (left : Symbol) (right : Option Symbol) : Option Symbol :=
  match primitive? left, right.bind primitive? with
  | some left, some right => some (.primitive (left.promote right))
  | _, _ => left.strip

def ofBinary (operator : BinaryOperator) (left right : Expr) : Query (Option Symbol) := do
  match operator with
  | .equal | .notEqual | .less | .lessOrEqual | .greater | .greaterOrEqual | .and | .or =>
    return some (.primitive .bool)
  | .concatenate => typingOf left
  | .add | .subtract | .multiply | .divide | .remainder =>
    match ← typingOf left with
    | none => return none
    | some first =>
      let second ← typingOf right
      return ofArithmetic first second

def ofIndex (base position : Expr) : Query (Option Symbol) := do
  match ((← typingOf base).bind Symbol.strip).map Symbol.shape with
  | some (.array element _) | some (.pointer element) => return element
  | some (.associative _ value) => return value
  | some (.tuple items) =>
    let evaluated ← valueOf position
    return (Resolution.itemAt? items evaluated).bind Argument.type?
  | _ => return none

/-- What calling a symbol other than a function gives: an instance, or a callable's result. -/
def callResult (callee : Symbol) : Option Symbol := do
  let target ← callee.strip
  match target.shape with
  | .aggregate _ => some target
  | .callable callable => callable.result
  | _ => none

def isMethod (tree : Tree) (symbol : Symbol) : Bool :=
  symbol.isMember && (symbol.definition?.bind tree.node?).any (·.isMethod)

/-- The options under which the overloads of a call are collected. -/
def callOverrides : Overrides :=
  ({} : Overrides).enable { referencesOnly := true, skipDeduction := true }

/-- The overloads that a call may mean by a name. -/
def overloadsNamed (name : String) : Query (List Symbol) := do
  return (← withOverrides callOverrides (Lookup.candidates name)).getD []

def ofOverloads
    (callee : Expr)
    (overloads : List Symbol)
    (explicit : List Argument)
    (arguments : List (Option Symbol)) :
    Query (Option Symbol) := do
  let tree ← tree
  match overloads.filter (isMethod tree) with
  | [] => return overloads.head?.bind callResult
  | methods =>
    let candidates ← Template.selectForCall methods explicit arguments
    let chosen ← Template.theOnly candidates callee.text
    return (chosen.bind Symbol.member?).bind (·.base)

def ofCall (callee : Expr) (arguments : List Expr) : Query (Option Symbol) := do
  let arguments ← arguments.mapM typingOf
  match callee with
  | .named name =>
    let overloads ← overloadsNamed name
    ofOverloads callee overloads [] arguments
  | .instantiated name written =>
    let overloads ← overloadsNamed name
    let explicit ← Template.resolveArguments written
    ofOverloads callee overloads explicit arguments
  | .member base name =>
    match ← typingOf base with
    | none => return none
    | some owner =>
      let found ← withOverrides callOverrides (MemberAccess.candidates owner name true)
      ofOverloads callee (found.getD []) [] arguments
  | _ => return (← typingOf callee).bind callResult

/-- The type of an expression in the current scope. -/
def ofExpression (expression : Expr) : Query (Option Symbol) := do
  if ← isCancelled then
    return none
  match expression with
  | .literal literal => return some (ofLiteral literal)
  | .named name => return Symbol.ofCandidates? (← Resolution.ofName name)
  | .instantiated name arguments => resolveOne (.instantiated name arguments)
  | .member base name =>
    match ← typingOf base with
    | none => return none
    | some owner =>
      return Symbol.ofCandidates? (← MemberAccess.symbols owner name none true)
  | .call callee arguments => ofCall callee arguments
  | .index base position => ofIndex base position
  | .binary operator left right => ofBinary operator left right
  | .unary .not _ | .isType _ | .isRelated .. => return some (.primitive .bool)
  | .unary .negate operand => return (← typingOf operand).map Symbol.stripped
  | .array [] => return some (.dynamicArray none)
  | .array (first :: _) =>
    return some (.dynamicArray ((← typingOf first).map Symbol.stripped))
  | .type type | .new type => resolveOne type

/-- The explicit template arguments and the name of a callee that is a name. -/
def namedCallee? : Expr → Option (String × List WrittenArgument)
  | .named name => some (name, [])
  | .instantiated name arguments => some (name, arguments)
  | _ => none

def calledMethod (call : Expr) : Query (Option NodeId) := do
  match call with
  | .call callee arguments =>
    let arguments ← arguments.mapM typingOf
    match namedCallee? callee with
    | none => return none
    | some (name, written) =>
      let explicit ← Template.resolveArguments written
      let overloads ← overloadsNamed name
      let candidates ← Template.selectForCall overloads explicit arguments
      let chosen ← Template.theOnly candidates name
      return chosen.bind Symbol.definition?
  | _ => return none

end DScope.Typing
