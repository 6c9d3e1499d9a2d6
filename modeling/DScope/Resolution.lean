import DScope.DeclaredSymbol

namespace DScope.Resolution

/-!
# Resolution of written types

Which symbols a name or a written type stands for in the current scope. An empty
result means that nothing was found, and several results are overloads that were
not told apart. Failures are reported only when the query is not in the middle of
something else.
-/

open Query

/-- The symbols that a bare name stands for, found by lookup and deduction. -/
def searchName (name : String) : Query (List Symbol) := do
  let overloads ← Lookup.candidates name
  if (← options).skipDeduction then
    return overloads
  else
    Template.instantiate overloads [] false

def ofName (name : String) : Query (List Symbol) :=
  memoized name (searchName name)

/-- The only one of several symbols. -/
def lone? : List Symbol → Option Symbol
  | [symbol] => some symbol
  | _ => none

/-- The symbols that a name with template arguments stands for. -/
def ofInstance (name : String) (arguments : List WrittenArgument) : Query (List Symbol) := do
  let overloads ← Lookup.candidates name
  let given ← Template.resolveArguments arguments
  let found ← Template.instantiate overloads given false
  if found.isEmpty && (← reportsFailures) then
    let tree ← tree
    let rejected := (lone? overloads).bind fun overload =>
      Template.rejectedArgument? tree overload given
    let text := (TypeExpr.instantiated name arguments).text
    report (rejected.getD (.nothingFound text none none))
  return found

/-- The symbols that a member of a written type stands for. -/
def ofMember
    (inner : TypeExpr)
    (name : String)
    (arguments : Option (List WrittenArgument))
    (text : String) :
    Query (List Symbol) := do
  let owners := (← resolve inner).flatMap Symbol.candidates
  let found := (← owners.mapM fun owner => MemberAccess.symbols owner name arguments true).flatten
  if found.isEmpty then
    reportMissing text
  return found

/-- The array that an element type and an evaluated length give. -/
def sizedBy (element : Symbol) (length : Expr) : Except EvalError Value → Query Symbol
  | .error _ => return .dynamicArray (some element)
  | .ok (.type key) => return .associative (some key) (some element)
  | .ok value =>
    match value.integer? with
    | none => return .dynamicArray (some element)
    | some size =>
      if size < 0 then do
        report (.nothingFound length.text none (some "negative array length"))
        return .dynamicArray (some element)
      else if Integer.fitsWord size.toNat then
        return .fixedArray (some element) size.toNat
      else do
        report (.nothingFound length.text none (some "array length too large"))
        return .dynamicArray (some element)

/-- The item of a list at an evaluated position. -/
def itemAt? {α : Type} (items : List α) (position : Except EvalError Value) : Option α :=
  match position with
  | .error _ => none
  | .ok value => do
      let index ← value.integer?
      if index < 0 then none else items[index.toNat]?

/-- The type that an item of a tuple contributes; a missing item is reported. -/
def tupleItem (items : List Argument) (length : Expr) (position : Except EvalError Value) :
    Query (List Symbol) := do
  match itemAt? items position with
  | some item => return item.type?.toList
  | none =>
    report (.nothingFound length.text none
      (some ("tuple only has " ++ toString items.length ++ " items")))
    return []

/-- The type `element[length]`: an array, or an item if the element is a tuple. -/
def sized (length : Expr) (element : Symbol) : Query (List Symbol) := do
  let evaluated ← evaluate length
  match element.strip.map Symbol.shape with
  | some (.tuple items) => tupleItem items length evaluated
  | _ => return [← sizedBy element length evaluated]

/-- Whether a symbol between the brackets of an array is a length rather than a key type. -/
def isLength (tree : Tree) (symbol : Symbol) : Bool :=
  match symbol.shape with
  | .member _ => true
  | .parameter binding =>
    binding.value.isSome ||
      match tree.parameterKind? binding.parameter with
      | some (.value ..) => true
      | _ => false
  | _ => false

/-- The symbols of `element[key]`, where the key may be a name for a length. -/
def ofKeyed (element key : TypeExpr) : Query (List Symbol) := do
  let elements ← resolve element
  let found := (← resolve key).head?
  if found.any (isLength (← tree)) then
    return (← elements.mapM (sized (.type key))).flatten
  else
    return elements.map fun element => .associative found (some element)

/-- The symbol of a callable type; parameters that stand for nothing are left out. -/
def ofCallable (result : TypeExpr) (parameters : List TypeExpr) (isFunction : Bool) :
    Query Symbol := do
  let result ← resolveOne result
  let parameters ← parameters.mapM resolveOne
  return .ofShape (.callable ⟨result, parameters.filterMap id, isFunction⟩)

/-- The symbols that a written type stands for in the current scope. -/
def ofType (type : TypeExpr) : Query (List Symbol) := do
  if ← isCancelled then
    return []
  match type with
  | .basic basic => return [.primitive basic]
  | .named name => ofName name
  | .instantiated name arguments => ofInstance name arguments
  | .member inner name => ofMember inner name none type.text
  | .memberInstantiated inner name arguments => ofMember inner name (some arguments) type.text
  | .pointer target => return (← resolve target).map fun symbol => .pointer (some symbol)
  | .dynamicArray element =>
    return (← resolve element).map fun symbol => .dynamicArray (some symbol)
  | .sizedArray element length =>
    return (← (← resolve element).mapM (sized length)).flatten
  | .keyedArray element key => ofKeyed element key
  | .callable result parameters isFunction => return [← ofCallable result parameters isFunction]
  | .typeOfReturn => return (← ReturnType.around).toList
  | .typeOf operand => return ((← evaluateType operand).map Symbol.stripped).toList
  | .modified modifier inner => return (← resolve inner).map (·.withModifier modifier)

end DScope.Resolution
