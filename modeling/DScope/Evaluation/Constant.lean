import DScope.Evaluation.Arithmetic
import DScope.Property

namespace DScope.Constant

/-!
# Constant values

The constant value of an expression in the current scope. Names of constants are
replaced by the value of their initializer, enumerators count on from the one
before, and a type in the place of a value is a value of its own.
-/

open Query

/-- A query for a constant, which may fail. -/
abbrev Folding := ExceptT EvalError Query

def value (expression : Expr) : Folding Value :=
  ExceptT.mk (valueOf expression)

def truth (constant : Value) : Folding Bool :=
  match constant.truth? with
  | some truth => return truth
  | none => throw (.notConstant constant.text)

/-- The bindings of the instance through which a declaration is reached. -/
def bindingsOf (declaration : Declaration) : Bindings :=
  (declaration.via.map Symbol.bindings).getD .none

/-- The value of an initializer, read where its declaration stands. -/
def ofInitializer (declaration : Declaration) (initializer : Expr) : Folding Value :=
  ExceptT.mk <| visiting declaration.node fun depth => do
    if depth > Guard.evaluationLimit then
      return .error .recursion
    let frame := Frame.ofDeclaration (← tree) declaration.node (bindingsOf declaration)
    let result ← withFrame frame (valueOf initializer)
    return result.getD (.error (.notConstant initializer.text))

/-- The value of an enumerator that follows another one, or is the first. -/
def following : Option Value → Folding Value
  | none => return .int 0
  | some (.integer number type) =>
    match Integer.checked? (number + 1) with
    | some next => return .integer next type
    | none => (throw Halt.additionOverflow : Query Value)
  | some other => throw (.invalidOperands "+" other.text "1")

/-- The value of an enumerator of an enumeration, given the members from some place on. -/
def ofEnumerator (target : NodeId) (name : String) : Option Value → List NodeId → Folding Value
  | _, [] => throw (.unresolved name)
  | previous, member :: rest => do
      match (← node member).kind with
      | .enumerator initializer =>
        let constant ←
          match initializer with
          | some initializer => ofInitializer { node := member } initializer
          | none => following previous
        if member == target then
          return constant
        else
          ofEnumerator target name (some constant) rest
      | _ => ofEnumerator target name previous rest

def ofBinding (name : String) : Option Binding → Folding Value
  | some ⟨_, _, some constant⟩ => return constant
  | some ⟨_, some base, none⟩ => return .type base
  | _ => throw (.notConstant name)

def ofDeclaration (declaration : Declaration) : Folding Value := do
  let entry ← node declaration.node
  match entry.kind with
  | .templateParameter _ =>
    let inFrames := (← get).stack.binding? declaration.node
    ofBinding entry.name (inFrames <|> (bindingsOf declaration).get? declaration.node)
  | .var _ (some initializer) =>
    if entry.isConst then
      ofInitializer declaration initializer
    else
      throw (.notConstant entry.name)
  | .eponymous _ (some initializer) => ofInitializer declaration initializer
  | .enumerator _ =>
    match entry.parent with
    | some enumeration =>
      ofEnumerator declaration.node entry.name none (← node enumeration).children
    | none => throw (.unresolved entry.name)
  | .var _ none | .method .. => throw (.notConstant entry.name)
  | _ =>
    match ← symbolsOf [declaration] with
    | symbol :: _ => return .type symbol
    | [] => throw (.unresolved entry.name)

/-- The value that a symbol stands for: a constant, or else the symbol as a type. -/
def ofSymbol (symbol : Symbol) : Folding Value :=
  match symbol.member? with
  | some ⟨_, _, _, some constant⟩ => return constant
  | some ⟨.node node, _, bindings, none⟩ =>
    ofDeclaration { node, via := if bindings.isEmpty then none else some symbol }
  | _ => return .type symbol

/-- The value of an expression that is read as a symbol. -/
def ofTyping (expression : Expr) : Folding Value := do
  match ← typingOf expression with
  | some symbol => ofSymbol symbol
  | none => throw (.unresolved expression.text)

/-- The value of a name: that of the first declaration visible under it. -/
def ofName (name : String) : Folding Value := do
  match ← Lookup.visible name .all with
  | declaration :: _ => ofDeclaration declaration
  | [] => throw (.unresolved name)

def propertyOf (base : Expr) (name : String) : Query (Option Value) := do
  match ← valueOf base with
  | .ok owner => return Property.constant? (← tree) (.value owner) name
  | .error _ => return none

/-- The value of `base.name`: a property of the base's value, or else a member. -/
def ofMember (base : Expr) (name : String) : Folding Value := do
  match ← propertyOf base name with
  | some constant => return constant
  | none => ofTyping (.member base name)

/-- The value of a binary operator; `&&` and `||` leave the right side out where they can. -/
def ofBinary (operator : BinaryOperator) (left right : Expr) : Folding Value := do
  match operator with
  | .and =>
    if ← truth (← value left) then
      return .bool (← truth (← value right))
    else
      return .bool false
  | .or =>
    if ← truth (← value left) then
      return .bool true
    else
      return .bool (← truth (← value right))
  | _ =>
    let first ← value left
    let second ← value right
    ExceptT.mk (pure (Arithmetic.fold operator first second))

def ofUnary (operator : UnaryOperator) (operand : Value) : Folding Value := do
  match operator, operand with
  | .not, _ => return .bool (!(← truth operand))
  | .negate, .integer number type =>
    match Integer.checked? (-number) with
    | some negated => return .integer negated type
    | none => (throw Halt.negationOverflow : Query Value)
  | .negate, .float number type => return .float (-number) type
  | .negate, _ => throw (.invalidOperands "-" "" operand.text)

/-- The item of an array or the character of a string at a position. -/
def itemAt? (base position : Value) : Option Value := do
  let index ← position.integer?
  if index < 0 then
    none
  else
    match base with
    | .array items => items[index.toNat]?
    | .string text => text.toList[index.toNat]?.map .character
    | _ => none

def ofIndex (base position : Expr) : Folding Value := do
  let base ← value base
  let position ← value position
  match itemAt? base position with
  | some item => return item
  | none => throw (.invalidOperands "[]" base.text position.text)

def related (relation : TypeRelation) (subject other : Symbol) : Bool :=
  match relation with
  | .same => subject.stripped.sameType other.stripped
  | .convertible => subject.stripped.convertsTo other.stripped

/-- Whether a written type exists and stands in a relation to another one. -/
def isRelated (subject : TypeExpr) (relation : TypeRelation) (other : TypeExpr) : Query Bool := do
  match ← resolveOne subject with
  | none => return false
  | some subject =>
    match ← resolveOne other with
    | none => return false
    | some other => return related relation subject other

/-- The constant value of an expression in the current scope. -/
def fold (expression : Expr) : Folding Value := do
  match expression with
  | .literal literal => return .ofLiteral literal
  | .named name => ofName name
  | .instantiated .. | .type _ => ofTyping expression
  | .member base name => ofMember base name
  | .binary operator left right => ofBinary operator left right
  | .unary operator operand => ofUnary operator (← value operand)
  | .array items => return .array (← items.mapM value)
  | .isType subject => return .bool (← resolveOne subject).isSome
  | .isRelated subject relation other => return .bool (← isRelated subject relation other)
  | .index base position => ofIndex base position
  | .call .. | .new _ => throw (.notConstant expression.text)

/-- The constant value of an expression, or why it has none. -/
def ofExpression (expression : Expr) : Query (Except EvalError Value) :=
  (fold expression).run

end DScope.Constant
