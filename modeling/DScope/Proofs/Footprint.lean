import DScope.Proofs.Orderly

namespace DScope

/-!
# The questions that a program gives rise to

A rule asks about parts of what it was asked about, and about what is written in
the declarations that it comes across. Parts are lighter than the whole, so the
first kind of question is bounded by the weight of the rule's own question. The
second kind is listed here: what the declarations of a tree hold.
-/

mutual

/-- The weight of a written type. -/
def TypeExpr.weight : TypeExpr → Nat
  | .basic _ | .named _ | .typeOfReturn => 1
  | .instantiated _ arguments => 1 + WrittenArgument.weights arguments
  | .member inner _ => 1 + inner.weight
  | .memberInstantiated inner _ arguments => 1 + inner.weight + WrittenArgument.weights arguments
  | .pointer inner | .dynamicArray inner | .modified _ inner => 1 + inner.weight
  | .keyedArray element key => 2 + element.weight + key.weight
  | .sizedArray element length => 1 + element.weight + length.weight
  | .callable result parameters _ => 1 + result.weight + TypeExpr.weights parameters
  | .typeOf operand => 1 + operand.weight

def TypeExpr.weights : List TypeExpr → Nat
  | [] => 0
  | type :: rest => type.weight + TypeExpr.weights rest

def Expr.weight : Expr → Nat
  | .literal _ | .named _ => 1
  | .instantiated _ arguments => 2 + WrittenArgument.weights arguments
  | .member base _ => 1 + base.weight
  | .call callee arguments => 1 + callee.weight + Expr.weights arguments
  | .index base position => 1 + base.weight + position.weight
  | .binary _ left right => 1 + left.weight + right.weight
  | .unary _ operand => 1 + operand.weight
  | .array items => 1 + Expr.weights items
  | .isType subject => 1 + subject.weight
  | .isRelated subject _ other => 1 + subject.weight + other.weight
  | .type type | .new type => 1 + type.weight

def Expr.weights : List Expr → Nat
  | [] => 0
  | expression :: rest => expression.weight + Expr.weights rest

def WrittenArgument.weight : WrittenArgument → Nat
  | .type type => 2 + type.weight
  | .value value => 1 + value.weight

def WrittenArgument.weights : List WrittenArgument → Nat
  | [] => 0
  | argument :: rest => argument.weight + WrittenArgument.weights rest

end

attribute [grind =] TypeExpr.weight Expr.weight Expr.weights WrittenArgument.weight
  WrittenArgument.weights

theorem weight_le_of_mem {α : Type} {weight : α → Nat} {weights : List α → Nat}
    (weights_cons : ∀ item rest, weights (item :: rest) = weight item + weights rest) {item : α}
    {items : List α} (member : item ∈ items) : weight item ≤ weights items := by
  induction items with
  | nil =>
    cases member
  | cons first rest ih =>
    rw [weights_cons]
    rcases List.mem_cons.mp member with isFirst | inRest
    · subst isFirst
      exact Nat.le_add_right _ _
    · exact Nat.le_add_left_of_le (ih inRest)

@[grind →]
theorem TypeExpr.weight_le_weights
    {type : TypeExpr} {types : List TypeExpr} (member : type ∈ types) :
    type.weight ≤ TypeExpr.weights types :=
  weight_le_of_mem (fun _ _ => by rw [TypeExpr.weights]) member

@[grind →]
theorem Expr.weight_le_weights
    {expression : Expr} {expressions : List Expr} (member : expression ∈ expressions) :
    expression.weight ≤ Expr.weights expressions :=
  weight_le_of_mem (fun _ _ => by rw [Expr.weights]) member

@[grind →]
theorem WrittenArgument.weight_le_weights
    {argument : WrittenArgument} {arguments : List WrittenArgument}
    (member : argument ∈ arguments) : argument.weight ≤ WrittenArgument.weights arguments :=
  weight_le_of_mem (fun _ _ => by rw [WrittenArgument.weights]) member

/--
The weight of a question.

The value of an expression may be found by way of its type, and so weighs more.
-/
@[grind =]
def Question.weight : Question → Nat
  | .type written => 2 * written.weight
  | .symbol .. => 0
  | .value expression => 2 * expression.weight + 1
  | .typing expression => 2 * expression.weight

/-- Whether a question is about a name with template arguments. -/
def Question.isInstance : Question → Bool
  | .type (.instantiated ..) => true
  | _ => false

/-- The questions that a template parameter holds. -/
def ParameterKind.questions : ParameterKind → List Question
  | .type specialization default => specialization.toList.map .type ++ default.toList.map .type
  | .value _ specialization default => specialization.toList.map .value ++ default.toList.map .value
  | .aliased specialization default =>
    specialization.toList.map .type ++
      match default with
      | some (.type written) => [.type written]
      | some (.value written) => [.value written]
      | none => []
  | .tuple => []
  | .receiver inner => inner.questions

namespace Node

/-- The questions that are asked inside the declaration only. -/
def ownQuestions (node : Node) : List Question :=
  match node.kind with
  | .aliased target _ => target.toList.map .type
  | .var type initializer => type.toList.map .type ++ initializer.toList.map .typing
  | .enumeration base => base.toList.map .type
  | .aggregate _ _ bases => bases.map .type
  | _ => []

/-- The questions that a template, a mixin or a function raises wherever it is met. -/
def sharedQuestions (node : Node) : List Question :=
  node.constraint.toList.map .value ++
    match node.kind with
    | .mixin target => [.type target]
    | .eponymous type initializer => type.toList.map .type ++ initializer.toList.map .typing
    | .templateParameter kind => kind.questions
    | .method result _ _ => result.toList.map .type
    | _ => []

/-- Whether the declaration only forwards to others and is followed however deep it lies. -/
def isForwarding (node : Node) : Bool :=
  match node.kind with
  | .mixin _ | .importBinding .. => true
  | _ => false

end Node

/-- The questions that a statement raises. -/
def Statement.questions (statement : Statement) : List Question :=
  match statement.kind with
  | .returning (some value) => [.typing value]
  | .forEach _ (.collection collection) .. => [.typing collection]
  | .forEach _ (.range lower _) .. => [.typing lower]
  | _ => []

namespace Tree

/--
The questions that may come up at any place of a tree.

Besides the symbols of declarations these are the questions that templates,
mixins, functions and statements hold, and whatever weighs no more.
-/
inductive Raises (tree : Tree) : Question → Prop
  | symbol (node : NodeId) (bindings : Bindings) :
      Raises tree (.symbol node bindings)
  | declaration {id : NodeId} {entry : Node} {held question : Question}
      (found : tree.node? id = some entry)
      (isHeld : held ∈ entry.sharedQuestions)
      (isPart : question.weight ≤ held.weight) :
      Raises tree question
  | parameter {id parameter : NodeId} {method entry : Node} {pattern : TypeExpr}
      {question : Question}
      (found : tree.node? id = some method)
      (isParameter : parameter ∈ method.parameters)
      (foundParameter : tree.node? parameter = some entry)
      (isTyped : entry.declaredType? = some pattern)
      (isPart : question.weight ≤ (Question.type pattern).weight) :
      Raises tree question
  | statement {id : StatementId} {entry : Statement} {question : Question}
      (found : tree.statement? id = some entry)
      (isHeld : question ∈ entry.questions) :
      Raises tree question

/-- Whether whatever comes up at any place of a tree may be asked. -/
def RaisesOnly (tree : Tree) (asks : Question → Prop) : Prop :=
  ∀ question, tree.Raises question → asks question

/-- The questions that are asked inside one of the declarations of a tree. -/
def Declares (tree : Tree) (question : Question) : Prop :=
  ∃ id entry, tree.node? id = some entry ∧ question ∈ entry.ownQuestions

/-- The initializers of the declarations of a tree, as questions for their values. -/
def Initializes (tree : Tree) (question : Question) : Prop :=
  ∃ id entry initializer,
    tree.node? id = some entry ∧ entry.initializer? = some initializer ∧
      question = .value initializer

/--
Whether enough may be asked inside declarations.

A declaration is read as long as it has not been entered more often than the
base limit; a forwarding one always; an initializer up to the evaluation limit.
-/
structure Admits (tree : Tree) (within : Nat → Question → Prop) : Prop where
  declared :
    ∀ {depth question}, depth ≤ Guard.baseLimit →
      tree.Declares question ∨ tree.Raises question → within depth question
  forwarded :
    ∀ {id entry depth question}, tree.node? id = some entry → entry.isForwarding →
      tree.Raises question → within depth question
  initialized :
    ∀ {depth question}, depth ≤ Guard.evaluationLimit →
      tree.Initializes question → within depth question

end Tree

end DScope
