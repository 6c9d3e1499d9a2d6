import DScope.Proofs.ModuleScope
import DScope.Proofs.Termination

namespace DScope

/-!
# What constants come to

In a module that declares manifest constants and nothing else every expression
over these constants comes to a value, to an error or to an overflow. Names are
unfolded to the initializers of their constants, and a constant that is met too
often on the way is an error. The limit on unfolding is never what keeps a
constant from its value: a constant that has a value has one by unfolding no
constant inside itself.
-/

open Engine

variable {operator : BinaryOperator} {result : Value} {evaluator : Evaluator}
  {isLiteral : Literal → Prop} {isOperator : BinaryOperator → Prop} {expression : Expr}

/-- Built from literals and operators of some kind, and from names. -/
inductive Expr.IsBuiltFrom (isLiteral : Literal → Prop) (isOperator : BinaryOperator → Prop) :
    Expr → Prop
  | literal {literal : Literal} (isKind : isLiteral literal) :
      IsBuiltFrom isLiteral isOperator (.literal literal)
  | named (name : String) : IsBuiltFrom isLiteral isOperator (.named name)
  | unary
      {operator : UnaryOperator}
      {operand : Expr}
      (isBuilt : IsBuiltFrom isLiteral isOperator operand) :
      IsBuiltFrom isLiteral isOperator (.unary operator operand)
  | binary
      {operator : BinaryOperator}
      {left right : Expr}
      (isKind : isOperator operator)
      (isLeftBuilt : IsBuiltFrom isLiteral isOperator left)
      (isRightBuilt : IsBuiltFrom isLiteral isOperator right) :
      IsBuiltFrom isLiteral isOperator (.binary operator left right)

/-- The operators that compute numbers from numbers. -/
def BinaryOperator.arithmetic : List BinaryOperator :=
  [.add, .subtract, .multiply, .divide, .remainder]

theorem BinaryOperator.isStrict_of_mem_arithmetic (isArithmetic : operator ∈ arithmetic) :
    operator ≠ .and ∧ operator ≠ .or := by
  revert operator
  decide

namespace Constant

variable {α β : Type}

/-- What a query for a constant comes to. -/
inductive Outcome (α : Type) where
  | value (value : α)
  | failure (error : EvalError)
  /-- The least number was negated. -/
  | overflow

namespace Outcome

def bind : Outcome α → (α → Outcome β) → Outcome β
  | value result, next => next result
  | failure error, _ => failure error
  | overflow, _ => overflow

instance : Monad Outcome where
  pure := value
  bind := bind

theorem bind_eq_value {outcome : Outcome α} {next : α → Outcome β} {result : β} :
    outcome >>= next = value result ↔
      ∃ first, outcome = value first ∧ next first = value result := by
  cases outcome with
  | value first =>
    constructor
    · intro isResult
      exact ⟨first, rfl, isResult⟩
    · rintro ⟨_, ⟨⟩, isResult⟩
      exact isResult
  | failure error => exact ⟨nofun, nofun⟩
  | overflow => exact ⟨nofun, nofun⟩

/-- What a run that comes to the outcome returns or ends with. -/
def settled : Outcome α → Except Halt (Except EvalError α)
  | value result => .ok (.ok result)
  | failure error => .ok (.error error)
  | overflow => .error .negationOverflow

theorem settled_eq_ok
    {outcome : Outcome α} {result : α} (isSettled : outcome.settled = .ok (.ok result)) :
    outcome = value result := by
  cases outcome <;> cases isSettled
  rfl

def truth (constant : Value) : Outcome Bool :=
  match constant.truth? with
  | some truth => value truth
  | none => failure (.notConstant constant.text)

def unary : UnaryOperator → Value → Outcome Value
  | .not, operand => do return .bool (!(← truth operand))
  | .negate, .integer number type =>
    match Integer.checked? (-number) with
    | some negated => value (.integer negated type)
    | none => overflow
  | .negate, .float number type => value (.float (-number) type)
  | .negate, operand => failure (.invalidOperands "-" "" operand.text)

def ofFold : Except EvalError Value → Outcome Value
  | .ok constant => value constant
  | .error error => failure error

theorem ofFold_eq_value {folded : Except EvalError Value} :
    ofFold folded = value result ↔ folded = .ok result := by
  cases folded <;> simp [ofFold]

/-- What a binary operator comes to; `&&` and `||` leave the right side out where they can. -/
def binary (operator : BinaryOperator) (left right : Outcome Value) : Outcome Value := do
  match operator with
  | .and =>
    if ← truth (← left) then
      return .bool (← truth (← right))
    else
      return .bool false
  | .or =>
    if ← truth (← left) then
      return .bool true
    else
      return .bool (← truth (← right))
  | _ =>
    let first ← left
    let second ← right
    ofFold (Arithmetic.fold operator first second)

theorem binary_eq_value {left right : Outcome Value} (isStrict : operator ≠ .and ∧ operator ≠ .or) :
    binary operator left right = value result ↔
      ∃ first second,
        left = value first ∧
          right = value second ∧ Arithmetic.fold operator first second = .ok result := by
  have isFolded :
      binary operator left right =
        left >>= fun first => right >>= fun second =>
          ofFold (Arithmetic.fold operator first second) := by
    cases operator with
    | and => exact absurd rfl isStrict.1
    | or => exact absurd rfl isStrict.2
    | _ => rfl
  simp only [isFolded, bind_eq_value, ofFold_eq_value]
  constructor
  · rintro ⟨first, isFirst, second, isSecond, isResult⟩
    exact ⟨first, second, isFirst, isSecond, isResult⟩
  · rintro ⟨first, second, isFirst, isSecond, isResult⟩
    exact ⟨first, isFirst, second, isSecond, isResult⟩

/-- What an expression comes to, given what names come to. -/
def foldOver (known : String → Outcome Value) : Expr → Outcome Value
  | .literal literal => value (.ofLiteral literal)
  | .named name => known name
  | .unary operator operand => foldOver known operand >>= unary operator
  | .binary operator left right => binary operator (foldOver known left) (foldOver known right)
  | expression => failure (.notConstant expression.text)

end Outcome

variable {program : Program} {state : State}

/-- Whether a query for a constant comes to an outcome and leaves the state as it is. -/
def FoldsTo (program : Program) (evaluator : Evaluator) (state : State) (folding : Folding α)
    (outcome : Outcome α) : Prop :=
  Engine.ComesTo program evaluator state folding.run outcome.settled

theorem settles_lift {query : Query α} {result : α} {final : State}
    (settles : Settles program evaluator query state result final) :
    Settles program evaluator (liftM query : Folding α).run state (.ok result) final := by
  change Settles program evaluator (Except.ok <$> query) state (.ok result) final
  rw [map_eq_pure_bind]
  exact .bind settles (Yields.pure _)

namespace FoldsTo

theorem pure (result : α) : FoldsTo program evaluator state (Pure.pure result) (.value result) :=
  .ofYields (.pure (Except.ok result))

theorem throw (error : EvalError) :
    FoldsTo program evaluator state (MonadExcept.throw error : Folding α) (.failure error) :=
  .ofYields (.pure (Except.error error))

theorem bind
    {folding : Folding α} {next : α → Folding β} {outcome : Outcome α} {last : α → Outcome β}
    (firstly : FoldsTo program evaluator state folding outcome)
    (secondly : ∀ result, FoldsTo program evaluator state (next result) (last result)) :
    FoldsTo program evaluator state (folding >>= next) (outcome >>= last) := by
  cases outcome with
  | value result => exact ComesTo.bind firstly (secondly result)
  | failure error => exact ComesTo.bind firstly (throw error)
  | overflow => exact ComesTo.bind_halt firstly

theorem bind_value {folding : Folding α} {next : α → Folding β} {result : α} {outcome : Outcome β}
    (firstly : FoldsTo program evaluator state folding (.value result))
    (secondly : FoldsTo program evaluator state (next result) outcome) :
    FoldsTo program evaluator state (folding >>= next) outcome :=
  ComesTo.bind firstly secondly

theorem lift
    {query : Query α} {result : α} (yields : Yields program evaluator state query result) :
    FoldsTo program evaluator state (liftM query : Folding α) (.value result) :=
  settles_lift yields

theorem liftOverflow :
    FoldsTo program evaluator state
      (liftM (MonadExcept.throw Halt.negationOverflow : Query α) : Folding α) .overflow := by
  change ComesTo program evaluator state
    (Except.ok <$> (MonadExcept.throw Halt.negationOverflow : Query α)) (.error .negationOverflow)
  rw [map_eq_pure_bind]
  exact .bind_halt (.halt .negationOverflow)

theorem ofTruth (constant : Value) :
    FoldsTo program evaluator state (Constant.truth constant) (.truth constant) := by
  unfold Constant.truth Outcome.truth
  cases constant.truth? with
  | some truth => exact pure truth
  | none => exact throw _

theorem ofUnary (operator : UnaryOperator) (operand : Value) :
    FoldsTo program evaluator state (Constant.ofUnary operator operand)
      (.unary operator operand) := by
  cases operator with
  | not => exact bind (ofTruth operand) fun _ => pure _
  | negate =>
    cases operand with
    | integer number type =>
      simp only [Constant.ofUnary, Outcome.unary]
      cases Integer.checked? (-number) with
      | some negated => exact pure _
      | none => exact liftOverflow
    | float number type => exact pure _
    | _ => exact throw _

theorem ofBinary {left right : Expr} {leftOutcome rightOutcome : Outcome Value}
    (leftFolds : FoldsTo program evaluator state (Constant.value left) leftOutcome)
    (rightFolds : FoldsTo program evaluator state (Constant.value right) rightOutcome)
    (operator : BinaryOperator) :
    FoldsTo program evaluator state (Constant.ofBinary operator left right)
      (.binary operator leftOutcome rightOutcome) := by
  have ofFold (folded : Except EvalError Value) :
      FoldsTo program evaluator state (ExceptT.mk (Pure.pure folded)) (.ofFold folded) := by
    cases folded with
    | ok constant => exact pure constant
    | error error => exact throw error
  cases operator with
  | and =>
    refine bind leftFolds fun first => bind (ofTruth first) fun isTrue => ?_
    cases isTrue with
    | true => exact bind rightFolds fun second => bind (ofTruth second) fun _ => pure _
    | false => exact pure _
  | or =>
    refine bind leftFolds fun first => bind (ofTruth first) fun isTrue => ?_
    cases isTrue with
    | true => exact pure _
    | false => exact bind rightFolds fun second => bind (ofTruth second) fun _ => pure _
  | _ => exact bind leftFolds fun first => bind rightFolds fun second => ofFold _

theorem ofExpression {known : String → Outcome Value}
    (isBuilt : expression.IsBuiltFrom isLiteral isOperator)
    (names : ∀ name, FoldsTo program evaluator state (Constant.ofName name) (known name)) :
    FoldsTo program evaluator state (Constant.value expression) (.foldOver known expression) := by
  induction isBuilt with
  | literal _ => exact .ask (pure _)
  | named name => exact .ask (names name)
  | unary _ ih =>
    exact .ask (bind ih fun operand => ofUnary _ operand)
  | binary _ _ _ leftFolds rightFolds => exact .ask (ofBinary leftFolds rightFolds _)

theorem ofInitializer {id : NodeId} {initializer : Expr} {outcome : Outcome Value}
    (isRunning : state.isCancelled = false) (isPositive : state.guard.IsPositive)
    (inner :
      (state.guard.enter id).depth id ≤ Guard.evaluationLimit →
        FoldsTo program evaluator (state.reading program.tree id .none) (Constant.value initializer)
          outcome) :
    FoldsTo program evaluator state (Constant.ofInitializer ⟨id, none⟩ initializer)
      (if (state.guard.enter id).depth id ≤ Guard.evaluationLimit then outcome
        else .failure .recursion) := by
  unfold FoldsTo Constant.ofInitializer
  rw [ExceptT.run_mk]
  apply ComesTo.visiting isPositive
  by_cases isShallow : (state.guard.enter id).depth id ≤ Guard.evaluationLimit
  · rw [if_neg (Nat.not_lt.mpr isShallow), if_pos isShallow]
    apply ComesTo.bind (.ofYields (.ofReads .tree))
    have framed :
        ComesTo program evaluator { state with guard := state.guard.enter id }
          (Query.withFrame (.ofDeclaration program.tree id .none) (Query.valueOf initializer))
          (outcome.settled.map some) :=
      .withFrame isRunning (inner isShallow)
    cases outcome with
    | value result => exact .bind framed (.ofYields (.pure _))
    | failure error => exact .bind framed (.ofYields (.pure _))
    | overflow => exact .bind_halt framed
  · rw [if_pos (Nat.lt_of_not_le isShallow), if_neg isShallow]
    exact .ofYields (.pure _)

end FoldsTo

namespace Outcome

variable {known other : String → Outcome Value}

theorem binary_mono {left right otherLeft otherRight : Outcome Value}
    (sameLeft : ∀ first, left = value first → otherLeft = value first)
    (sameRight : ∀ second, right = value second → otherRight = value second)
    (isResult : binary operator left right = value result) :
    binary operator otherLeft otherRight = value result := by
  cases operator with
  | and | or =>
    obtain ⟨first, isFirst, isResult⟩ := bind_eq_value.mp isResult
    refine bind_eq_value.mpr ⟨first, sameLeft first isFirst, ?_⟩
    obtain ⟨isTrue, isTruth, isResult⟩ := bind_eq_value.mp isResult
    refine bind_eq_value.mpr ⟨isTrue, isTruth, ?_⟩
    -- One truth value settles the result, the other leaves it to the second operand.
    cases isTrue <;>
      first
      | exact isResult
      | obtain ⟨second, isSecond, isResult⟩ := bind_eq_value.mp isResult
        exact bind_eq_value.mpr ⟨second, sameRight second isSecond, isResult⟩
  | _ =>
    obtain ⟨first, isFirst, isResult⟩ := bind_eq_value.mp isResult
    obtain ⟨second, isSecond, isResult⟩ := bind_eq_value.mp isResult
    exact bind_eq_value.mpr ⟨first, sameLeft first isFirst,
      bind_eq_value.mpr ⟨second, sameRight second isSecond, isResult⟩⟩

theorem foldOver_mono (isBuilt : expression.IsBuiltFrom isLiteral isOperator)
    (names : ∀ name constant, known name = value constant → other name = value constant)
    (isResult : foldOver known expression = value result) :
    foldOver other expression = value result := by
  induction isBuilt generalizing result with
  | literal _ => exact isResult
  | named name => exact names name result isResult
  | unary _ ih =>
    obtain ⟨operand, isOperand, isResult⟩ := bind_eq_value.mp isResult
    exact bind_eq_value.mpr ⟨operand, ih isOperand, isResult⟩
  | binary _ _ _ leftHypothesis rightHypothesis =>
    exact binary_mono (fun _ isFirst => leftHypothesis isFirst)
      (fun _ isSecond => rightHypothesis isSecond) isResult

end Outcome

end Constant

/-- A manifest constant that is a member of a module. -/
structure Node.IsManifest (module : NodeId) (initializer : Expr) (node : Node) : Prop where
  isConstant : node.kind = .var none (some initializer)
  isConst : node.isConst = true
  isInside : node.parent = some module

/-- A module of manifest constants with distinct names that is the only one of the program. -/
structure ConstantModule (program : Program) extends LoneModule program where
  areManifest :
    ∀ id ∈ module.children,
      ∃ entry initializer,
        program.tree.node? id = some entry ∧ entry.IsManifest moduleId initializer
  haveDistinctNames : (module.children.map program.tree.nameOf).Nodup

namespace ConstantModule

variable {program : Program} (constants : ConstantModule program) {state : State} {name : String}
  {id : NodeId} {initializer : Expr} {steps : Nat}

def plain : PlainModule program where
  toLoneModule := constants.toLoneModule
  areOrdinary := by
    intro id isMember
    obtain ⟨entry, initializer, isEntry, isManifest⟩ := constants.areManifest id isMember
    exact ⟨entry, isEntry, by rw [Node.isOrdinary, isManifest.isConstant]⟩
  areDistinct := List.Nodup.of_map _ constants.haveDistinctNames

def find? (name : String) : Option NodeId :=
  constants.module.children.find? (program.tree.nameOf · == name)

def initializer? (name : String) : Option Expr :=
  ((constants.find? name).bind program.tree.node?).bind Node.initializer?

theorem declared_eq (name : String) :
    constants.plain.declared name .all = (constants.find? name).toList :=
  constants.plain.ordinary.declared_all constants.haveDistinctNames name

theorem find?_spec (isFound : constants.find? name = some id) :
    program.tree.nameOf id = name ∧
      ∃ entry initializer,
        program.tree.node? id = some entry ∧
          entry.IsManifest constants.moduleId initializer ∧
          constants.initializer? name = some initializer := by
  obtain ⟨entry, initializer, isEntry, isManifest⟩ :=
    constants.areManifest id (List.mem_of_find?_eq_some isFound)
  refine ⟨by simpa using List.find?_some isFound, entry, initializer, isEntry, isManifest, ?_⟩
  simp [initializer?, isFound, isEntry, Node.initializer?, isManifest.isConstant]

/-- A query that stands in the module and was not cancelled. -/
structure Stands (state : State) : Prop where
  isRunning : state.isCancelled = false
  isScope : state.stack.top.scope = constants.moduleId
  isPositive : state.guard.IsPositive

theorem stands_start : constants.Stands constants.start :=
  ⟨rfl, rfl, constants.isPositive_start⟩

theorem Stands.reading
    {constants : ConstantModule program} {entry : Node} (stands : constants.Stands state)
    (isEntry : program.tree.node? id = some entry)
    (isManifest : entry.IsManifest constants.moduleId initializer) :
    constants.Stands (state.reading program.tree id .none) where
  isRunning := stands.isRunning
  isScope := by
    simp [State.reading, State.push, Stack.push, Frame.ofDeclaration, Tree.scopeOf, isEntry,
      Node.isBlock, isManifest.isConstant, isManifest.isInside]
  isPositive := stands.isPositive.enter id

section Names

open Constant

variable {constants} {outcome : Outcome Value}

theorem foldsTo_ofName_of_none
    (stands : constants.Stands state) (isMissing : constants.find? name = none) :
    FoldsTo program evaluator state (ofName name) (.failure (.unresolved name)) := by
  have isVisible := constants.plain.yields_visible evaluator stands.isRunning stands.isScope name .all
  rw [constants.declared_eq, isMissing] at isVisible
  exact .bind_value (.lift isVisible) (.throw _)

theorem foldsTo_ofName_of_some
    {entry : Node} (stands : constants.Stands state) (isFound : constants.find? name = some id)
    (isEntry : program.tree.node? id = some entry)
    (isManifest : entry.IsManifest constants.moduleId initializer)
    (inner : FoldsTo program evaluator state (ofInitializer ⟨id, none⟩ initializer) outcome) :
    FoldsTo program evaluator state (ofName name) outcome := by
  have isVisible := constants.plain.yields_visible evaluator stands.isRunning stands.isScope name .all
  rw [constants.declared_eq, isFound] at isVisible
  have declares : FoldsTo program evaluator state (ofDeclaration ⟨id, none⟩) outcome := by
    apply FoldsTo.bind_value (.lift (.ofReads (.node isEntry)))
    rw [isManifest.isConstant]
    rw [isManifest.isConst]
    exact inner
  exact .bind_value (.lift isVisible) declares

end Names

/-- What names come to when constants may be unfolded inside each other so many times. -/
def outcomeAt : Nat → String → Constant.Outcome Value
  | 0, _ => .failure .recursion
  | steps + 1, name =>
    match constants.initializer? name with
    | some initializer => .foldOver (outcomeAt steps) initializer
    | none => .failure (.unresolved name)

theorem outcomeAt_succ (isInitializer : constants.initializer? name = some initializer) :
    constants.outcomeAt (steps + 1) name = .foldOver (constants.outcomeAt steps) initializer := by
  rw [outcomeAt, isInitializer]

/-- The initializers are built from literals and operators of some kind. -/
def AreBuiltFrom (isLiteral : Literal → Prop) (isOperator : BinaryOperator → Prop) : Prop :=
  ∀ id ∈ constants.module.children,
    ∀ initializer, (program.tree.node? id).bind Node.initializer? = some initializer →
      initializer.IsBuiltFrom isLiteral isOperator

variable {constants} in
theorem AreBuiltFrom.isBuilt (areBuilt : constants.AreBuiltFrom isLiteral isOperator)
    (isInitializer : constants.initializer? name = some initializer) :
    initializer.IsBuiltFrom isLiteral isOperator := by
  rw [initializer?, Option.bind_assoc] at isInitializer
  obtain ⟨id, isFound, isInitializer⟩ := Option.bind_eq_some_iff.mp isInitializer
  exact areBuilt id (List.mem_of_find?_eq_some isFound) initializer isInitializer

theorem outcomeAt_eq_value (isResult : constants.outcomeAt steps name = .value result) :
    ∃ lower id initializer,
      steps = lower + 1 ∧
        constants.find? name = some id ∧
        constants.initializer? name = some initializer ∧
          Constant.Outcome.foldOver (constants.outcomeAt lower) initializer = .value result := by
  cases steps with
  | zero => cases isResult
  | succ lower =>
    rw [outcomeAt] at isResult
    cases isInitializer : constants.initializer? name with
    | none =>
      rw [isInitializer] at isResult
      cases isResult
    | some initializer =>
      rw [isInitializer] at isResult
      obtain ⟨entry, isEntry, -⟩ := Option.bind_eq_some_iff.mp isInitializer
      obtain ⟨id, isFound, -⟩ := Option.bind_eq_some_iff.mp isEntry
      exact ⟨lower, id, initializer, rfl, isFound, rfl, isResult⟩

section Values

open Constant

variable {constants} {steps more : Nat} {known : String → Outcome Value} {guard : Guard}

section

variable (areBuilt : constants.AreBuiltFrom isLiteral isOperator)
include areBuilt

theorem outcomeAt_mono (isMore : steps ≤ more)
    (isResult : constants.outcomeAt steps name = .value result) :
    constants.outcomeAt more name = .value result := by
  induction steps generalizing more name result with
  | zero => cases isResult
  | succ steps ih =>
    obtain ⟨_, id, initializer, ⟨⟩, -, isInitializer, isResult⟩ :=
      constants.outcomeAt_eq_value isResult
    obtain ⟨more, rfl⟩ : ∃ lower, more = lower + 1 := ⟨more - 1, by omega⟩
    rw [constants.outcomeAt_succ isInitializer]
    refine Outcome.foldOver_mono (areBuilt.isBuilt isInitializer) ?_ isResult
    intro other constant isConstant
    exact ih (by omega) isConstant

/-- No constant that comes to a value within so many steps is being evaluated. -/
def IsClear (constants : ConstantModule program) (guard : Guard) (steps : Nat) : Prop :=
  ∀ name id result,
    constants.find? name = some id → constants.outcomeAt steps name = .value result →
      guard.depth id = 0

/--
What a name comes to under a guard.

It is what the query for the name comes to in every state with this guard. A
value is one that unfolding gives, and every value that unfolding gives within
some steps is found, provided that no constant with such a value is being
evaluated.
-/
structure Meets (constants : ConstantModule program) (evaluator : Evaluator) (guard : Guard)
    (name : String) (outcome : Outcome Value) : Prop where
  folds :
    ∀ state, constants.Stands state → state.guard = guard →
      FoldsTo program evaluator state (ofName name) outcome
  isSound :
    ∀ result, outcome = .value result → ∃ steps, constants.outcomeAt steps name = .value result
  isComplete :
    ∀ steps result, constants.IsClear guard steps →
      constants.outcomeAt steps name = .value result → outcome = .value result

/-- If each name has its value by unfolding, then so has an expression. -/
theorem exists_steps (isBuilt : expression.IsBuiltFrom isLiteral isOperator)
    (names :
      ∀ name result, known name = .value result →
        ∃ steps, constants.outcomeAt steps name = .value result) :
    ∃ steps, ∀ result,
      Outcome.foldOver known expression = .value result →
        Outcome.foldOver (constants.outcomeAt steps) expression = .value result := by
  induction isBuilt with
  | literal _ => exact ⟨0, fun _ isResult => isResult⟩
  | named name =>
    cases isKnown : known name with
    | value constant =>
      obtain ⟨steps, isConstant⟩ := names name constant isKnown
      refine ⟨steps, fun result isResult => ?_⟩
      rw [Outcome.foldOver, isKnown] at isResult
      cases isResult
      exact isConstant
    | failure error =>
      refine ⟨0, fun result isResult => ?_⟩
      rw [Outcome.foldOver, isKnown] at isResult
      cases isResult
    | overflow =>
      refine ⟨0, fun result isResult => ?_⟩
      rw [Outcome.foldOver, isKnown] at isResult
      cases isResult
  | unary _ ih =>
    obtain ⟨steps, isSame⟩ := ih
    refine ⟨steps, fun result isResult => ?_⟩
    obtain ⟨operand, isOperand, isResult⟩ := Outcome.bind_eq_value.mp isResult
    exact Outcome.bind_eq_value.mpr ⟨operand, isSame operand isOperand, isResult⟩
  | binary _ isLeftBuilt isRightBuilt leftHypothesis rightHypothesis =>
    obtain ⟨leftSteps, sameLeft⟩ := leftHypothesis
    obtain ⟨rightSteps, sameRight⟩ := rightHypothesis
    refine ⟨max leftSteps rightSteps, fun result isResult => ?_⟩
    apply Outcome.binary_mono _ _ isResult
    · intro first isFirst
      exact Outcome.foldOver_mono isLeftBuilt
        (fun _ _ => outcomeAt_mono areBuilt (Nat.le_max_left _ _)) (sameLeft first isFirst)
    · intro second isSecond
      exact Outcome.foldOver_mono isRightBuilt
        (fun _ _ => outcomeAt_mono areBuilt (Nat.le_max_right _ _)) (sameRight second isSecond)

theorem IsClear.mono (isMore : steps ≤ more) (isClear : constants.IsClear guard more) :
    constants.IsClear guard steps :=
  fun name id result isFound isResult =>
    isClear name id result isFound (outcomeAt_mono areBuilt isMore isResult)

end

theorem IsClear.enter
    (isClear : constants.IsClear guard steps) (isFound : constants.find? name = some id)
    (isOpen : ∀ result, constants.outcomeAt steps name ≠ .value result) :
    constants.IsClear (guard.enter id) steps := by
  intro other otherId result isOther isResult
  have isDifferent : id ≠ otherId := by
    rintro rfl
    have isSame : name = other :=
      (constants.find?_spec isFound).1.symm.trans (constants.find?_spec isOther).1
    subst isSame
    exact isOpen result isResult
  rw [Guard.depth_enter_of_ne isDifferent]
  exact isClear other otherId result isOther isResult

theorem meets_of_none (guard : Guard) (isMissing : constants.find? name = none) :
    constants.Meets evaluator guard name (.failure (.unresolved name)) where
  folds _ stands _ := foldsTo_ofName_of_none stands isMissing
  isSound := nofun
  isComplete steps result _ isResult := by
    obtain ⟨_, id, _, _, isFound, -⟩ := constants.outcomeAt_eq_value isResult
    rw [isMissing] at isFound
    cases isFound

theorem meets_of_deep (isFound : constants.find? name = some id)
    (isDeep : ¬(guard.enter id).depth id ≤ Guard.evaluationLimit) :
    constants.Meets evaluator guard name (.failure .recursion) where
  folds state stands isGuard := by
    subst isGuard
    obtain ⟨-, entry, initializer, isEntry, isManifest, -⟩ := constants.find?_spec isFound
    have folds :
        FoldsTo program evaluator state (ofInitializer ⟨id, none⟩ initializer)
          (if (state.guard.enter id).depth id ≤ Guard.evaluationLimit then .overflow
            else .failure .recursion) :=
      .ofInitializer stands.isRunning stands.isPositive fun isShallow => absurd isShallow isDeep
    rw [if_neg isDeep] at folds
    exact foldsTo_ofName_of_some stands isFound isEntry isManifest folds
  isSound := nofun
  isComplete steps result isClear isResult := by
    have isFresh := isClear name id result isFound isResult
    rw [Guard.depth_enter_self, isFresh] at isDeep
    exact absurd (by decide) isDeep

/-- A constant that may be entered comes to what its initializer comes to inside it. -/
theorem meets_of_shallow (areBuilt : constants.AreBuiltFrom isLiteral isOperator)
    (isFound : constants.find? name = some id)
    (isInitializer : constants.initializer? name = some initializer)
    (isShallow : (guard.enter id).depth id ≤ Guard.evaluationLimit)
    (meets : ∀ other, constants.Meets evaluator (guard.enter id) other (known other)) :
    constants.Meets evaluator guard name (.foldOver known initializer) where
  folds state stands isGuard := by
    subst isGuard
    obtain ⟨-, entry, _, isEntry, isManifest, isSame⟩ := constants.find?_spec isFound
    cases isInitializer.symm.trans isSame
    have isBuilt := areBuilt.isBuilt isInitializer
    have folds : FoldsTo program evaluator state (ofInitializer ⟨id, none⟩ initializer) _ :=
      .ofInitializer stands.isRunning stands.isPositive fun _ =>
        FoldsTo.ofExpression isBuilt fun other =>
          (meets other).folds _ (stands.reading isEntry isManifest) rfl
    rw [if_pos isShallow] at folds
    exact foldsTo_ofName_of_some stands isFound isEntry isManifest folds
  isSound result isResult := by
    have isBuilt := areBuilt.isBuilt isInitializer
    obtain ⟨steps, isSame⟩ := exists_steps areBuilt isBuilt fun other => (meets other).isSound
    exact ⟨steps + 1, (constants.outcomeAt_succ isInitializer).trans (isSame result isResult)⟩
  isComplete steps result isClear isResult := by
    -- If fewer steps are enough, they are enough here too; else no value needs the name itself.
    induction steps generalizing result with
    | zero => cases isResult
    | succ steps ih =>
      have isClearBelow := isClear.mono areBuilt (Nat.le_succ steps)
      by_cases isOpen : ∀ lower, constants.outcomeAt steps name ≠ .value lower
      · rw [constants.outcomeAt_succ isInitializer] at isResult
        refine Outcome.foldOver_mono (areBuilt.isBuilt isInitializer) ?_ isResult
        intro other constant isConstant
        exact (meets other).isComplete steps constant (isClearBelow.enter isFound isOpen) isConstant
      · simp only [not_forall, not_not] at isOpen
        obtain ⟨lower, isLower⟩ := isOpen
        have isSame := outcomeAt_mono areBuilt (Nat.le_succ steps) isLower
        cases isResult.symm.trans isSame
        exact ih _ isClearBelow isLower

theorem exists_meets
    (evaluator : Evaluator) (areBuilt : constants.AreBuiltFrom isLiteral isOperator) (guard : Guard)
    (name : String) : ∃ outcome, constants.Meets evaluator guard name outcome := by
  -- Each time a constant is entered less is left of what the guard allows.
  induction isBudget : guard.budget program.tree using Nat.strongRecOn generalizing guard name with
  | ind budget ih =>
    cases isFound : constants.find? name with
    | none => exact ⟨_, meets_of_none guard isFound⟩
    | some id =>
      obtain ⟨-, entry, initializer, isEntry, -, isInitializer⟩ := constants.find?_spec isFound
      by_cases isShallow : (guard.enter id).depth id ≤ Guard.evaluationLimit
      · have isLess : (guard.enter id).budget program.tree < budget :=
          isBudget ▸ Guard.budget_enter_lt (by rw [isEntry]; rfl) isShallow
        have inside : ∀ other, ∃ outcome,
            constants.Meets evaluator (guard.enter id) other outcome :=
          fun other => ih _ isLess (guard.enter id) other rfl
        obtain ⟨known, meets⟩ := Classical.skolem.mp inside
        exact ⟨_, meets_of_shallow areBuilt isFound isInitializer isShallow meets⟩
      · exact ⟨_, meets_of_deep isFound isShallow⟩

/--
In a fresh query an expression comes to one outcome, and that is a value exactly
if unfolding constants gives this value.
-/
theorem exists_outcome
    (evaluator : Evaluator) (areBuilt : constants.AreBuiltFrom isLiteral isOperator)
    (isBuilt : expression.IsBuiltFrom isLiteral isOperator) :
    ∃ outcome,
      FoldsTo program evaluator constants.start (value expression) outcome ∧
        ∀ result,
          outcome = .value result ↔
            ∃ steps, Outcome.foldOver (constants.outcomeAt steps) expression = .value result := by
  obtain ⟨known, meets⟩ := Classical.skolem.mp (exists_meets evaluator areBuilt {})
  refine ⟨.foldOver known expression,
    .ofExpression isBuilt fun name => (meets name).folds _ constants.stands_start rfl,
    fun result => ⟨fun isResult => ?_, ?_⟩⟩
  · obtain ⟨steps, isSame⟩ := exists_steps areBuilt isBuilt fun name => (meets name).isSound
    exact ⟨steps, isSame result isResult⟩
  · rintro ⟨steps, isResult⟩
    refine Outcome.foldOver_mono isBuilt (fun name constant isConstant => ?_) isResult
    exact (meets name).isComplete steps constant (fun _ _ _ _ _ => rfl) isConstant

end Values

end ConstantModule

end DScope
