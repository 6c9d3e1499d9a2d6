import DScope.Proofs.Constants

namespace DScope

/-!
# Big-step semantics of whole-number constants

Expressions over literals of whole-number and truth types, names of constants
and operators have a big-step semantics: a name is worth what its initializer is
worth, however deep that goes, numbers are exact and have 128 bits, and `&&` and
`||` look at the right side only where they have to. Evaluation gives a value
exactly where the semantics does, and the same one.
-/

open Arithmetic BinaryOperator Integer ConstantModule

variable {operator : BinaryOperator} {result : Value} {expression : Expr}

/-- A constant as a number with its type; a truth value counts as zero or one. -/
inductive Value.Counts : Value → Int → BasicType → Prop
  | integer (number : Int) (type : BasicType) : Counts (.integer number type) number type
  | bool (truth : Bool) : Counts (.bool truth) (if truth then 1 else 0) .bool

/-- Exact arithmetic on numbers of 128 bits. -/
inductive BinaryOperator.Computes : BinaryOperator → Int → Int → Int → Prop
  | add {left right : Int} (inRange : Integer.InRange (left + right)) :
      Computes .add left right (left + right)
  | subtract {left right : Int} (inRange : Integer.InRange (left - right)) :
      Computes .subtract left right (left - right)
  | multiply {left right : Int} (inRange : Integer.InRange (left * right)) :
      Computes .multiply left right (left * right)
  | divide
      {left right : Int}
      (isNonzero : right ≠ 0)
      (inRange : Integer.InRange (left.tdiv right)) :
      Computes .divide left right (left.tdiv right)
  | remainder
      {left right : Int}
      (isNonzero : right ≠ 0)
      (inRange : Integer.InRange (left.tdiv right)) :
      Computes .remainder left right (left.tmod right)

/-- What an expression is worth, given the initializers of constants. -/
inductive BigStep (initializer? : String → Option Expr) : Expr → Value → Prop
  | integer (number : Int) (type : BasicType) :
      BigStep initializer? (.literal (.integer number type)) (.integer number type)
  | bool (truth : Bool) : BigStep initializer? (.literal (.bool truth)) (.bool truth)
  | constant
      {name : String}
      {initializer : Expr}
      {value : Value}
      (isInitializer : initializer? name = some initializer)
      (unfolded : BigStep initializer? initializer value) :
      BigStep initializer? (.named name) value
  | not
      {operand : Expr}
      {value : Value}
      {number : Int}
      {type : BasicType}
      (evaluated : BigStep initializer? operand value)
      (counts : value.Counts number type) :
      BigStep initializer? (.unary .not operand) (.bool (decide (number = 0)))
  | negate
      {operand : Expr}
      {number : Int}
      {type : BasicType}
      (evaluated : BigStep initializer? operand (.integer number type))
      (inRange : Integer.InRange (-number)) :
      BigStep initializer? (.unary .negate operand) (.integer (-number) type)
  | arithmetic
      {operator : BinaryOperator}
      {left right : Expr}
      {first second : Value}
      {firstNumber secondNumber number : Int}
      {firstType secondType : BasicType}
      (firstEvaluated : BigStep initializer? left first)
      (secondEvaluated : BigStep initializer? right second)
      (firstCounts : first.Counts firstNumber firstType)
      (secondCounts : second.Counts secondNumber secondType)
      (computes : operator.Computes firstNumber secondNumber number) :
      BigStep initializer? (.binary operator left right)
        (.integer number (firstType.promote secondType))
  | equal
      {left right : Expr}
      {first second : Value}
      {firstNumber secondNumber : Int}
      {firstType secondType : BasicType}
      (firstEvaluated : BigStep initializer? left first)
      (secondEvaluated : BigStep initializer? right second)
      (firstCounts : first.Counts firstNumber firstType)
      (secondCounts : second.Counts secondNumber secondType) :
      BigStep initializer? (.binary .equal left right)
        (.bool (decide (firstNumber = secondNumber)))
  | notEqual
      {left right : Expr}
      {first second : Value}
      {firstNumber secondNumber : Int}
      {firstType secondType : BasicType}
      (firstEvaluated : BigStep initializer? left first)
      (secondEvaluated : BigStep initializer? right second)
      (firstCounts : first.Counts firstNumber firstType)
      (secondCounts : second.Counts secondNumber secondType) :
      BigStep initializer? (.binary .notEqual left right)
        (.bool (decide (firstNumber ≠ secondNumber)))
  | andLeft
      {left right : Expr}
      {first : Value}
      {firstType : BasicType}
      (firstEvaluated : BigStep initializer? left first)
      (firstCounts : first.Counts 0 firstType) :
      BigStep initializer? (.binary .and left right) (.bool false)
  | andRight
      {left right : Expr}
      {first second : Value}
      {firstNumber secondNumber : Int}
      {firstType secondType : BasicType}
      (firstEvaluated : BigStep initializer? left first)
      (firstCounts : first.Counts firstNumber firstType)
      (isNonzero : firstNumber ≠ 0)
      (secondEvaluated : BigStep initializer? right second)
      (secondCounts : second.Counts secondNumber secondType) :
      BigStep initializer? (.binary .and left right) (.bool (decide (secondNumber ≠ 0)))
  | orLeft
      {left right : Expr}
      {first : Value}
      {firstNumber : Int}
      {firstType : BasicType}
      (firstEvaluated : BigStep initializer? left first)
      (firstCounts : first.Counts firstNumber firstType)
      (isNonzero : firstNumber ≠ 0) :
      BigStep initializer? (.binary .or left right) (.bool true)
  | orRight
      {left right : Expr}
      {first second : Value}
      {secondNumber : Int}
      {firstType secondType : BasicType}
      (firstEvaluated : BigStep initializer? left first)
      (firstCounts : first.Counts 0 firstType)
      (secondEvaluated : BigStep initializer? right second)
      (secondCounts : second.Counts secondNumber secondType) :
      BigStep initializer? (.binary .or left right) (.bool (decide (secondNumber ≠ 0)))

/-- Literals of whole-number and truth types. -/
def Literal.IsIntegral : Literal → Prop
  | .integer _ type => type.isFloating = false
  | .bool _ => True
  | _ => False

/-- The operators on whole numbers and truth values. -/
def BinaryOperator.integral : List BinaryOperator :=
  [.add, .subtract, .multiply, .divide, .remainder, .equal, .notEqual, .and, .or]

/-- Numbers of whole-number type and truth values. -/
def Value.IsIntegral : Value → Prop
  | .integer _ basic => basic.isFloating = false
  | .bool _ => True
  | _ => False

namespace BasicType

theorem isFloating_promote {left right : BasicType} (isLeftWhole : left.isFloating = false)
    (isRightWhole : right.isFloating = false) : (left.promote right).isFloating = false := by
  have isWhole : ∀ type : BasicType, type.isFloating = false → type.widened.isFloating = false := by
    intro type isWhole
    unfold widened
    split
    · rfl
    · exact isWhole
  unfold promote
  rw [isLeftWhole, isRightWhole]
  simp only [Bool.false_eq_true, if_false]
  split
  · exact isWhole right isRightWhole
  · exact isWhole left isLeftWhole

end BasicType

namespace Value.Counts

variable {value other : Value} {number otherNumber : Int} {type otherType : BasicType}

theorem ofIntegral (isIntegral : value.IsIntegral) :
    ∃ number type, value.Counts number type ∧ type.isFloating = false := by
  cases value with
  | integer number type => exact ⟨number, type, .integer number type, isIntegral⟩
  | bool truth => exact ⟨_, _, .bool truth, rfl⟩
  | _ => cases isIntegral

variable (counts : value.Counts number type)
include counts

theorem isFloating_eq (isIntegral : value.IsIntegral) : type.isFloating = false := by
  cases counts with
  | integer => exact isIntegral
  | bool => rfl

theorem integer?_eq : value.integer? = some number := by
  cases counts <;> rfl

theorem operandType_eq : operandType value = type := by
  cases counts <;> rfl

theorem isFinal_eq : value.isFinal = true := by
  cases counts <;> rfl

theorem truth_eq : Constant.Outcome.truth value = .value (decide (number ≠ 0)) := by
  cases counts with
  | integer number type =>
    simp [Constant.Outcome.truth, truth?, bne, Bool.beq_eq_decide_eq]
  | bool truth => cases truth <;> rfl

theorem unary_not : Constant.Outcome.unary .not value = .value (.bool (decide (number = 0))) := by
  rw [Constant.Outcome.unary, counts.truth_eq]
  by_cases isZero : number = 0 <;> simp [isZero] <;> rfl

section

variable (otherCounts : other.Counts otherNumber otherType)
include otherCounts

theorem same_eq : value.same other = decide (number = otherNumber) := by
  have isSame : value.same other = value.sameNumber other := by
    cases counts <;> cases otherCounts <;> simp only [same]
  rw [isSame, sameNumber, counts.integer?_eq, otherCounts.integer?_eq]
  exact beq_eq_decide _ _

theorem fold_equal : fold .equal value other = .ok (.bool (decide (number = otherNumber))) := by
  simp [fold, counts.isFinal_eq, otherCounts.isFinal_eq, counts.same_eq otherCounts]

theorem fold_notEqual :
    fold .notEqual value other = .ok (.bool (decide (number ≠ otherNumber))) := by
  simp [fold, counts.isFinal_eq, otherCounts.isFinal_eq, counts.same_eq otherCounts]

end

end Value.Counts

namespace BinaryOperator

variable {left right : Value} {leftNumber rightNumber number : Int} {leftType rightType : BasicType}

theorem Computes.mem_arithmetic (computes : operator.Computes leftNumber rightNumber number) :
    operator ∈ arithmetic := by
  cases computes <;> decide

theorem computes_iff (isArithmetic : operator ∈ arithmetic) :
    operator.Computes leftNumber rightNumber number ↔
      (divides operator && rightNumber == 0) = false ∧
        integer? operator leftNumber rightNumber = some number := by
  have isChecked (exact : Int) : checked? exact = some number ↔ InRange exact ∧ exact = number := by
    unfold checked?
    split <;> simp_all
  constructor
  · intro computes
    cases computes <;> simp_all [divides, integer?, checked?]
  · rintro ⟨isDefined, isNumber⟩
    simp only [arithmetic, List.mem_cons, List.not_mem_nil, or_false] at isArithmetic
    rcases isArithmetic with rfl | rfl | rfl | rfl | rfl
    · obtain ⟨inRange, rfl⟩ := (isChecked _).mp isNumber
      exact .add inRange
    · obtain ⟨inRange, rfl⟩ := (isChecked _).mp isNumber
      exact .subtract inRange
    · obtain ⟨inRange, rfl⟩ := (isChecked _).mp isNumber
      exact .multiply inRange
    · obtain ⟨inRange, rfl⟩ := (isChecked _).mp isNumber
      exact .divide (by simpa [divides] using isDefined) inRange
    · obtain ⟨quotient, isQuotient, rfl⟩ := Option.map_eq_some_iff.mp isNumber
      have inRange : InRange (leftNumber.tdiv rightNumber) := by
        by_contra isOutside
        rw [checked?, if_neg isOutside] at isQuotient
        cases isQuotient
      exact .remainder (by simpa [divides] using isDefined) inRange

theorem fold_eq_ok_iff
    (isArithmetic : operator ∈ arithmetic) (leftCounts : left.Counts leftNumber leftType)
    (rightCounts : right.Counts rightNumber rightType) (isLeftWhole : leftType.isFloating = false)
    (isRightWhole : rightType.isFloating = false) :
    fold operator left right = .ok result ↔
      ∃ number,
        operator.Computes leftNumber rightNumber number ∧
          result = .integer number (leftType.promote rightType) := by
  have isFolded :
      fold operator left right = onIntegers operator (leftType.promote rightType) left right := by
    have isWhole := BasicType.isFloating_promote isLeftWhole isRightWhole
    simp only [fold, leftCounts.isFinal_eq, rightCounts.isFinal_eq,
      leftCounts.operandType_eq, rightCounts.operandType_eq, isWhole]
    simp only [arithmetic, List.mem_cons, List.not_mem_nil, or_false] at isArithmetic
    rcases isArithmetic with rfl | rfl | rfl | rfl | rfl <;> rfl
  rw [isFolded, onIntegers, leftCounts.integer?_eq, rightCounts.integer?_eq]
  simp only [computes_iff isArithmetic]
  cases divides operator && rightNumber == 0 with
  | true => simp
  | false =>
    cases integer? operator leftNumber rightNumber with
    | none => simp
    | some number => simp [eq_comm]

end BinaryOperator

namespace BigStep

open Constant

variable {initializer? : String → Option Expr} {known : String → Outcome Value}

/-- Expressions over whole numbers and truth values. -/
abbrev IsFragment (expression : Expr) : Prop :=
  expression.IsBuiltFrom Literal.IsIntegral (· ∈ BinaryOperator.integral)

section Operators

variable {left right : Expr} {first second : Value} {leftOutcome rightOutcome : Outcome Value}

theorem ofFold
    (isKind : operator ∈ BinaryOperator.integral) (isStrict : operator ≠ .and ∧ operator ≠ .or)
    (leftStep : BigStep initializer? left first ∧ first.IsIntegral)
    (rightStep : BigStep initializer? right second ∧ second.IsIntegral)
    (isResult : fold operator first second = .ok result) :
    BigStep initializer? (.binary operator left right) result ∧ result.IsIntegral := by
  obtain ⟨firstNumber, firstType, firstCounts, isFirstWhole⟩ := Value.Counts.ofIntegral leftStep.2
  obtain ⟨secondNumber, secondType, secondCounts, isSecondWhole⟩ :=
    Value.Counts.ofIntegral rightStep.2
  by_cases isArithmetic : operator ∈ BinaryOperator.arithmetic
  · obtain ⟨number, computes, rfl⟩ :=
      (BinaryOperator.fold_eq_ok_iff isArithmetic firstCounts secondCounts isFirstWhole
        isSecondWhole).mp isResult
    exact ⟨.arithmetic leftStep.1 rightStep.1 firstCounts secondCounts computes,
      BasicType.isFloating_promote isFirstWhole isSecondWhole⟩
  · have isComparison : operator = .equal ∨ operator = .notEqual := by
      simp only [BinaryOperator.integral, BinaryOperator.arithmetic, List.mem_cons]
        at isKind isArithmetic
      tauto
    rcases isComparison with rfl | rfl
    · rw [firstCounts.fold_equal secondCounts] at isResult
      cases isResult
      exact ⟨.equal leftStep.1 rightStep.1 firstCounts secondCounts, trivial⟩
    · rw [firstCounts.fold_notEqual secondCounts] at isResult
      cases isResult
      exact ⟨.notEqual leftStep.1 rightStep.1 firstCounts secondCounts, trivial⟩

section

variable
  (leftSteps :
    ∀ first, leftOutcome = .value first → BigStep initializer? left first ∧ first.IsIntegral)
  (rightSteps :
    ∀ second, rightOutcome = .value second → BigStep initializer? right second ∧ second.IsIntegral)
include leftSteps rightSteps

theorem ofAnd (isResult : Outcome.binary .and leftOutcome rightOutcome = .value result) :
    BigStep initializer? (.binary .and left right) result ∧ result.IsIntegral := by
  obtain ⟨first, isFirst, isResult⟩ := Outcome.bind_eq_value.mp isResult
  obtain ⟨leftStep, isFirstIntegral⟩ := leftSteps first isFirst
  obtain ⟨firstNumber, firstType, firstCounts, -⟩ := Value.Counts.ofIntegral isFirstIntegral
  rw [firstCounts.truth_eq] at isResult
  by_cases isZero : firstNumber = 0
  · rw [decide_eq_false (not_not.mpr isZero)] at isResult
    cases isResult
    exact ⟨.andLeft leftStep (isZero ▸ firstCounts), trivial⟩
  · rw [decide_eq_true isZero] at isResult
    obtain ⟨_, ⟨⟩, isResult⟩ := Outcome.bind_eq_value.mp isResult
    obtain ⟨second, isSecond, isResult⟩ := Outcome.bind_eq_value.mp isResult
    obtain ⟨rightStep, isSecondIntegral⟩ := rightSteps second isSecond
    obtain ⟨secondNumber, secondType, secondCounts, -⟩ := Value.Counts.ofIntegral isSecondIntegral
    rw [secondCounts.truth_eq] at isResult
    cases isResult
    exact ⟨.andRight leftStep firstCounts isZero rightStep secondCounts, trivial⟩

theorem ofOr (isResult : Outcome.binary .or leftOutcome rightOutcome = .value result) :
    BigStep initializer? (.binary .or left right) result ∧ result.IsIntegral := by
  obtain ⟨first, isFirst, isResult⟩ := Outcome.bind_eq_value.mp isResult
  obtain ⟨leftStep, isFirstIntegral⟩ := leftSteps first isFirst
  obtain ⟨firstNumber, firstType, firstCounts, -⟩ := Value.Counts.ofIntegral isFirstIntegral
  rw [firstCounts.truth_eq] at isResult
  by_cases isZero : firstNumber = 0
  · rw [decide_eq_false (not_not.mpr isZero)] at isResult
    obtain ⟨_, ⟨⟩, isResult⟩ := Outcome.bind_eq_value.mp isResult
    obtain ⟨second, isSecond, isResult⟩ := Outcome.bind_eq_value.mp isResult
    obtain ⟨rightStep, isSecondIntegral⟩ := rightSteps second isSecond
    obtain ⟨secondNumber, secondType, secondCounts, -⟩ := Value.Counts.ofIntegral isSecondIntegral
    rw [secondCounts.truth_eq] at isResult
    cases isResult
    exact ⟨.orRight leftStep (isZero ▸ firstCounts) rightStep secondCounts, trivial⟩
  · rw [decide_eq_true isZero] at isResult
    cases isResult
    exact ⟨.orLeft leftStep firstCounts isZero, trivial⟩

theorem ofBinary
    (isKind : operator ∈ integral)
    (isResult : Outcome.binary operator leftOutcome rightOutcome = .value result) :
    BigStep initializer? (.binary operator left right) result ∧ result.IsIntegral := by
  rcases eq_or_ne operator .and with rfl | isNotAnd
  · exact ofAnd leftSteps rightSteps isResult
  rcases eq_or_ne operator .or with rfl | isNotOr
  · exact ofOr leftSteps rightSteps isResult
  obtain ⟨first, second, isFirst, isSecond, isResult⟩ :=
    (Outcome.binary_eq_value ⟨isNotAnd, isNotOr⟩).mp isResult
  exact ofFold isKind ⟨isNotAnd, isNotOr⟩ (leftSteps first isFirst) (rightSteps second isSecond)
    isResult

end

theorem ofUnary {operator : UnaryOperator} (leftStep : BigStep initializer? left first)
    (isIntegral : first.IsIntegral) (isResult : Outcome.unary operator first = .value result) :
    BigStep initializer? (.unary operator left) result ∧ result.IsIntegral := by
  cases operator with
  | not =>
    obtain ⟨number, type, counts, -⟩ := Value.Counts.ofIntegral isIntegral
    rw [counts.unary_not] at isResult
    cases isResult
    exact ⟨.not leftStep counts, trivial⟩
  | negate =>
    cases first with
    | integer number type =>
      rw [Outcome.unary, checked?] at isResult
      by_cases inRange : InRange (-number)
      · rw [if_pos inRange] at isResult
        cases isResult
        exact ⟨.negate leftStep inRange, isIntegral⟩
      · rw [if_neg inRange] at isResult
        cases isResult
    | bool truth => cases isResult
    | _ => cases isIntegral

theorem ofFoldOver (isFragment : IsFragment expression)
    (names :
      ∀ name value, known name = .value value →
        BigStep initializer? (.named name) value ∧ value.IsIntegral)
    (isResult : Outcome.foldOver known expression = .value result) :
    BigStep initializer? expression result ∧ result.IsIntegral := by
  induction isFragment generalizing result with
  | @literal literal isKind =>
    cases literal with
    | integer number type =>
      cases isResult
      exact ⟨.integer number type, isKind⟩
    | bool truth =>
      cases isResult
      exact ⟨.bool truth, trivial⟩
    | _ => cases isKind
  | named name => exact names name result isResult
  | unary _ ih =>
    obtain ⟨operand, isOperand, isResult⟩ := Outcome.bind_eq_value.mp isResult
    obtain ⟨step, isIntegral⟩ := ih isOperand
    exact ofUnary step isIntegral isResult
  | binary isKind _ _ leftHypothesis rightHypothesis =>
    exact ofBinary (fun _ isFirst => leftHypothesis isFirst)
      (fun _ isSecond => rightHypothesis isSecond) isKind isResult

end Operators

theorem isIntegral
    (areFragments :
      ∀ {name initializer}, initializer? name = some initializer → IsFragment initializer)
    (isFragment : IsFragment expression) (step : BigStep initializer? expression result) :
    result.IsIntegral := by
  induction step with
  | integer number type =>
    cases isFragment with
    | literal isKind => exact isKind
  | constant isInitializer _ ih =>
    exact ih (areFragments isInitializer)
  | negate _ _ ih =>
    cases isFragment with
    | unary isBuilt => exact ih isBuilt
  | arithmetic _ _ firstCounts secondCounts _ leftHypothesis rightHypothesis =>
    cases isFragment with
    | binary _ isLeftBuilt isRightBuilt =>
      exact BasicType.isFloating_promote
        (firstCounts.isFloating_eq (leftHypothesis isLeftBuilt))
        (secondCounts.isFloating_eq (rightHypothesis isRightBuilt))
  | _ => exact trivial

end BigStep

namespace ConstantModule

open Constant

variable {program : Program} {constants : ConstantModule program}

theorem exists_common_steps {left right : Expr} {first second : Value}
    {isLiteral : Literal → Prop} {isOperator : BinaryOperator → Prop}
    (areBuilt : constants.AreBuiltFrom isLiteral isOperator)
    (isBuilt : (Expr.binary operator left right).IsBuiltFrom isLiteral isOperator)
    (isFirst :
      left.IsBuiltFrom isLiteral isOperator →
        ∃ steps, Outcome.foldOver (constants.outcomeAt steps) left = .value first)
    (isSecond :
      right.IsBuiltFrom isLiteral isOperator →
        ∃ steps, Outcome.foldOver (constants.outcomeAt steps) right = .value second) :
    ∃ steps,
      Outcome.foldOver (constants.outcomeAt steps) left = .value first ∧
        Outcome.foldOver (constants.outcomeAt steps) right = .value second := by
  cases isBuilt with
  | binary _ isLeftBuilt isRightBuilt =>
    obtain ⟨leftSteps, isFirst⟩ := isFirst isLeftBuilt
    obtain ⟨rightSteps, isSecond⟩ := isSecond isRightBuilt
    exact ⟨max leftSteps rightSteps,
      Outcome.foldOver_mono isLeftBuilt
        (fun _ _ => outcomeAt_mono areBuilt (Nat.le_max_left _ _)) isFirst,
      Outcome.foldOver_mono isRightBuilt
        (fun _ _ => outcomeAt_mono areBuilt (Nat.le_max_right _ _)) isSecond⟩

variable (areBuilt : constants.AreBuiltFrom Literal.IsIntegral (· ∈ integral))
  (isFragment : BigStep.IsFragment expression)
include areBuilt isFragment

theorem bigStep_of_foldOver {steps : Nat}
    (isResult : Outcome.foldOver (constants.outcomeAt steps) expression = .value result) :
    BigStep constants.initializer? expression result ∧ result.IsIntegral := by
  induction steps generalizing expression result with
  | zero =>
    refine BigStep.ofFoldOver isFragment (fun name value isValue => ?_) isResult
    cases isValue
  | succ steps ih =>
    refine BigStep.ofFoldOver isFragment (fun name value isValue => ?_) isResult
    obtain ⟨_, _, initializer, ⟨⟩, -, isInitializer, isValue⟩ :=
      constants.outcomeAt_eq_value isValue
    obtain ⟨unfolded, isIntegral⟩ := ih (areBuilt.isBuilt isInitializer) isValue
    exact ⟨.constant isInitializer unfolded, isIntegral⟩

/-- What is derived is given by unfolding. -/
theorem foldOver_of_bigStep
    (step : BigStep constants.initializer? expression result) :
    ∃ steps, Outcome.foldOver (constants.outcomeAt steps) expression = .value result := by
  induction step with
  | integer number type => exact ⟨0, rfl⟩
  | bool truth => exact ⟨0, rfl⟩
  | constant isInitializer _ ih =>
    obtain ⟨steps, isResult⟩ := ih (areBuilt.isBuilt isInitializer)
    exact ⟨steps + 1, (constants.outcomeAt_succ isInitializer).trans isResult⟩
  | not _ counts ih =>
    cases isFragment with
    | unary isBuilt =>
      obtain ⟨steps, isOperand⟩ := ih isBuilt
      exact ⟨steps, Outcome.bind_eq_value.mpr ⟨_, isOperand, counts.unary_not⟩⟩
  | negate _ inRange ih =>
    cases isFragment with
    | unary isBuilt =>
      obtain ⟨steps, isOperand⟩ := ih isBuilt
      refine ⟨steps, Outcome.bind_eq_value.mpr ⟨_, isOperand, ?_⟩⟩
      rw [Outcome.unary, checked?, if_pos inRange]
  | arithmetic firstStep secondStep firstCounts secondCounts computes leftHypothesis
      rightHypothesis =>
    obtain ⟨steps, isFirst, isSecond⟩ :=
      exists_common_steps areBuilt isFragment leftHypothesis rightHypothesis
    cases isFragment with
    | binary _ isLeftBuilt isRightBuilt =>
      have isArithmetic := computes.mem_arithmetic
      have isFirstWhole :=
        firstCounts.isFloating_eq (firstStep.isIntegral areBuilt.isBuilt isLeftBuilt)
      have isSecondWhole :=
        secondCounts.isFloating_eq (secondStep.isIntegral areBuilt.isBuilt isRightBuilt)
      have isFolded :=
        (fold_eq_ok_iff isArithmetic firstCounts secondCounts isFirstWhole
          isSecondWhole).mpr ⟨_, computes, rfl⟩
      exact ⟨steps,
        (Outcome.binary_eq_value (isStrict_of_mem_arithmetic isArithmetic)).mpr
          ⟨_, _, isFirst, isSecond, isFolded⟩⟩
  | equal _ _ firstCounts secondCounts leftHypothesis rightHypothesis =>
    obtain ⟨steps, isFirst, isSecond⟩ :=
      exists_common_steps areBuilt isFragment leftHypothesis rightHypothesis
    exact ⟨steps, (Outcome.binary_eq_value (by decide)).mpr
      ⟨_, _, isFirst, isSecond, firstCounts.fold_equal secondCounts⟩⟩
  | notEqual _ _ firstCounts secondCounts leftHypothesis rightHypothesis =>
    obtain ⟨steps, isFirst, isSecond⟩ :=
      exists_common_steps areBuilt isFragment leftHypothesis rightHypothesis
    exact ⟨steps, (Outcome.binary_eq_value (by decide)).mpr
      ⟨_, _, isFirst, isSecond, firstCounts.fold_notEqual secondCounts⟩⟩
  | andLeft _ firstCounts ih =>
    cases isFragment with
    | binary _ isLeftBuilt _ =>
      obtain ⟨steps, isFirst⟩ := ih isLeftBuilt
      refine ⟨steps, Outcome.bind_eq_value.mpr ⟨_, isFirst, ?_⟩⟩
      rw [firstCounts.truth_eq]
      rfl
  | andRight _ firstCounts isNonzero _ secondCounts leftHypothesis rightHypothesis =>
    obtain ⟨steps, isFirst, isSecond⟩ :=
      exists_common_steps areBuilt isFragment leftHypothesis rightHypothesis
    refine ⟨steps, Outcome.bind_eq_value.mpr ⟨_, isFirst, ?_⟩⟩
    rw [firstCounts.truth_eq, decide_eq_true isNonzero, isSecond]
    refine Outcome.bind_eq_value.mpr ⟨true, rfl, Outcome.bind_eq_value.mpr ⟨_, rfl, ?_⟩⟩
    rw [secondCounts.truth_eq]
    rfl
  | orLeft _ firstCounts isNonzero ih =>
    cases isFragment with
    | binary _ isLeftBuilt _ =>
      obtain ⟨steps, isFirst⟩ := ih isLeftBuilt
      refine ⟨steps, Outcome.bind_eq_value.mpr ⟨_, isFirst, ?_⟩⟩
      rw [firstCounts.truth_eq, decide_eq_true isNonzero]
      rfl
  | orRight _ firstCounts _ secondCounts leftHypothesis rightHypothesis =>
    obtain ⟨steps, isFirst, isSecond⟩ :=
      exists_common_steps areBuilt isFragment leftHypothesis rightHypothesis
    refine ⟨steps, Outcome.bind_eq_value.mpr ⟨_, isFirst, ?_⟩⟩
    rw [firstCounts.truth_eq, isSecond]
    refine Outcome.bind_eq_value.mpr ⟨false, rfl, Outcome.bind_eq_value.mpr ⟨_, rfl, ?_⟩⟩
    rw [secondCounts.truth_eq]
    rfl

theorem exists_outcome_bigStep :
    ∃ outcome : Outcome Value,
      Engine.ComesTo program .standard constants.start
          (Operation.evaluateValue expression).query outcome.settled ∧
        ∀ result, outcome = .value result ↔ BigStep constants.initializer? expression result := by
  obtain ⟨outcome, folds, isValue⟩ := exists_outcome .standard areBuilt isFragment
  refine ⟨outcome, folds, fun result => (isValue result).trans ⟨?_, ?_⟩⟩
  · rintro ⟨steps, isResult⟩
    exact (bigStep_of_foldOver areBuilt isFragment isResult).1
  · exact foldOver_of_bigStep areBuilt isFragment

end ConstantModule

/--
Evaluating an expression gives a value exactly if the big-step semantics does,
and the same one. In every other case it gives an error, or it stops where the
least number is negated.
-/
theorem evaluation_refines_bigStep
    {program : Program}
    (constants : ConstantModule program)
    {expression : Expr}
    (areBuilt : constants.AreBuiltFrom Literal.IsIntegral (· ∈ BinaryOperator.integral))
    (isFragment : expression.IsBuiltFrom Literal.IsIntegral (· ∈ BinaryOperator.integral)) :
    (∀ result,
      Engine.Settles program .standard (Operation.evaluateValue expression).query constants.start
          (.ok result) constants.start ↔
        BigStep constants.initializer? expression result) ∧
      ((∃ result, BigStep constants.initializer? expression result) ∨
        (∃ error,
          Engine.Settles program .standard (Operation.evaluateValue expression).query
            constants.start (.error error) constants.start) ∨
        ∃ bound, ∀ limit, bound ≤ limit →
          Engine.run program .standard limit (Operation.evaluateValue expression).query
            constants.start = .error .negationOverflow) := by
  obtain ⟨outcome, comes, isValue⟩ := exists_outcome_bigStep areBuilt isFragment
  constructor
  · intro result
    rw [← isValue]
    constructor
    · intro settles
      exact Constant.Outcome.settled_eq_ok (comes.eq_of_settles settles)
    · rintro rfl
      exact comes
  · cases outcome with
    | value result => exact .inl ⟨result, (isValue result).mp rfl⟩
    | failure error => exact .inr (.inl ⟨error, comes⟩)
    | overflow => exact .inr (.inr comes)

/-- A module of constants of which some depend on themselves. -/
def Program.circular : Program :=
  let drafting : Drafting Unit := do
    let module ← Draft.addModule "m"
    discard <| Draft.addConstant module "open"
      (.binary .or (.binary .notEqual (.named "size") (.literal (.integer 0 .int))) (.named "open"))
    discard <| Draft.addConstant module "size"
      (.binary .subtract (.literal (.integer 7 .ubyte)) (.literal (.integer 9 .long)))
    discard <| Draft.addConstant module "endless"
      (.binary .add (.named "endless") (.literal (.integer 1 .int)))
  .ofTree (drafting.run {}).2.tree

def ConstantModule.circular : ConstantModule .circular where
  moduleId := ⟨0⟩
  module := (Program.circular.tree.node? ⟨0⟩).get (by decide +kernel)
  isModuleEntry := (Option.some_get _).symm
  isModule := rfl
  isRoot := rfl
  isNoTemplate := rfl
  isAlone := Program.isAlone_of_all (by decide +kernel)
  areManifest := by
    change ∀ id ∈ [(⟨1⟩ : NodeId), ⟨2⟩, ⟨3⟩], _
    simp only [List.forall_mem_cons]
    exact ⟨⟨_, _, rfl, rfl, rfl, rfl⟩, ⟨_, _, rfl, rfl, rfl, rfl⟩, ⟨_, _, rfl, rfl, rfl, rfl⟩,
      List.forall_mem_nil _⟩
  haveDistinctNames := by
    change ["open", "size", "endless"].Nodup
    decide

theorem ConstantModule.circular_areBuilt :
    circular.AreBuiltFrom Literal.IsIntegral (· ∈ integral) := by
  intro id isMember initializer isInitializer
  change id ∈ [⟨1⟩, ⟨2⟩, ⟨3⟩] at isMember
  simp only [List.mem_cons, List.not_mem_nil, or_false] at isMember
  rcases isMember with rfl | rfl | rfl
  · cases isInitializer
    exact .binary (by decide) (.binary (by decide) (.named _) (.literal rfl)) (.named _)
  · cases isInitializer
    exact .binary (by decide) (.literal rfl) (.literal rfl)
  · cases isInitializer
    exact .binary (by decide) (.named _) (.literal rfl)

/-- The number `-size * open` is 2, though `open` may depend on itself. -/
theorem circular_evaluation_refines_bigStep :
    Engine.Settles .circular .standard
      (Operation.evaluateValue
        (.binary .multiply (.unary .negate (.named "size")) (.named "open"))).query
      (.start ⟨0⟩ none) (.ok (.integer 2 .long)) (.start ⟨0⟩ none) := by
  have isSize :
      BigStep circular.initializer? (.named "size") (.integer (-2) .long) :=
    .constant rfl
      (.arithmetic (.integer 7 .ubyte) (.integer 9 .long) (.integer 7 .ubyte) (.integer 9 .long)
        (.subtract (by decide)))
  have isOpen : BigStep circular.initializer? (.named "open") (.bool true) :=
    .constant rfl
      (.orLeft (.notEqual isSize (.integer 0 .int) (.integer (-2) .long) (.integer 0 .int))
        (.bool true) (by decide))
  have step :
      BigStep circular.initializer?
        (.binary .multiply (.unary .negate (.named "size")) (.named "open")) (.integer 2 .long) :=
    .arithmetic (.negate isSize (by decide)) isOpen (.integer 2 .long) (.bool true)
      (.multiply (by decide))
  exact
    ((evaluation_refines_bigStep circular circular_areBuilt
      (.binary (by decide) (.unary (.named _)) (.named _))).1 _).mpr step

end DScope
