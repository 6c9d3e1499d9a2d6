import DScope.Proofs.Constants
import DScope.Proofs.Memo
import DScope.Proofs.Parts

namespace DScope

/-!
# Constants have the types of their expressions

A typing rule reads an expression without evaluating it. Where evaluation gives a
value, the rule gives the type of this value: operators give the types that
folding gives, and a constant has the type of its initializer.
-/

open Engine DeclaredSymbol Arithmetic BinaryOperator

variable {value : Value} {symbol : Symbol} {operator : BinaryOperator}
  {isOperator : BinaryOperator → Prop} {program : Program}

namespace Symbol

variable {type : Symbol}

theorem sameType_of_primitive
    {other : Symbol} {basic : BasicType} (isShape : type.shape = .primitive basic)
    (isOtherShape : other.shape = .primitive basic) : type.sameType other = true := by
  obtain ⟨shape, _, _, _⟩ := type
  obtain ⟨otherShape, _, _, _⟩ := other
  cases isShape
  cases isOtherShape
  simp [sameType, Shape.same]

theorem sameType_string (isShape : type.shape = string.shape) : type.sameType string = true := by
  obtain ⟨shape, _, _, _⟩ := type
  cases isShape
  have isElement :
      ((primitive .char).withModifier .immutable).sameType
        ((primitive .char).withModifier .immutable) = true :=
    sameType_of_primitive rfl rfl
  simpa [sameType, Shape.same, optionSameType, string, dynamicArray, ofShape] using isElement

end Symbol

namespace Value

/-- Numbers, truth values, characters and strings. -/
def isPlain : Value → Bool
  | integer .. | float .. | bool _ | character _ | string _ => true
  | _ => false

theorem representedType_of_isPlain (isPlain : value.isPlain = true) :
    ∃ represented,
      value.representedType = some represented ∧
        ∀ symbol : Symbol,
          symbol.shape = represented.shape → symbol.sameType represented = true := by
  cases value with
  | integer number basic =>
    exact ⟨_, rfl, fun _ isShape => Symbol.sameType_of_primitive isShape rfl⟩
  | float number basic => exact ⟨_, rfl, fun _ isShape => Symbol.sameType_of_primitive isShape rfl⟩
  | bool truth => exact ⟨_, rfl, fun _ isShape => Symbol.sameType_of_primitive isShape rfl⟩
  | character code => exact ⟨_, rfl, fun _ isShape => Symbol.sameType_of_primitive isShape rfl⟩
  | string text => exact ⟨_, rfl, fun _ => Symbol.sameType_string⟩
  | _ => cases isPlain

end Value

/-- The type that a symbol stands for is the type of a plain constant. -/
structure Symbol.Describes (symbol : Symbol) (value : Value) : Prop where
  isPlain : value.isPlain = true
  sameShape : symbol.strip.map shape = value.representedType.map shape

namespace Symbol.Describes

theorem stripped (describes : symbol.Describes value) : symbol.stripped.Describes value := by
  refine ⟨describes.isPlain, ?_⟩
  cases isType : symbol.strip with
  | none =>
    rw [Symbol.stripped, isType]
    exact describes.sameShape
  | some type =>
    rw [Symbol.stripped, isType, Option.getD_some, strip_strip isType, ← isType]
    exact describes.sameShape

theorem primitive?_eq (describes : symbol.Describes value) (isNumber : value.float?.isSome = true) :
    Typing.primitive? symbol = some (operandType value) := by
  rw [Typing.primitive?, describes.sameShape]
  cases value <;> first | rfl | cases isNumber

theorem sameType (describes : symbol.Describes value) :
    ∃ type represented,
      symbol.strip = some type ∧
        value.representedType = some represented ∧ type.sameType represented = true := by
  obtain ⟨isPlain, sameShape⟩ := describes
  obtain ⟨represented, isRepresented, isSame⟩ := Value.representedType_of_isPlain isPlain
  rw [isRepresented] at sameShape
  obtain ⟨type, isType, isShape⟩ := Option.map_eq_some_iff.mp sameShape
  exact ⟨type, represented, isType, isRepresented, isSame type isShape⟩

end Symbol.Describes

/-- The operators that compare two constants. -/
def BinaryOperator.comparing : List BinaryOperator :=
  [.equal, .notEqual, .less, .lessOrEqual, .greater, .greaterOrEqual]

namespace Arithmetic

variable {left right result : Value}

theorem areFinal_of_fold (isResult : fold operator left right = .ok result) :
    (!left.isFinal || !right.isFinal) = false := by
  unfold fold at isResult
  split at isResult
  · cases isResult
  next areFinal => exact Bool.not_eq_true _ ▸ areFinal

theorem exists_bool_of_fold (isComparing : operator ∈ comparing)
    (isResult : fold operator left right = .ok result) : ∃ truth, result = .bool truth := by
  have isCompared
      (isResult : compareValues operator left right = .ok result) :
      ∃ truth, result = .bool truth := by
    unfold compareValues at isResult
    split at isResult
    · cases isResult
      exact ⟨_, rfl⟩
    · cases isResult
  have areFinal := areFinal_of_fold isResult
  unfold fold at isResult
  rw [areFinal] at isResult
  simp only [comparing, List.mem_cons, List.not_mem_nil, or_false] at isComparing
  rcases isComparing with rfl | rfl | rfl | rfl | rfl | rfl
  · cases isResult
    exact ⟨_, rfl⟩
  · cases isResult
    exact ⟨_, rfl⟩
  all_goals exact isCompared isResult

theorem exists_string_of_fold
    (isPlain : left.isPlain = true) (isResult : fold .concatenate left right = .ok result) :
    ∃ text joined, left = .string text ∧ result = .string joined := by
  have areFinal := areFinal_of_fold isResult
  unfold fold at isResult
  rw [areFinal] at isResult
  change concatenate left right = .ok result at isResult
  unfold concatenate at isResult
  split at isResult
  · cases isResult
    exact ⟨_, _, rfl, rfl⟩
  · cases isPlain
  · cases isResult

theorem representedType_of_fold (isArithmetic : operator ∈ arithmetic)
    (isResult : fold operator left right = .ok result) :
    left.float?.isSome = true ∧
      right.float?.isSome = true ∧
      result.isPlain = true ∧
        result.representedType =
          some (.primitive ((operandType left).promote (operandType right))) := by
  have isFolded :
      fold operator left right =
        if ((operandType left).promote (operandType right)).isFloating then
          onFloats operator ((operandType left).promote (operandType right)) left right
        else
          onIntegers operator ((operandType left).promote (operandType right)) left right := by
    have areFinal := areFinal_of_fold isResult
    unfold fold
    rw [areFinal]
    simp only [arithmetic, List.mem_cons, List.not_mem_nil, or_false] at isArithmetic
    rcases isArithmetic with rfl | rfl | rfl | rfl | rfl <;> rfl
  have isFloat {value : Value} {number : Int} (isNumber : value.integer? = some number) :
      value.float?.isSome = true := by
    cases value <;> first | rfl | cases isNumber
  rw [isFolded] at isResult
  split at isResult
  · unfold onFloats at isResult
    split at isResult
    next first second isFirst isSecond =>
      split at isResult
      · cases isResult
        exact ⟨isFirst ▸ rfl, isSecond ▸ rfl, rfl, rfl⟩
      · cases isResult
    next => cases isResult
  · unfold onIntegers at isResult
    split at isResult
    next first second isFirst isSecond =>
      split at isResult
      · cases isResult
      · split at isResult
        · cases isResult
          exact ⟨isFloat isFirst, isFloat isSecond, rfl, rfl⟩
        · cases isResult
    next => cases isResult

end Arithmetic

namespace Typing

open Constant

variable {Holds : State → Prop} {state : State} {expression : Expr}

/-- Whether a query settles on a type that describes a constant, where something still holds. -/
def Finds (program : Program) (Holds : State → Prop) (state : State)
    (query : Query (Option Symbol)) (value : Value) : Prop :=
  ∃ symbol final,
    Engine.Settles program .standard query state (some symbol) final ∧
      Holds final ∧ symbol.Describes value

theorem Finds.pure (holds : Holds state) (describes : symbol.Describes value) :
    Finds program Holds state (Pure.pure (some symbol)) value :=
  ⟨symbol, state, Yields.pure (some symbol), holds, describes⟩

theorem Finds.bind
    {query : Query (Option Symbol)} {next : Option Symbol → Query (Option Symbol)} {operand : Value}
    (finds : Finds program Holds state query operand)
    (goes :
      ∀ symbol final, Holds final → symbol.Describes operand →
        Finds program Holds final (next (some symbol)) value) :
    Finds program Holds state (query >>= next) value := by
  obtain ⟨symbol, later, settles, holds, describes⟩ := finds
  obtain ⟨result, final, goesOn, holdsLater, isDescribed⟩ := goes symbol later holds describes
  exact ⟨result, final, settles.bind goesOn, holdsLater, isDescribed⟩

theorem Finds.typingOf {rule : Bool → Query (Option Symbol)} (isRunning : state.isCancelled = false)
    (isRule : ofExpression expression = Query.isCancelled >>= rule)
    (finds : Finds program Holds state (rule false) value) :
    Finds program Holds state (Query.typingOf expression) value := by
  obtain ⟨symbol, final, settles, holds, describes⟩ := finds
  refine ⟨symbol, final, .ask ?_, holds, describes⟩
  change Settles program .standard (ofExpression expression) state (some symbol) final
  rw [isRule]
  have reads : Query.Reads program state Query.isCancelled false := isRunning ▸ .isCancelled
  exact .bind (Yields.ofReads reads) settles

theorem describes_ofLiteral {literal : Literal} (isKind : literal ≠ .null) :
    (ofLiteral literal).Describes (.ofLiteral literal) := by
  cases literal with
  | null => exact absurd rfl isKind
  | _ => exact ⟨rfl, rfl⟩

theorem describes_bool (truth : Bool) : (Symbol.primitive .bool).Describes (.bool truth) :=
  ⟨rfl, rfl⟩

theorem describes_ofArithmetic {left right : Symbol} {first second result : Value}
    (isArithmetic : operator ∈ arithmetic) (isLeft : left.Describes first)
    (isRight : right.Describes second)
    (isResult : fold operator first second = .ok result) :
    ∃ symbol, ofArithmetic left (some right) = some symbol ∧ symbol.Describes result := by
  obtain ⟨isFirst, isSecond, isPlain, isRepresented⟩ :=
    representedType_of_fold isArithmetic isResult
  refine ⟨.primitive ((operandType first).promote (operandType second)), ?_,
    isPlain, isRepresented ▸ rfl⟩
  rw [ofArithmetic, isLeft.primitive?_eq isFirst, Option.bind_some, isRight.primitive?_eq isSecond]

theorem describes_negated {operand : Value} (describes : symbol.Describes operand)
    (isResult : Outcome.unary .negate operand = .value value) :
    symbol.stripped.Describes value := by
  have isSame : value.isPlain = true ∧ value.representedType = operand.representedType := by
    cases operand with
    | integer number basic =>
      rw [Outcome.unary] at isResult
      split at isResult
      · cases isResult
        exact ⟨rfl, rfl⟩
      · cases isResult
    | float number basic =>
      cases isResult
      exact ⟨rfl, rfl⟩
    | _ => cases isResult
  exact ⟨isSame.1, describes.stripped.sameShape.trans (isSame.2 ▸ rfl)⟩

theorem exists_bool_of_binary
    {left right : Outcome Value} (isTruth : operator ∈ .and :: .or :: comparing)
    (isResult : Outcome.binary operator left right = .value value) :
    ∃ truth, value = .bool truth := by
  by_cases isComparing : operator ∈ comparing
  · have isStrict : operator ≠ .and ∧ operator ≠ .or := by
      clear isTruth isResult
      revert operator
      decide
    obtain ⟨first, second, -, -, isResult⟩ := (Outcome.binary_eq_value isStrict).mp isResult
    exact exists_bool_of_fold isComparing isResult
  · have isCircuit : operator = .and ∨ operator = .or := by simpa [isComparing] using isTruth
    rcases isCircuit with rfl | rfl
    all_goals
      obtain ⟨first, -, isResult⟩ := Outcome.bind_eq_value.mp isResult
      obtain ⟨isTrue, -, isResult⟩ := Outcome.bind_eq_value.mp isResult
      cases isTrue <;>
        first
        | cases isResult
          exact ⟨_, rfl⟩
        | obtain ⟨second, -, isResult⟩ := Outcome.bind_eq_value.mp isResult
          obtain ⟨truth, -, isResult⟩ := Outcome.bind_eq_value.mp isResult
          cases isResult
          exact ⟨_, rfl⟩

/-- A binary operator has the type of what it gives, if its operands have. -/
theorem finds_ofBinary
    {left right : Expr} {leftOutcome rightOutcome : Outcome Value} (operator : BinaryOperator)
    (holds : Holds state)
    (leftFinds :
      ∀ first, leftOutcome = .value first →
        ∀ state, Holds state → Finds program Holds state (Query.typingOf left) first)
    (rightFinds :
      ∀ second, rightOutcome = .value second →
        ∀ state, Holds state → Finds program Holds state (Query.typingOf right) second)
    (isResult : Outcome.binary operator leftOutcome rightOutcome = .value value) :
    Finds program Holds state (ofBinary operator left right) value := by
  have arithmetic
      (isArithmetic : operator ∈ arithmetic)
      (isRule : ofBinary operator left right = ofBinary .add left right) :
      Finds program Holds state (ofBinary operator left right) value := by
    obtain ⟨first, second, isFirst, isSecond, isResult⟩ :=
      (Outcome.binary_eq_value (isStrict_of_mem_arithmetic isArithmetic)).mp isResult
    rw [isRule]
    refine .bind (leftFinds first isFirst state holds) fun leftType later holds isLeft => ?_
    refine .bind (rightFinds second isSecond later holds) fun rightType final holds isRight => ?_
    obtain ⟨symbol, isSymbol, describes⟩ :=
      describes_ofArithmetic isArithmetic isLeft isRight isResult
    rw [isSymbol]
    exact .pure holds describes
  cases operator with
  | equal | notEqual | less | lessOrEqual | greater | greaterOrEqual | and | or =>
    obtain ⟨truth, rfl⟩ := exists_bool_of_binary (by decide) isResult
    exact .pure holds (describes_bool truth)
  | concatenate =>
    obtain ⟨first, second, isFirst, isSecond, isResult⟩ :=
      (Outcome.binary_eq_value (by decide)).mp isResult
    obtain ⟨symbol, final, settles, holds, describes⟩ := leftFinds first isFirst state holds
    obtain ⟨text, joined, rfl, rfl⟩ := exists_string_of_fold describes.isPlain isResult
    exact ⟨symbol, final, settles, holds, rfl, describes.sameShape⟩
  | add | subtract | multiply | divide | remainder => exact arithmetic (by decide) rfl

/-- Where names have the types of their constants, expressions have the types of their values. -/
theorem finds_of_foldOver {known : String → Outcome Value}
    (areRunning : ∀ state, Holds state → state.isCancelled = false)
    (names :
      ∀ name value, known name = .value value →
        ∀ state, Holds state →
        ∃ symbol final,
          Settles program .standard (Resolution.ofName name) state [symbol] final ∧
            Holds final ∧ symbol.Describes value)
    (isBuilt : expression.IsBuiltFrom (· ≠ .null) isOperator)
    (isResult : Outcome.foldOver known expression = .value value) (holds : Holds state) :
    Finds program Holds state (Query.typingOf expression) value := by
  have isRunning := areRunning state holds
  induction isBuilt generalizing state value with
  | literal isKind =>
    refine .typingOf isRunning rfl ?_
    cases isResult
    exact .pure holds (describes_ofLiteral isKind)
  | named name =>
    refine .typingOf isRunning rfl ?_
    obtain ⟨symbol, final, settles, holds, describes⟩ := names name value isResult state holds
    exact ⟨symbol, final, settles.bind (Yields.pure (some symbol)), holds, describes⟩
  | @unary operator operand _ ih =>
    obtain ⟨constant, isOperand, isResult⟩ := Outcome.bind_eq_value.mp isResult
    cases operator with
    | not =>
      refine .typingOf isRunning rfl ?_
      obtain ⟨truth, -, isResult⟩ := Outcome.bind_eq_value.mp isResult
      cases isResult
      exact .pure holds (describes_bool _)
    | negate =>
      refine .typingOf isRunning rfl ?_
      refine .bind (ih isOperand holds isRunning) ?_
      intro symbol final holds describes
      exact .pure holds (describes_negated describes isResult)
  | binary _ _ _ leftHypothesis rightHypothesis =>
    refine .typingOf isRunning rfl ?_
    exact finds_ofBinary _ holds
      (fun _ isFirst state holds => leftHypothesis isFirst holds (areRunning state holds))
      (fun _ isSecond state holds => rightHypothesis isSecond holds (areRunning state holds))
      isResult

end Typing

namespace ConstantModule

open Constant

variable {constants : ConstantModule program} {state : State} {name : String} {id : NodeId}
  {initializer : Expr} {value : Value} {isLiteral : Literal → Prop} {steps : Nat}

/-- None of the constants is a template or has a constraint: such ones have a value but no type. -/
def ArePlain (constants : ConstantModule program) : Prop :=
  ∀ id ∈ constants.module.children, ∀ entry, program.tree.node? id = some entry →
    entry.templateParameters = [] ∧ entry.constraint = none

/-- A constant that was not entered too often is a member with the type of its initializer. -/
theorem yields_searchName {entry : Node} {type : Symbol} (stands : constants.Stands state)
    (isDefault : state.options = {}) (isFound : constants.find? name = some id)
    (isEntry : program.tree.node? id = some entry)
    (isPlain : entry.templateParameters = [] ∧ entry.constraint = none)
    (isManifest : entry.IsManifest constants.moduleId initializer)
    (isShallow : (state.guard.enter id).depth id ≤ Guard.baseLimit)
    (types :
      Yields program .standard (state.reading program.tree id .none)
        (Query.typingOf initializer) (some type)) :
    ∃ bindings,
      Yields program .standard state (Resolution.searchName name)
        [.member id (some type.stripped) bindings] := by
  let bindings := attached program.tree state.stack id entry .none
  have isInert : (Symbol.member id (some type.stripped) bindings).IsInert program :=
    Symbol.isInert_of_definition? isEntry isPlain rfl rfl (by rintro _ ⟨⟩)
  have reaches :
      (Reach.ofOptions state.options ((state.guard.enter id).depth id)).baseTypes = true := by
    simp [Reach.ofOptions, isDefault, isShallow]
  have visits :
      Yields program .standard (state.reading program.tree id .none)
        (visit id entry (.ofOptions state.options ((state.guard.enter id).depth id)) bindings)
        (some (.member id (some type.stripped) bindings)) := by
    unfold visit
    rw [isManifest.isConstant]
    rw [reaches]
    have infers :
        Yields program .standard (state.reading program.tree id .none)
          (variableType id none (some initializer)) (some type.stripped) :=
      Yields.bind types (.pure _)
    exact .bind infers (.pure _)
  have isVisible := constants.plain.yields_visible .standard stands.isRunning stands.isScope name .all
  rw [constants.declared_eq, isFound] at isVisible
  exact ⟨bindings, Resolution.yields_searchName_of_visible stands.isRunning isVisible isInert
    (yields_symbolOf stands.isRunning stands.isPositive isEntry visits)⟩

theorem describes_member {base : Symbol} (describes : base.Describes value) (bindings : Bindings) :
    (Symbol.member id (some base) bindings).Describes value :=
  ⟨describes.isPlain, describes.sameShape⟩

/-- A name that has a value, and of which no part is being evaluated, has the type of the value. -/
theorem exists_candidate (arePlain : constants.ArePlain)
    (areBuilt : constants.AreBuiltFrom (· ≠ .null) isOperator) (stands : constants.Stands state)
    (isDefault : state.IsDefault) (isClear : constants.IsClear state.guard steps)
    (isValue : constants.outcomeAt steps name = .value value) :
    ∃ symbol,
      Yields program .standard state (Resolution.searchName name) [symbol] ∧
        symbol.Describes value := by
  induction steps generalizing state name value with
  | zero => cases isValue
  | succ steps ih =>
    have isClearBelow := isClear.mono areBuilt (Nat.le_succ steps)
    by_cases isOpen : ∀ lower, constants.outcomeAt steps name ≠ .value lower
    · obtain ⟨_, id, initializer, ⟨⟩, isFound, isInitializer, isResult⟩ :=
        constants.outcomeAt_eq_value isValue
      obtain ⟨-, entry, _, isEntry, isManifest, isSame⟩ := constants.find?_spec isFound
      cases isInitializer.symm.trans isSame
      have isFresh : state.guard.depth id = 0 := isClear name id value isFound isValue
      have isShallow : (state.guard.enter id).depth id ≤ Guard.baseLimit := by
        rw [Guard.depth_enter_self, isFresh]
        decide
      have inside := stands.reading isEntry isManifest
      have isDefaultInside := isDefault.reading program.tree id .none
      obtain ⟨type, _, settles, rfl, describes⟩ :
          Typing.Finds program (· = state.reading program.tree id .none)
            (state.reading program.tree id .none) (Query.typingOf initializer) value := by
        refine Typing.finds_of_foldOver ?_ ?_ (areBuilt.isBuilt isInitializer) isResult rfl
        · rintro _ rfl
          exact inside.isRunning
        · rintro other constant isConstant _ rfl
          obtain ⟨symbol, yields, describes⟩ :=
            ih inside isDefaultInside (isClearBelow.enter isFound isOpen) isConstant
          have isBusy : (state.reading program.tree id .none).memoKey? other = none := by
            simp [State.memoKey?, State.reading, State.push, Guard.isIdle_enter]
          exact ⟨symbol, _,
            Resolution.yields_ofName inside.isRunning isBusy (List.cons_ne_nil _ _) yields,
            rfl, describes⟩
      have isPlain := arePlain id (List.mem_of_find?_eq_some isFound) entry isEntry
      obtain ⟨bindings, yields⟩ :=
        yields_searchName stands isDefault.options isFound isEntry isPlain isManifest isShallow
          settles
      exact ⟨_, yields, describes_member describes.stripped bindings⟩
    · simp only [not_forall, not_not] at isOpen
      obtain ⟨lower, isLower⟩ := isOpen
      have isSame := outcomeAt_mono areBuilt (Nat.le_succ steps) isLower
      cases isValue.symm.trans isSame
      exact ih stands isDefault isClearBelow isLower

theorem outcomeAt_unique
    {more : Nat} {other : Value} (areBuilt : constants.AreBuiltFrom isLiteral isOperator)
    (isValue : constants.outcomeAt steps name = .value value)
    (isOther : constants.outcomeAt more name = .value other) : value = other := by
  have isSame := outcomeAt_mono areBuilt (Nat.le_max_left steps more) isValue
  rw [outcomeAt_mono areBuilt (Nat.le_max_right steps more) isOther] at isSame
  cases isSame
  rfl

/-- A query in the module that has done nothing but remember the types of constants. -/
structure Recalls (constants : ConstantModule program) (state : State) : Prop where
  isStart : ∃ memo, state = { constants.start with memo }
  areDescribed :
    ∀ {name symbols value steps},
      state.remembered? name = some symbols →
        constants.outcomeAt steps name = .value value →
        ∃ symbol, symbols = [symbol] ∧ symbol.Describes value

theorem recalls_start : constants.Recalls constants.start :=
  ⟨⟨[], rfl⟩, nofun⟩

namespace Recalls

section

variable (recalls : constants.Recalls state)
include recalls

theorem stands : constants.Stands state := by
  obtain ⟨memo, rfl⟩ := recalls.isStart
  exact ⟨rfl, rfl, constants.isPositive_start⟩

theorem isDefault : state.IsDefault := by
  obtain ⟨memo, rfl⟩ := recalls.isStart
  exact ⟨rfl, rfl⟩

theorem isClear (steps : Nat) : constants.IsClear state.guard steps := by
  obtain ⟨memo, rfl⟩ := recalls.isStart
  exact fun _ _ _ _ _ => rfl

theorem memoKey?_eq (name : String) :
    state.memoKey? name = some ⟨.scope constants.moduleId, {}, name⟩ := by
  obtain ⟨memo, rfl⟩ := recalls.isStart
  rfl

end

theorem remember (areBuilt : constants.AreBuiltFrom isLiteral isOperator)
    (recalls : constants.Recalls state) (isValue : constants.outcomeAt steps name = .value value)
    (describes : symbol.Describes value) : constants.Recalls (state.remember name [symbol]) := by
  have isRemembered :
      state.remember name [symbol] =
        { state with
          memo := Table.put ⟨.scope constants.moduleId, {}, name⟩ [symbol] state.memo } := by
    rw [State.remember, recalls.memoKey?_eq]
  rw [isRemembered]
  constructor
  · obtain ⟨memo, rfl⟩ := recalls.isStart
    exact ⟨_, rfl⟩
  · intro other symbols constant more isKept isConstant
    change ((state.memoKey? other).bind fun key =>
      Table.find? key (Table.put _ [symbol] state.memo)) = some symbols at isKept
    rw [recalls.memoKey?_eq, Option.bind_some] at isKept
    by_cases isSame : name = other
    · subst isSame
      rw [Table.find?_put] at isKept
      cases isKept
      exact ⟨symbol, rfl, outcomeAt_unique areBuilt isValue isConstant ▸ describes⟩
    · rw [Table.find?_put_of_ne (by simpa using isSame)] at isKept
      refine recalls.areDescribed ?_ isConstant
      rw [State.remembered?, recalls.memoKey?_eq]
      exact isKept

theorem settles_ofName (arePlain : constants.ArePlain)
    (areBuilt : constants.AreBuiltFrom (· ≠ .null) isOperator)
    (recalls : constants.Recalls state) (isValue : constants.outcomeAt steps name = .value value) :
    ∃ symbol final,
      Settles program .standard (Resolution.ofName name) state [symbol] final ∧
        constants.Recalls final ∧ symbol.Describes value := by
  cases isKept : state.remembered? name with
  | some symbols =>
    obtain ⟨symbol, rfl, describes⟩ := recalls.areDescribed isKept isValue
    exact ⟨symbol, state, ⟨0, fun limit _ => Resolution.run_remembered isKept limit⟩, recalls,
      describes⟩
  | none =>
    have stands := recalls.stands
    obtain ⟨symbol, yields, describes⟩ :=
      exists_candidate arePlain areBuilt stands recalls.isDefault (recalls.isClear steps) isValue
    exact ⟨symbol, _, Resolution.settles_ofName isKept yields stands.isRunning,
      recalls.remember areBuilt isValue describes, describes⟩

end Recalls

end ConstantModule

/--
Where evaluating an expression over plain constants gives a value, the type of the
expression is the type of the value.
-/
theorem values_have_their_types
    {program : Program}
    (constants : ConstantModule program)
    {expression : Expr}
    {value : Value}
    {final : State}
    (arePlain : constants.ArePlain)
    (areBuilt : constants.AreBuiltFrom (· ≠ .null) fun _ => True)
    (isBuilt : expression.IsBuiltFrom (· ≠ .null) fun _ => True)
    (evaluates :
      Engine.Settles program .standard (Operation.evaluateValue expression).query constants.start
        (.ok value) final) :
    ∃ symbol later type represented,
      Engine.Settles program .standard (Operation.evaluateType expression).query constants.start
          (some symbol) later ∧
        symbol.strip = some type ∧
        value.representedType = some represented ∧ type.sameType represented = true := by
  obtain ⟨outcome, folds, isValue⟩ := ConstantModule.exists_outcome .standard areBuilt isBuilt
  have isOutcome := Constant.Outcome.settled_eq_ok (folds.eq_of_settles evaluates)
  obtain ⟨steps, isResult⟩ := (isValue value).mp isOutcome
  obtain ⟨symbol, later, settles, -, describes⟩ :=
    Typing.finds_of_foldOver (fun _ recalls => ConstantModule.Recalls.stands recalls |>.isRunning)
      (fun _ _ isConstant _ recalls =>
        ConstantModule.Recalls.settles_ofName arePlain areBuilt recalls isConstant)
      isBuilt isResult constants.recalls_start
  obtain ⟨type, represented, isType, isRepresented, isSame⟩ := describes.sameType
  exact ⟨symbol, later, type, represented, settles, isType, isRepresented, isSame⟩

/-- A module of constants of several types. -/
def Program.mixed : Program :=
  let drafting : Drafting Unit := do
    let module ← Draft.addModule "m"
    discard <| Draft.addConstant module "letter" (.literal (.character 'a'))
    discard <| Draft.addConstant module "ratio"
      (.binary .multiply (.literal (.integer 3 .ulong)) (.literal (.float 1.5 .float)))
  .ofTree (drafting.run {}).2.tree

def ConstantModule.mixed : ConstantModule .mixed where
  moduleId := ⟨0⟩
  module := (Program.mixed.tree.node? ⟨0⟩).get (by decide +kernel)
  isModuleEntry := (Option.some_get _).symm
  isModule := rfl
  isRoot := rfl
  isNoTemplate := rfl
  isAlone := Program.isAlone_of_all (by decide +kernel)
  areManifest := by
    change ∀ id ∈ [(⟨1⟩ : NodeId), ⟨2⟩], _
    rw [List.forall_mem_cons, List.forall_mem_singleton]
    exact ⟨⟨_, _, rfl, rfl, rfl, rfl⟩, ⟨_, _, rfl, rfl, rfl, rfl⟩⟩
  haveDistinctNames := by
    change ["letter", "ratio"].Nodup
    decide

theorem ConstantModule.mixed_arePlain : ConstantModule.mixed.ArePlain := by
  change ∀ id ∈ [(⟨1⟩ : NodeId), ⟨2⟩], _
  rw [List.forall_mem_cons, List.forall_mem_singleton]
  constructor <;> (rintro _ ⟨⟩; exact ⟨rfl, rfl⟩)

theorem ConstantModule.mixed_areBuilt :
    ConstantModule.mixed.AreBuiltFrom (· ≠ .null) fun _ => True := by
  intro id isMember initializer isInitializer
  change id ∈ [⟨1⟩, ⟨2⟩] at isMember
  simp only [List.mem_cons, List.not_mem_nil, or_false] at isMember
  rcases isMember with rfl | rfl
  · cases isInitializer
    exact .literal (by simp)
  · cases isInitializer
    exact .binary trivial (.literal (by simp)) (.literal (by simp))

/-- The number `-(letter + ratio)` has the type `float`, as the typing rules say. -/
theorem mixed_values_have_their_types :
    ∃ value symbol later type represented,
      Engine.Settles .mixed .standard
          (Operation.evaluateValue
            (.unary .negate (.binary .add (.named "letter") (.named "ratio")))).query
          (.start ⟨0⟩ none) (.ok value) (.start ⟨0⟩ none) ∧
        value.representedType = some (.primitive .float) ∧
          Engine.Settles .mixed .standard
              (Operation.evaluateType
                (.unary .negate (.binary .add (.named "letter") (.named "ratio")))).query
              (.start ⟨0⟩ none) (some symbol) later ∧
            symbol.strip = some type ∧
              value.representedType = some represented ∧ type.sameType represented = true := by
  have isBuilt :
      (Expr.unary .negate (.binary .add (.named "letter") (.named "ratio"))).IsBuiltFrom
        (· ≠ .null) fun _ => True :=
    .unary (.binary trivial (.named _) (.named _))
  obtain ⟨outcome, folds, isValue⟩ :=
    ConstantModule.exists_outcome .standard ConstantModule.mixed_areBuilt isBuilt
  obtain rfl :=
    (isValue (.float (-(Binary64.ofInteger 97 + Binary64.ofInteger 3 * 1.5)) .float)).mpr ⟨1, rfl⟩
  obtain ⟨symbol, later, type, represented, types⟩ :=
    values_have_their_types ConstantModule.mixed ConstantModule.mixed_arePlain
      ConstantModule.mixed_areBuilt isBuilt folds
  exact ⟨_, symbol, later, type, represented, folds, rfl, types⟩

/-- A constant with a constraint. -/
def Program.constrainedConstant : Program :=
  let drafting : Drafting Unit := do
    let module ← Draft.addModule "m"
    let constant ← Draft.addConstant module "x" (.literal (.integer 1 .int))
    Draft.setConstraint constant (.literal (.bool false))
  .ofTree (drafting.run {}).2.tree

/-- A constant whose constraint fails has a value but no type. -/
theorem constrained_constant_has_no_type :
    Engine.Settles .constrainedConstant .standard (Operation.evaluateValue (.named "x")).query
        (.start ⟨0⟩ none) (.ok (.integer 1 .int)) (.start ⟨0⟩ none) ∧
      ∃ final,
        Engine.Settles .constrainedConstant .standard (Operation.evaluateType (.named "x")).query
          (.start ⟨0⟩ none) none final := by
  have returned :
      Engine.run .constrainedConstant .standard 9 (Operation.evaluateValue (.named "x")).query
        (.start ⟨0⟩ none) = .ok (.ok (.integer 1 .int), .start ⟨0⟩ none) := by rfl
  exact ⟨.ofRun ((Operation.evaluateValue _).query_orderly _) returned,
    Operation.exists_final 9 Option.isNone Option.isNone_iff_eq_none.mp (by decide +kernel)⟩

end DScope
