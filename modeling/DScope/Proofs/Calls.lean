import DScope.Proofs.Conversion
import DScope.Proofs.Signatures

namespace DScope

/-!
# Calls of functions with literals

What a function of a module alone is to a call with literals. The types of the
literals are matched against its parameters from left to right, and the bindings
that the matching leaves give its return type. The answer depends on the types
alone: neither on what was asked before nor on how the call is written.
-/

open Bindings hiding none
open Template DeclaredSymbol
open Engine (Yields)

variable {program : Program} {evaluator : Evaluator} {state : State} {parameters : List NodeId}
  {matched : Option Bindings} {arguments : List (Option Symbol)} {gives : Bindings → Symbol}
  {lone : LoneModule program} {pattern : TypeExpr} {bindings : Bindings}
open Query (Reads)

namespace Typing

theorem yields_literal (isRunning : state.isCancelled = false) (literal : Literal) :
    Yields program evaluator state (Query.typingOf (.literal literal))
      (some (ofLiteral literal)) := by
  have reads : Reads program state Query.isCancelled false := isRunning ▸ .isCancelled
  exact .ask (.bind (.ofReads reads) (.pure _))

theorem strip_ofLiteral (literal : Literal) :
    (ofLiteral literal).strip = some (ofLiteral literal) := by
  cases literal <;> rfl

end Typing

namespace Bindings

theorem filled_forParameters (parameters : List NodeId) :
    (forParameters parameters).filled = [] := by
  have staysOpen (bindings : Bindings) (isOpen : bindings.filled = []) :
      (parameters.foldl declare bindings).filled = [] := by
    induction parameters generalizing bindings with
    | nil => exact isOpen
    | cons parameter rest ih =>
      apply ih
      unfold declare
      split
      · exact isOpen
      · simpa [filled, Slot.binding?] using isOpen
  exact staysOpen .none rfl

theorem isEmpty_forParameters (isTemplate : parameters ≠ []) :
    (forParameters parameters).isEmpty = false := by
  have isKept (bindings : Bindings) (later : List NodeId) (isNonempty : bindings.isEmpty = false) :
      (later.foldl declare bindings).isEmpty = false := by
    induction later generalizing bindings with
    | nil => exact isNonempty
    | cons parameter rest ih =>
      apply ih
      unfold declare
      split
      · exact isNonempty
      · simp [isEmpty]
  cases parameters with
  | nil => exact absurd rfl isTemplate
  | cons parameter rest => exact isKept _ rest rfl

end Bindings

namespace Template

variable {method parameter : NodeId} {rest : List NodeId} {owner node : Node}
  {outcome : Option Bindings}

theorem yields_matchCall_nil (isOwner : program.tree.node? method = some owner)
    (isNode : program.tree.node? parameter = some node)
    (isTyped : node.declaredType? = some pattern)
    (isNoTuple : tupleParameter? program.tree owner pattern = none)
    (goes :
      Yields program evaluator state
        (if node.initializer?.isSome then matchCall method rest [] bindings else pure none)
        outcome) :
    Yields program evaluator state (matchCall method (parameter :: rest) [] bindings) outcome := by
  apply Yields.bind (.ofReads (.node isNode))
  rw [isTyped]
  apply Yields.bind (.ofReads .tree)
  apply Yields.bind (.ofReads (.node isOwner))
  rw [isNoTuple]
  exact goes

theorem yields_matchCall_cons {argument : Symbol} {others : List (Option Symbol)}
    (isOwner : program.tree.node? method = some owner)
    (isNode : program.tree.node? parameter = some node)
    (isTyped : node.declaredType? = some pattern)
    (isNoTuple : tupleParameter? program.tree owner pattern = none)
    (takes : Yields program evaluator state (matchType method pattern argument bindings) matched)
    (goes :
      ∀ later, matched = some later →
        Yields program evaluator state (matchCall method rest others later) outcome)
    (stops : matched = none → outcome = none) :
    Yields program evaluator state
      (matchCall method (parameter :: rest) (some argument :: others) bindings) outcome := by
  apply Yields.bind (.ofReads (.node isNode))
  rw [isTyped]
  apply Yields.bind (.ofReads .tree)
  apply Yields.bind (.ofReads (.node isOwner))
  rw [isNoTuple]
  apply Yields.bind takes
  cases matched with
  | none =>
    rw [stops rfl]
    exact .pure none
  | some later => exact goes later rfl

/-- An overload that matches the arguments, and has all its parameters bound, takes a call. -/
theorem yields_instantiateForCall {overload : Symbol} {explicit : List Argument}
    (isDefinition : overload.definition? = some method)
    (isOwner : program.tree.node? method = some owner) (isMethod : owner.isMethod = true)
    (areUnrestricted :
      ∀ parameter ∈ owner.templateParameters, IsUnrestricted program.tree parameter)
    (binds :
      Reads program state
        (bindParameters method overload explicit false false
          ((forParameters owner.templateParameters).mergeMissing overload.bindings))
        (some bindings))
    (isMatched :
      Yields program evaluator state
        (matchCall method owner.parameters
          (if overload.isUfcs then overload.receiver?.bind Symbol.strip :: arguments
            else arguments)
          bindings)
        matched)
    (areBound :
      ∀ later, matched = some later →
        ∀ parameter ∈ owner.templateParameters,
          isTuple program.tree parameter = true → later.isSatisfied parameter = true)
    (isGiven :
      ∀ later, matched = some later →
        Yields program evaluator state (instantiateMember overload method later) (gives later)) :
    Yields program evaluator state (instantiateForCall explicit arguments overload)
      ((matched.filter (·.allSatisfied)).map gives) := by
  unfold instantiateForCall
  rw [isDefinition]
  apply Yields.bind (.ofReads (.node isOwner))
  simp only [isMethod]
  apply Yields.bind (.ofReads binds)
  apply Yields.bind isMatched
  cases matched with
  | none => exact .pure none
  | some later =>
    have completes : Reads program state (applyDefaults method later) later :=
      .bind (.node isOwner) (reads_foldlM_applyDefault areUnrestricted (areBound later rfl))
    apply Yields.bind (.ofReads completes)
    cases isComplete : later.allSatisfied with
    | false =>
      rw [Option.filter_some, isComplete]
      exact .pure none
    | true =>
      have specializes : Reads program state (specialized? method later) (some later) :=
        .bind (.node isOwner) (reads_specializeAll_of_isUnrestricted areUnrestricted _)
      rw [Option.filter_some, isComplete]
      exact .bind (.ofReads specializes) (.bind (isGiven later rfl) (.pure _))

end Template

namespace LoneModule

/-- A query that stands in the module, with nothing in flight and nothing bound. -/
structure IsIdle (lone : LoneModule program) (state : State) : Prop where
  isRunning : state.isCancelled = false
  isScope : state.stack.top.scope = lone.moduleId
  isFresh : state.guard = {}
  defaults : state.defaults = {}
  isUnbound : ∀ parameter, state.stack.binding? parameter = none

theorem isIdle_start (lone : LoneModule program) : lone.IsIdle lone.start where
  isRunning := rfl
  isScope := rfl
  isFresh := rfl
  defaults := rfl
  isUnbound _ := rfl

theorem IsIdle.isPositive (isIdle : lone.IsIdle state) : state.guard.IsPositive := by
  rw [isIdle.isFresh]
  exact nofun

theorem IsIdle.override (isIdle : lone.IsIdle state) (overrides : Overrides) :
    lone.IsIdle (state.push (state.overridden overrides)) where
  isRunning := isIdle.isRunning
  isScope := isIdle.isScope
  isFresh := isIdle.isFresh
  defaults := isIdle.defaults
  isUnbound parameter := (Stack.binding?_push rfl state.stack parameter).trans
    (isIdle.isUnbound parameter)

end LoneModule

namespace PlainFunction

variable (function : PlainFunction lone)

/-- Bindings with slots for the type parameters, if there are any. -/
def Suits (bindings : Bindings) : Prop :=
  function.entry.templateParameters ≠ [] → bindings.isEmpty = false

/-- What bindings bind a parameter to. -/
def boundBy (bindings : Bindings) (parameter : NodeId) : Option Binding :=
  (bindings.get? parameter).filter (·.isBound)

variable {function}

theorem stands_push (state : State) (frame : Frame) (isRunning : state.isCancelled = false)
    (defaults : state.defaults = {}) (isPositive : state.guard.IsPositive)
    (isUnbound : ∀ parameter, state.stack.binding? parameter = none)
    (isScope : frame.scope = function.id) (isOutside : frame.statement = none)
    (isPlain : frame.overrides = {}) (suits : function.Suits frame.bindings) :
    function.Stands state.guard (boundBy frame.bindings) (state.push frame) where
  isRunning := isRunning
  isScope := isScope
  isOutside := isOutside
  isDefault := by
    refine ⟨?_, defaults⟩
    change frame.overrides.apply state.defaults = {}
    rw [isPlain, Overrides.apply_empty, defaults]
  sameGuard := rfl
  isPositive := isPositive
  sameBindings := by
    intro parameter
    have isBelow := isUnbound parameter
    simp only [Stack.binding?, State.push, Stack.push, Stack.frames, List.findSome?_cons]
      at isBelow ⊢
    rw [isBelow]
    unfold boundBy
    cases (frame.bindings.get? parameter).filter (·.isBound) <;> rfl
  isQuiet := by
    intro isTemplate name
    have hasBindings : (state.push frame).stack.hasBindings = true := by
      simp [State.push, Stack.push, Stack.hasBindings, Stack.frames, suits isTemplate]
    simp [State.memoKey?, hasBindings]

/-- What an argument makes of the bindings for a type of the signature. -/
theorem exists_matchType (evaluator : Evaluator) (isPattern : pattern.IsPattern function.names)
    (suits : function.Suits bindings) (literal : Literal) :
    ∃ outcome,
      (∀ later, outcome = some later → function.Suits later) ∧
        ∀ state, lone.IsIdle state →
          Yields program evaluator state
            (matchType function.id pattern (Typing.ofLiteral literal) bindings)
            outcome := by
  -- Patterns for single types are not taken apart: they are resolved, and the argument converted.
  have isResolved :
      matchType function.id pattern (Typing.ofLiteral literal) bindings =
        matchResolved function.id pattern (Typing.ofLiteral literal) bindings := by
    cases isPattern <;> simp only [matchType, Typing.strip_ofLiteral]
  obtain ⟨symbols, determines⟩ := exists_determines evaluator {} (boundBy bindings) isPattern
  have resolves :
      ∀ state, lone.IsIdle state →
        Yields program evaluator state
          (Query.withFrame (frameOf function.id bindings) (Query.resolve pattern))
          (some symbols) := by
    intro state isIdle
    have stands :=
      stands_push state (frameOf function.id bindings) isIdle.isRunning isIdle.defaults
        isIdle.isPositive isIdle.isUnbound rfl rfl rfl suits
    rw [isIdle.isFresh] at stands
    exact .withFrame isIdle.isRunning (determines _ stands)
  rw [isResolved]
  cases isExpected : symbols.head? with
  | none =>
    refine ⟨some bindings, ?_, fun state isIdle => ?_⟩
    · rintro _ ⟨⟩
      exact suits
    · apply Yields.bind (resolves state isIdle)
      rw [Option.bind_some, isExpected]
      exact .pure _
  | some expected =>
    have keeps : function.Suits ((Typing.ofLiteral literal).convert expected bindings).2 :=
      fun isTemplate => (Symbol.convert_deduces rfl).isEmpty_eq_false (suits isTemplate)
    generalize isConverted : (Typing.ofLiteral literal).convert expected bindings = converted
    rw [isConverted] at keeps
    obtain ⟨converts, later⟩ := converted
    refine ⟨if converts then some later else none, ?_, fun state isIdle => ?_⟩
    · intro result isResult
      cases converts with
      | false => cases isResult
      | true =>
        cases isResult
        exact keeps
    · apply Yields.bind (resolves state isIdle)
      rw [Option.bind_some, isExpected]
      dsimp only
      rw [isConverted]
      exact .pure _

theorem tupleParameter?_eq_none (function : PlainFunction lone) (pattern : TypeExpr) :
    tupleParameter? program.tree function.entry pattern = none := by
  unfold tupleParameter?
  cases pattern.plainName? with
  | none => rfl
  | some name =>
    refine List.find?_eq_none.mpr fun parameter isParameter => ?_
    simp [(function.arePlain parameter isParameter).isKind, ParameterKind.isTuple]

theorem areUnrestricted (function : PlainFunction lone) :
    ∀ parameter ∈ function.entry.templateParameters, IsUnrestricted program.tree parameter :=
  fun parameter isParameter => (function.arePlain parameter isParameter).isUnrestricted

/-- The types of literals as those of the arguments of a call. -/
def argumentTypes (literals : List Literal) : List (Option Symbol) :=
  literals.map fun literal => some (Typing.ofLiteral literal)

section Calls

/-- What the arguments of a call make of the bindings. -/
theorem exists_matchCall (evaluator : Evaluator)
    (areParameters : ∀ parameter ∈ parameters, parameter ∈ function.parameters)
    (suits : function.Suits bindings) (literals : List Literal) :
    ∃ outcome,
      (∀ later, outcome = some later → function.Suits later) ∧
        ∀ state, lone.IsIdle state →
          Yields program evaluator state
            (matchCall function.id parameters (argumentTypes literals) bindings)
            outcome := by
  induction parameters generalizing literals bindings with
  | nil =>
    refine ⟨if (argumentTypes literals).isEmpty then some bindings else none, ?_, ?_⟩
    · intro later isLater
      split at isLater
      · cases isLater
        exact suits
      · cases isLater
    · exact fun state isIdle => .pure _
  | cons parameter rest ih =>
    obtain ⟨node, pattern, initializer, isNode, isKind, -, -, -, isPattern⟩ :=
      function.areTyped parameter (areParameters parameter List.mem_cons_self)
    have isTyped : node.declaredType? = some pattern := by
      rw [Node.declaredType?, isKind]
    have isNoTuple := function.tupleParameter?_eq_none pattern
    have areRest : ∀ later ∈ rest, later ∈ function.parameters :=
      (List.forall_mem_cons.mp areParameters).2
    cases literals with
    | nil =>
      obtain ⟨outcome, keeps, isMatched⟩ := ih areRest suits []
      cases isOptional : node.initializer?.isSome with
      | false =>
        refine ⟨none, nofun, fun state isIdle =>
          yields_matchCall_nil function.isEntry isNode isTyped isNoTuple ?_⟩
        rw [isOptional]
        exact .pure none
      | true =>
        refine ⟨outcome, keeps, fun state isIdle =>
          yields_matchCall_nil function.isEntry isNode isTyped isNoTuple ?_⟩
        rw [isOptional]
        exact isMatched state isIdle
    | cons literal others =>
      obtain ⟨matched, keepsFirst, takes⟩ := exists_matchType evaluator isPattern suits literal
      cases matched with
      | none =>
        exact ⟨none, nofun, fun state isIdle =>
          yields_matchCall_cons function.isEntry isNode isTyped isNoTuple
            (takes state isIdle) nofun fun _ => rfl⟩
      | some later =>
        obtain ⟨outcome, keeps, isMatched⟩ := ih areRest (keepsFirst later rfl) others
        refine ⟨outcome, keeps, fun state isIdle =>
          yields_matchCall_cons function.isEntry isNode isTyped isNoTuple
            (takes state isIdle) ?_ nofun⟩
        rintro _ ⟨⟩
        exact isMatched state isIdle

/--
Whether the first parameter takes a receiver does not depend on the options, and
a function whose first parameter does not take it takes no call with it.
-/
theorem exists_firstParameterAccepts
    (evaluator : Evaluator) (function : PlainFunction lone) (receiver : Literal)
    (others : List Literal) :
    ∃ accepts,
      (∀ state, lone.IsIdle state →
        Yields program evaluator state
          (firstParameterAccepts function.id (Typing.ofLiteral receiver)) accepts) ∧
        (accepts = false →
          ∀ state, lone.IsIdle state →
          Yields program evaluator state
            (matchCall function.id function.parameters
              (argumentTypes (receiver :: others))
              (.forParameters function.entry.templateParameters))
            none) := by
  have areParameters : function.entry.parameters = function.parameters := by
    rw [Node.parameters, function.isMethod]
  cases isFirst : function.parameters with
  | nil =>
    refine ⟨false, fun state isIdle => ?_, fun _ state isIdle => .pure none⟩
    apply Yields.bind (.ofReads (.node function.isEntry))
    rw [areParameters, isFirst]
    exact .pure false
  | cons parameter rest =>
    obtain ⟨node, pattern, initializer, isNode, isKind, -, -, -, isPattern⟩ :=
      function.areTyped parameter (isFirst ▸ List.mem_cons_self)
    have isTyped : node.declaredType? = some pattern := by
      rw [Node.declaredType?, isKind]
    obtain ⟨matched, -, takes⟩ :=
      exists_matchType evaluator isPattern isEmpty_forParameters receiver
    refine ⟨matched.isSome, fun state isIdle => ?_, fun isRefused state isIdle => ?_⟩
    · apply Yields.bind (.ofReads (.node function.isEntry))
      rw [areParameters, isFirst]
      apply Yields.bind (.ofReads (.node isNode))
      rw [isTyped]
      apply Yields.bind (.ofReads .tree)
      rw [function.tupleParameter?_eq_none]
      exact .bind (takes state isIdle) (.pure _)
    · have isNone : matched = none := by simpa using isRefused
      refine yields_matchCall_cons function.isEntry isNode isTyped
        (function.tupleParameter?_eq_none pattern) (takes state isIdle) ?_ fun _ => rfl
      intro later isLater
      rw [isNone] at isLater
      cases isLater

end Calls

theorem attached_eq
    (function : PlainFunction lone) (isIdle : lone.IsIdle state) (given : Bindings) :
    attached program.tree state.stack function.id function.entry given =
      (forParameters function.entry.templateParameters).mergeMissing given := by
  apply attached_outside function.isEntry (isIdle.isScope ▸ lone.isModuleEntry) lone.isRoot
  rw [function.isMethod, lone.isModule]
  exact nofun

/-- The function as one of the overloads of a call. -/
def overload (function : PlainFunction lone) : Symbol :=
  .member function.id none (.forParameters function.entry.templateParameters)

theorem yields_overload (function : PlainFunction lone) (isIdle : lone.IsIdle state)
    (isReference : state.options.referencesOnly = true) :
    Yields program evaluator state (Query.symbolOf function.id .none) (some function.overload) := by
  apply yields_symbolOf isIdle.isRunning isIdle.isPositive function.isEntry
  rw [function.attached_eq isIdle]
  apply yields_visit_method function.isMethod
  · simp [Reach.ofOptions, isReference]
  · exact fun _ => rfl

/-- Under bindings for its type parameters the function has its return type. -/
theorem exists_instance (evaluator : Evaluator) (suits : function.Suits bindings) :
    ∃ base,
      ∀ state, lone.IsIdle state → state.options = {} →
        Yields program evaluator state (Query.symbolOf function.id bindings)
          (some (.member function.id base
            ((forParameters function.entry.templateParameters).mergeMissing bindings))) := by
  obtain ⟨symbols, determines⟩ :=
    exists_determines evaluator (Guard.enter {} function.id) (boundBy bindings) function.isResult
  refine ⟨Symbol.ofCandidates? symbols, fun state isIdle isDefault => ?_⟩
  apply yields_symbolOf isIdle.isRunning isIdle.isPositive function.isEntry
  rw [function.attached_eq isIdle]
  have stands :
      function.Stands (Guard.enter {} function.id) (boundBy bindings)
        (state.reading program.tree function.id bindings) := by
    have isScope : program.tree.scopeOf function.id = function.id := by
      simp [Tree.scopeOf, function.isEntry, Node.isBlock, function.isMethod]
    have isUndeclared : program.tree.declaringStatement? function.id = none := by
      simp [Tree.declaringStatement?, Tree.parent?, function.isEntry, function.isInside,
        Tree.body?, lone.isModuleEntry, lone.isModule]
    rw [← isIdle.isFresh]
    exact stands_push { state with guard := state.guard.enter function.id }
      (.ofDeclaration program.tree function.id bindings) isIdle.isRunning isIdle.defaults
      (isIdle.isPositive.enter function.id) isIdle.isUnbound isScope isUndeclared rfl suits
  apply yields_visit_method function.isMethod
  · intro _
    apply Yields.bind (.ofReads (.node function.isEntry))
    rw [function.isMethod]
    exact .bind (determines _ stands) (.pure _)
  · rw [isDefault, isIdle.isFresh, Guard.depth_enter_self]
    intro isShallow
    cases isShallow

/-- What an overload with the receiver in front of the arguments is called with. -/
def callArguments (overload : Symbol) (arguments : List (Option Symbol)) : List (Option Symbol) :=
  if overload.isUfcs then overload.receiver?.bind Symbol.strip :: arguments else arguments

/-- What the function is for a call with the given types, whatever way the call is written. -/
structure Answers (function : PlainFunction lone) (evaluator : Evaluator) (literals : List Literal)
    (outcome : Option Symbol) : Prop where
  isInstance :
    ∀ symbol, outcome = some symbol → ∃ base bindings, symbol = .member function.id base bindings
  yields :
    ∀ state overload arguments,
      lone.IsIdle state →
        state.options = {} →
        overload.shape = function.overload.shape →
          callArguments overload arguments = argumentTypes literals →
          Yields program evaluator state
            (Template.instantiateForCall [] arguments overload)
            (outcome.map (·.withMissingTags overload.tags))

/-- An overload that matches the arguments, and has all its type parameters bound, takes a call. -/
theorem yields_instantiateForCall {overload : Symbol} {literals : List Literal}
    (isShape : overload.shape = function.overload.shape)
    (areArguments : callArguments overload arguments = argumentTypes literals)
    (isMatched :
      Yields program evaluator state
        (Template.matchCall function.id function.parameters (argumentTypes literals)
          (.forParameters function.entry.templateParameters))
        matched)
    (isGiven :
      ∀ bindings, matched = some bindings →
        Yields program evaluator state
          (Template.instantiateMember overload function.id bindings) (gives bindings)) :
    Yields program evaluator state (Template.instantiateForCall [] arguments overload)
      ((matched.filter (·.allSatisfied)).map gives) := by
  have isDefinition : overload.definition? = some function.id := by
    rw [Symbol.definition?, isShape]
    rfl
  have isOpen :
      (forParameters function.entry.templateParameters).mergeMissing overload.bindings =
        .forParameters function.entry.templateParameters := by
    have isCarried : overload.bindings = .forParameters function.entry.templateParameters := by
      rw [Symbol.bindings, Symbol.bindings?, isShape]
      rfl
    rw [isCarried, mergeMissing, filled_forParameters]
    rfl
  have isMethod : function.entry.isMethod = true := by
    rw [Node.isMethod, function.isMethod]
  have areParameters : function.entry.parameters = function.parameters := by
    rw [Node.parameters, function.isMethod]
  have binds :
      Reads program state
        (Template.bindParameters function.id overload [] false false
          ((forParameters function.entry.templateParameters).mergeMissing overload.bindings))
        (some (.forParameters function.entry.templateParameters)) := by
    have isDistributed :=
      Template.distributed?_append
        (fun parameter isParameter => ⟨_, (function.arePlain parameter isParameter).isKind, rfl⟩)
        [] (.forParameters function.entry.templateParameters)
    rw [List.append_nil] at isDistributed
    rw [isOpen]
    apply Reads.bind (.node function.isEntry)
    apply Reads.bind (Template.reads_bindInOrder_distributed function.areUnrestricted _ _ _ _)
    rw [isDistributed]
    exact .pure _
  rw [← areArguments, ← areParameters] at isMatched
  refine Template.yields_instantiateForCall isDefinition function.isEntry isMethod
    function.areUnrestricted binds isMatched ?_ isGiven
  intro _ _ parameter isParameter isTuple
  rw [Template.isTuple_eq (function.arePlain parameter isParameter).isKind] at isTuple
  cases isTuple

/-- For every call the function has an answer. -/
theorem exists_answer (evaluator : Evaluator) (function : PlainFunction lone) (receiver : Literal)
    (others : List Literal) :
    ∃ accepts outcome,
      (∀ state, lone.IsIdle state →
        Yields program evaluator state
          (firstParameterAccepts function.id (Typing.ofLiteral receiver)) accepts) ∧
        (accepts = false → outcome = none) ∧
        function.Answers evaluator (receiver :: others) outcome := by
  obtain ⟨accepts, isAccepted, isRefused⟩ :=
    exists_firstParameterAccepts evaluator function receiver others
  obtain ⟨matched, keeps, isMatched⟩ :=
    exists_matchCall evaluator (fun _ isParameter => isParameter)
      (isEmpty_forParameters : function.Suits _) (receiver :: others)
  -- The return type is chosen for all bindings at once, so that the outcome can be written as one
  -- function of what the matching gives.
  have hasBase bindings (isResult : matched = some bindings) :=
    exists_instance evaluator (keeps bindings isResult)
  choose! base isBase using hasBase
  refine ⟨accepts, (matched.filter (·.allSatisfied)).map fun bindings =>
    .member function.id (base bindings)
      ((forParameters function.entry.templateParameters).mergeMissing bindings),
    isAccepted, ?_, ?_, ?_⟩
  · intro isFalse
    have isNone : matched = none :=
      (isMatched _ lone.isIdle_start).unique (isRefused isFalse _ lone.isIdle_start)
    rw [isNone]
    rfl
  · intro symbol isSymbol
    obtain ⟨bindings, -, rfl⟩ := Option.map_eq_some_iff.mp isSymbol
    exact ⟨_, _, rfl⟩
  · intro state overload arguments isIdle isDefault isShape areArguments
    rw [Option.map_map]
    apply yields_instantiateForCall isShape areArguments (isMatched state isIdle)
    intro bindings isBindings
    exact .bind (isBase bindings isBindings state isIdle isDefault) (.pure _)

end PlainFunction

end DScope
