import DScope.Proofs.Simulation

namespace DScope

/-!
# Cancellation on the way

A query that is cancelled at one of its evaluations runs up to that evaluation
as if nothing had happened. It is unaffected when the evaluation is never
reached. When it is reached, a name gives no symbols, and so does a type built
from a name; overloads may be given without the parts that were not found any
more.
-/

open Query Engine Resolution

/-- The relation between a run that may be cancelled and one that is not, as long as they agree. -/
def AgreeSoFar (_ : Standing) (first second : State) : Prop :=
  first = second ∧ first.isCancelled = false ∧ first.guard.IsPositive

variable {program : Program} {number limit : Nat} {state final : State}

theorem AgreeSoFar.follows_ofName {standing : Standing} {name : String}
    (follows :
      Follows program (.cancelling number) (.cancelling 0) limit (AgreeSoFar standing)
        (searchName name)) :
    Follows program (.cancelling number) (.cancelling 0) limit (AgreeSoFar standing)
      (ofName name) := by
  rintro first second ⟨rfl, isRunning, isPositive⟩ result final returned
  cases isRemembered : first.remembered? name with
  | some symbols =>
    rw [run_remembered isRemembered] at returned
    cases returned
    exact .inr ⟨first, ⟨rfl, isRunning, isPositive⟩, 0,
      fun limit _ => run_remembered isRemembered limit⟩
  | none =>
    obtain ⟨found, later, isSearch, outcome⟩ := search_of_ofName isRemembered returned
    rcases outcome with ⟨isCancelled, -, rfl⟩ | ⟨laterIsRunning, rfl, rfl⟩
    · exact .inl isCancelled
    rcases follows ⟨rfl, isRunning, isPositive⟩ isSearch with
      isCancelled | ⟨other, ⟨rfl, _, laterIsPositive⟩, settles⟩
    · rw [laterIsRunning] at isCancelled
      cases isCancelled
    · have balances := State.Balances.concluded .standard later name result
      have finalIsRunning : (concluded later name result).isCancelled = false :=
        (isCancelled_concluded later name result).trans laterIsRunning
      exact .inr ⟨_, ⟨rfl, finalIsRunning, balances.guard ▸ laterIsPositive⟩,
        settles_ofName isRemembered settles laterIsRunning⟩

theorem AgreeSoFar.simulation (program : Program) (number : Nat) :
    Simulation program (.cancelling number) (.cancelling 0) AgreeSoFar where
  view := by
    rintro standing first second ⟨rfl, -, -⟩
    rfl
  isRunning agree := agree.2.1
  isPositive agree := agree.2.2
  reported := by
    rintro standing first second diagnostic ⟨rfl, isRunning, isPositive⟩
    exact ⟨rfl, isRunning, isPositive⟩
  opened := by
    rintro standing first second frame - ⟨rfl, isRunning, isPositive⟩
    exact ⟨rfl, isRunning, isPositive⟩
  overridden := by
    rintro standing first second overrides ⟨rfl, isRunning, isPositive⟩
    exact ⟨rfl, isRunning, isPositive⟩
  marked := by
    rintro standing first second node - ⟨rfl, isRunning, isPositive⟩
    exact ⟨rfl, isRunning, isPositive.mark node⟩
  entered := by
    rintro standing first second node ⟨rfl, isRunning, isPositive⟩
    exact ⟨rfl, isRunning, isPositive.enter node⟩
  evaluated := by
    rintro standing first second ⟨rfl, isRunning, isPositive⟩
    -- Both runs count the evaluation, so they part only where the first one is cancelled by it.
    cases isCancelled : (evaluationStart (.cancelling number) first).isCancelled with
    | true => exact .inl rfl
    | false =>
      have isOther : (first.evaluations + 1 == number) = false := by
        simpa [evaluationStart, isRunning] using isCancelled
      refine .inr ⟨?_, isCancelled, isPositive⟩
      simp [evaluationStart, isOther]
  returned := by
    rintro outer inner first second firstLater secondLater ⟨rfl, _, isPositive⟩ ⟨rfl, isRunning, _⟩
    exact ⟨rfl, isRunning, isPositive⟩
  isAbsent := by simp
  remembered _ follows := AgreeSoFar.follows_ofName follows

theorem Operation.settles_of_running
    {α : Type} {operation : Operation α} {result : α} (isRunning : state.isCancelled = false)
    (isPositive : state.guard.IsPositive)
    (returned : run program (.cancelling number) limit operation.query state = .ok (result, final))
    (finalIsRunning : final.isCancelled = false) :
    Settles program (.cancelling 0) operation.query state result final := by
  have orderly := operation.query_orderly program
  have agree : AgreeSoFar .plain state state := ⟨rfl, isRunning, isPositive⟩
  rcases (AgreeSoFar.simulation program number).follows orderly limit agree returned with
    isCancelled | ⟨other, ⟨rfl, -, -⟩, settles⟩
  · rw [finalIsRunning] at isCancelled
    cases isCancelled
  · exact settles

/-- The types that are a basic type or a name below pointers, arrays and modifiers. -/
inductive TypeExpr.IsDirect : TypeExpr → Prop
  | basic (type : BasicType) : IsDirect (.basic type)
  | named (name : String) : IsDirect (.named name)
  | pointer {target : TypeExpr} (isDirect : IsDirect target) : IsDirect (.pointer target)
  | dynamicArray {element : TypeExpr} (isDirect : IsDirect element) :
      IsDirect (.dynamicArray element)
  | modified (modifier : Modifier) {inner : TypeExpr} (isDirect : IsDirect inner) :
      IsDirect (.modified modifier inner)

namespace Resolution

variable {evaluator : Evaluator} {result : List Symbol} {type : TypeExpr}

theorem ofName_eq_nil {name : String} (isRunning : state.isCancelled = false)
    (returned : run program evaluator limit (ofName name) state = .ok (result, final))
    (isCancelled : final.isCancelled = true) : result = [] := by
  cases isRemembered : state.remembered? name with
  | some symbols =>
    rw [run_remembered isRemembered] at returned
    cases returned
    rw [isRunning] at isCancelled
    cases isCancelled
  | none =>
    obtain ⟨found, later, -, outcome⟩ := search_of_ofName isRemembered returned
    rcases outcome with ⟨-, isEmpty, -⟩ | ⟨laterIsRunning, -, rfl⟩
    · exact isEmpty
    · rw [isCancelled_concluded, laterIsRunning] at isCancelled
      cases isCancelled

theorem eq_nil_of_map {inner : TypeExpr} {wrap : Symbol → Symbol}
    (innerIsEmpty :
      ∀ {found : List Symbol},
        run program evaluator limit (resolve inner) state = .ok (found, final) → found = [])
    (returned :
      run program evaluator limit (do return (← resolve inner).map wrap) state =
        .ok (result, final)) :
    result = [] := by
  rw [run_apply, bind_apply] at returned
  split at returned
  next found later isInner =>
    cases returned
    rw [innerIsEmpty isInner]
    rfl
  next => cases returned

theorem run_of_poll {body : Query (List Symbol)} (isRunning : state.isCancelled = false)
    (returned :
      run program evaluator limit
          (isCancelled >>= fun isCancelled => if isCancelled then pure [] else body) state =
        .ok (result, final)) :
    run program evaluator limit body state = .ok (result, final) := by
  rw [run_apply, bind_apply, isCancelled_apply, isRunning] at returned
  exact returned

theorem ofType_of_resolve
    (returned : run program evaluator limit (resolve type) state = .ok (result, final)) :
    ∃ lower, run program evaluator lower (ofType type) state = .ok (result, final) := by
  cases limit with
  | zero => cases returned
  | succ lower => exact ⟨lower, returned⟩

theorem resolve_eq_nil (isDirect : type.IsDirect) (isRunning : state.isCancelled = false)
    (returned : run program evaluator limit (resolve type) state = .ok (result, final))
    (isCancelled : final.isCancelled = true) :
    result = [] := by
  induction isDirect generalizing limit result with
  | basic type =>
    obtain ⟨lower, ruled⟩ := ofType_of_resolve returned
    cases run_of_poll isRunning ruled
    rw [isRunning] at isCancelled
    cases isCancelled
  | named name =>
    obtain ⟨lower, ruled⟩ := ofType_of_resolve returned
    exact ofName_eq_nil isRunning (run_of_poll isRunning ruled) isCancelled
  | pointer isDirect ih =>
    obtain ⟨lower, ruled⟩ := ofType_of_resolve returned
    exact eq_nil_of_map ih (run_of_poll isRunning ruled)
  | dynamicArray isDirect ih =>
    obtain ⟨lower, ruled⟩ := ofType_of_resolve returned
    exact eq_nil_of_map ih (run_of_poll isRunning ruled)
  | modified modifier isDirect ih =>
    obtain ⟨lower, ruled⟩ := ofType_of_resolve returned
    exact eq_nil_of_map ih (run_of_poll isRunning ruled)

end Resolution

/-- A run that is cancelled with nothing in hand, or is unaffected by cancellation. -/
def NothingOrRight (program : Program) (number limit : Nat)
    (operation : Operation (List Symbol)) (state : State) : Prop :=
  ∀ result final,
    Engine.run program (.cancelling number) limit operation.query state = .ok (result, final) →
      result = [] ∨ Engine.Settles program (.cancelling 0) operation.query state result final

/--
What cancelling a query at one of its evaluations does.

Every operation is unaffected unless that evaluation is reached, and then it is
cancelled. A name, and a type that is a name below pointers, arrays and
modifiers, gives no symbols or the right ones wherever it is cancelled.
-/
theorem cancellation_leaves_nothing_or_the_result
    (program : Program)
    (number limit : Nat)
    {state : State}
    (isRunning : state.isCancelled = false)
    (isPositive : ∀ entry ∈ state.guard.counts, 0 < entry.2) :
    (∀ {α : Type} (operation : Operation α) (result : α) (final : State),
      Engine.run program (.cancelling number) limit operation.query state = .ok (result, final) →
        if state.evaluations < number ∧ number ≤ final.evaluations then
          final.isCancelled = true
        else
          final.isCancelled = false ∧
            Engine.Settles program (.cancelling 0) operation.query state result final) ∧
      (∀ name, NothingOrRight program number limit (.resolveIdentifier name) state) ∧
      ∀ type : TypeExpr, type.IsDirect →
        NothingOrRight program number limit (.resolveType type) state := by
  have nothingOrRight :
      ∀ operation : Operation (List Symbol),
        (∀ {result final},
          run program (.cancelling number) limit operation.query state = .ok (result, final) →
            final.isCancelled = true → result = []) →
          NothingOrRight program number limit operation state := by
    intro operation isEmpty result final returned
    cases isCancelled : final.isCancelled with
    | true => exact .inl (isEmpty returned isCancelled)
    | false =>
      exact .inr (Operation.settles_of_running isRunning isPositive returned isCancelled)
  refine ⟨fun operation result final returned => ?_, fun name => ?_, fun type isDirect => ?_⟩
  · have orderly := operation.query_orderly program
    have balances := orderly.run_isBalanced (.cancelling number) limit isPositive returned
    have cancellation := balances.cancellation
    simp only [isRunning, Bool.false_eq_true, false_or] at cancellation
    split
    next isReached =>
      exact cancellation.mpr isReached
    next isMissed =>
      have finalIsRunning := Bool.eq_false_iff.mpr fun isCancelled =>
        isMissed (cancellation.mp isCancelled)
      exact ⟨finalIsRunning,
        Operation.settles_of_running isRunning isPositive returned finalIsRunning⟩
  · exact nothingOrRight _ (ofName_eq_nil isRunning)
  · exact nothingOrRight _ (resolve_eq_nil isDirect isRunning)

/-- Names and types with an inferred variable give nothing or the right symbols. -/
theorem cancellation_leaves_nothing_of_inferredVariable :
    Operation.inFlight.isCancelled = false ∧
      (∀ entry ∈ Operation.inFlight.guard.counts, 0 < entry.2) ∧
      (∃ result final,
        Engine.run .inferredVariable (.cancelling 1) 9 (Operation.resolveIdentifier "x").query
            Operation.inFlight =
            .ok (result, final) ∧
          final.isCancelled = true) ∧
        (∀ name,
          NothingOrRight .inferredVariable 1 9 (.resolveIdentifier name) Operation.inFlight) ∧
        NothingOrRight .inferredVariable 1 9 (.resolveType (.pointer (.named "x")))
          Operation.inFlight := by
  have isPositive : ∀ entry ∈ Operation.inFlight.guard.counts, 0 < entry.2 := by decide
  have run :
      ((run .inferredVariable (.cancelling 1) 9 (Operation.resolveIdentifier "x").query
            Operation.inFlight).toOption.any
        fun outcome => outcome.2.isCancelled) =
        true := by
    decide +kernel
  obtain ⟨⟨result, final⟩, returned, isCancelled⟩ := exists_of_any run
  obtain ⟨-, names, types⟩ :=
    cancellation_leaves_nothing_or_the_result .inferredVariable 1 9 rfl isPositive
  exact ⟨rfl, isPositive, ⟨result, final, returned, isCancelled⟩, names,
    types _ (.pointer (.named "x"))⟩

/-- An operation that gives symbols, but not the right ones, when it is cancelled on the way. -/
def IsFalsified (program : Program) (number : Nat) (operation : Operation (List Symbol))
    (state : State) : Prop :=
  ∃ limit result final right rightFinal,
    Engine.run program (.cancelling number) limit operation.query state = .ok (result, final) ∧
      Engine.run program (.cancelling 0) limit operation.query state = .ok (right, rightFinal) ∧
      result ≠ [] ∧ result ≠ right

/-- Whether a property of the symbols shows that an operation is falsified. -/
def showsFalsified {β : Type} [DecidableEq β] (program : Program) (number : Nat)
    (operation : Operation (List Symbol)) (property : Symbol → β) (limit : Nat) (state : State) :
    Bool :=
  let cancelled := Engine.run program (.cancelling number) limit operation.query state
  differ property cancelled (.ok ([], state)) &&
    differ property cancelled (Engine.run program (.cancelling 0) limit operation.query state)

theorem isFalsified_of_showsFalsified
    {β : Type} [DecidableEq β] {operation : Operation (List Symbol)} {property : Symbol → β}
    (shows : showsFalsified program number operation property limit state = true) :
    IsFalsified program number operation state := by
  obtain ⟨isSome, isDifferent⟩ := Bool.and_eq_true_iff.mp shows
  obtain ⟨result, final, _, _, returned, isNone, isSome⟩ := exists_of_differ isSome
  obtain ⟨_, _, right, rightFinal, sameReturned, rightReturned, isDifferent⟩ :=
    exists_of_differ isDifferent
  cases isNone
  cases returned.symm.trans sameReturned
  exact ⟨limit, result, final, right, rightFinal, returned, rightReturned, isSome, isDifferent⟩

/-- A program with two constrained structs of the same name. -/
def Program.constrained : Program :=
  let drafting : Drafting Unit := do
    let module ← Draft.addModule "m"
    for _ in [0, 1] do
      let struct ← Draft.addMember module "S" (.aggregate .structType false [])
      Draft.setConstraint struct (.literal (.bool true))
  .ofTree (drafting.run {}).2.tree

/-- How many parameters a callable has. -/
def Symbol.parameterCount (symbol : Symbol) : Nat :=
  match symbol.shape with
  | .callable callable => callable.parameters.length
  | _ => 0

/--
The other queries are falsified by cancellation: overloads come without their
types, a delegate without its parameters, and of constrained templates only
those whose constraints were tried in time.
-/
theorem cancellation_falsifies :
    IsFalsified .inferredVariable 1 (.resolveOverloads "x") (.start ⟨0⟩ none) ∧
      IsFalsified .inferredVariable 1
        (.resolveType (.callable (.basic .int) [.named "x"] false)) (.start ⟨0⟩ none) ∧
      ∃ overloads final,
        Engine.run .constrained (.cancelling 1) 9 (Operation.resolveOverloads "S").query
            (.start ⟨0⟩ none) =
            .ok (overloads, final) ∧
          IsFalsified .constrained 1 (.deduceAndFilter overloads [] false) (.start ⟨0⟩ none) := by
  refine ⟨?_, ?_, ?_⟩
  · have shows :
        showsFalsified .inferredVariable 1 (.resolveOverloads "x")
            (fun symbol => (symbol.member?.bind (·.base)).isSome) 9 (.start ⟨0⟩ none) =
          true := by
      decide +kernel
    exact isFalsified_of_showsFalsified shows
  · have shows :
        showsFalsified .inferredVariable 1
            (.resolveType (.callable (.basic .int) [.named "x"] false)) Symbol.parameterCount 9
            (.start ⟨0⟩ none) =
          true := by
      decide +kernel
    exact isFalsified_of_showsFalsified shows
  · have run :
        ((run .constrained (.cancelling 1) 9 (Operation.resolveOverloads "S").query
              (.start ⟨0⟩ none)).toOption.any
          fun outcome =>
            showsFalsified .constrained 1 (.deduceAndFilter outcome.1 [] false)
              Symbol.definition? 9 (.start ⟨0⟩ none)) =
          true := by
      decide +kernel
    obtain ⟨⟨overloads, final⟩, returned, shows⟩ := exists_of_any run
    exact ⟨overloads, final, returned, isFalsified_of_showsFalsified shows⟩

end DScope
