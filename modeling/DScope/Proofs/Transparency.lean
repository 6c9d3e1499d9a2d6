import DScope.Proofs.Memo

namespace DScope

/-!
# Sessions under a convention

A client changes frames and default options as it likes and runs operations
where the convention is followed. Resolving a name then gives the same symbols
with the memo that has come about and with an empty one. Without the convention
it need not: two places with one key share an entry.
-/

variable {memo : List (MemoKey × List Symbol)}

/-- The states that a client reaches from a fresh one under a convention. -/
inductive Reachable (program : Program) (evaluator : Evaluator)
    (convention : Convention program.tree) : State → Prop
  | start (scope : NodeId) (statement : Option StatementId) :
      Reachable program evaluator convention (.start scope statement)
  | push {state : State} (frame : Frame)
      (before : Reachable program evaluator convention state) :
      Reachable program evaluator convention (state.push frame)
  | pop {state rest : State} {frame : Frame}
      (before : Reachable program evaluator convention state)
      (isRest : state.pop? = some (frame, rest)) :
      Reachable program evaluator convention rest
  | truncate {state : State} (depth : Nat)
      (before : Reachable program evaluator convention state) :
      Reachable program evaluator convention (state.truncate depth)
  | setDefaults {state : State} (defaults : Options)
      (before : Reachable program evaluator convention state) :
      Reachable program evaluator convention { state with defaults }
  | cancel {state : State}
      (before : Reachable program evaluator convention state) :
      Reachable program evaluator convention { state with isCancelled := true }
  | run {α : Type} {state final : State} {result : α} (operation : Operation α) (limit : Nat)
      (before : Reachable program evaluator convention state)
      (keeps : state.Keeps convention)
      (returned :
        Engine.run program evaluator limit operation.query state = .ok (result, final)) :
      Reachable program evaluator convention final

theorem State.eq_of_pop?
    {state rest : State} {frame : Frame} (isRest : state.pop? = some (frame, rest)) :
    ∃ stack, rest = { state with stack } := by
  obtain ⟨⟨top, stack⟩, -, isPair⟩ := Option.map_eq_some_iff.mp isRest
  cases isPair
  exact ⟨stack, rfl⟩

/-- The state with one more frame at the bottom, whose only slot is empty. -/
def State.blocked (state : State) : State :=
  let bottom : Frame := { scope := ⟨0⟩, bindings := ⟨[.empty ⟨0⟩]⟩ }
  { state with stack := ⟨state.stack.top, state.stack.below ++ [bottom]⟩ }

variable {program : Program} {evaluator : Evaluator} {convention : Convention program.tree}
  {state : State} {limit : Nat}

theorem State.hasBindings_blocked (state : State) : state.blocked.stack.hasBindings = true := by
  simp [State.blocked, Stack.hasBindings, Stack.frames, Bindings.isEmpty]

theorem State.alike_blocked
    (isRunning : state.isCancelled = false) (isPositive : state.guard.IsPositive) :
    state.Alike state.blocked := by
  refine ⟨⟨state.stack.places, [], [(⟨0⟩, ⟨[.empty ⟨0⟩]⟩)], List.cons_ne_nil _ _, ?_, ?_, nofun,
    ?_⟩, rfl, rfl, rfl, rfl, isRunning, isRunning, isPositive⟩
  · exact (List.append_nil _).symm
  · simp [State.blocked, Stack.places, Stack.frames, Frame.place]
  · intro place member
    rw [List.mem_singleton.mp member]
    rfl

theorem Twins.ofBlocked (keeps : state.Keeps convention) (isRunning : state.isCancelled = false)
    (isPositive : state.guard.IsPositive)
    (isFaithful : IsFaithful program evaluator convention memo) :
    Twins program evaluator convention .faithful .blocked .plain { state with memo }
      state.blocked :=
  ⟨(State.alike_blocked isRunning isPositive).replace rfl rfl rfl isRunning rfl rfl rfl isRunning,
    keeps.replace rfl rfl, isFaithful, state.hasBindings_blocked⟩

theorem IsFaithful.run {α : Type} {operation : Operation α} {result : α} {final : State}
    (isFaithful : IsFaithful program evaluator.uncancelled convention state.memo)
    (keeps : state.Keeps convention) (isRunning : state.isCancelled = false)
    (isPositive : state.guard.IsPositive)
    (returned : Engine.run program evaluator limit operation.query state = .ok (result, final)) :
    final.isCancelled = true ∨ IsFaithful program evaluator.uncancelled convention final.memo := by
  have orderly := operation.query_orderly program
  have twins := Twins.ofBlocked keeps isRunning isPositive isFaithful
  rcases Twins.simulation_faithful.follows orderly limit twins returned with
    isCancelled | ⟨other, twinsLater, -⟩
  · exact .inl isCancelled
  · exact .inr twinsLater.firstHolds

namespace Reachable

theorem isIdle (reachable : Reachable program evaluator convention state) :
    state.guard.isIdle = true := by
  induction reachable with
  | start scope statement => rfl
  | push frame before ih => exact ih
  | @pop state rest frame before isRest ih =>
    obtain ⟨stack, rfl⟩ := State.eq_of_pop? isRest
    exact ih
  | truncate depth before ih => exact ih
  | setDefaults defaults before ih => exact ih
  | cancel before ih => exact ih
  | run operation limit before keeps returned ih =>
    have isPositive := Guard.isPositive_of_isIdle ih
    have balances :=
      (operation.query_orderly program).run_isBalanced evaluator limit isPositive returned
    rw [balances.guard]
    exact ih

theorem isFaithful (reachable : Reachable program evaluator convention state) :
    state.isCancelled = true ∨ IsFaithful program evaluator.uncancelled convention state.memo := by
  induction reachable with
  | start scope statement => exact .inr nofun
  | push frame before ih => exact ih
  | @pop state rest frame before isRest ih =>
    obtain ⟨stack, rfl⟩ := State.eq_of_pop? isRest
    exact ih
  | truncate depth before ih => exact ih
  | setDefaults defaults before ih => exact ih
  | cancel before ih => exact .inl rfl
  | @run α state final result operation limit before keeps returned ih =>
    have isPositive := Guard.isPositive_of_isIdle before.isIdle
    cases isRunning : state.isCancelled with
    | true =>
      have balances :=
        (operation.query_orderly program).run_isBalanced evaluator limit isPositive returned
      exact .inl (balances.isCancelled isRunning)
    | false =>
      rcases ih with isCancelled | isFaithful
      · rw [isRunning] at isCancelled
        cases isCancelled
      · exact isFaithful.run keeps isRunning isPositive returned

end Reachable

namespace Resolution

variable {name : String} {limit : Nat} {result : List Symbol} {final : State}

variable (isFaithful : IsFaithful program evaluator.uncancelled convention memo)
  (keeps : state.Keeps convention) (isRunning : state.isCancelled = false)
  (isPositive : state.guard.IsPositive)
include isFaithful keeps isRunning isPositive

theorem settles_blocked
    (returned :
      Engine.run program evaluator limit (ofName name) { state with memo } = .ok (result, final))
    (finalIsRunning : final.isCancelled = false) :
    ∃ other,
      Engine.Settles program evaluator.uncancelled (ofName name) state.blocked result other := by
  have orderly := (Operation.resolveIdentifier name).query_orderly program
  have twins := Twins.ofBlocked keeps isRunning isPositive isFaithful
  rcases Twins.simulation_faithful.follows orderly limit twins returned with
    isCancelled | ⟨other, -, settles⟩
  · rw [finalIsRunning] at isCancelled
    cases isCancelled
  · exact ⟨other, settles⟩

theorem returns_of_blocked
    (returned :
      Engine.run program evaluator.uncancelled limit (ofName name) state.blocked =
        .ok (result, final)) :
    ∃ limit final,
      Engine.run program evaluator.uncancelled limit (ofName name) { state with memo } =
        .ok (result, final) := by
  have orderly := (Operation.resolveIdentifier name).query_orderly program
  have alike := (State.alike_blocked isRunning isPositive).symm
  have finalIsRunning : final.isCancelled = false :=
    (orderly.run_isBalanced _ limit alike.isPositive returned).isRunning alike.isRunning
  have twins :
      Twins program evaluator.uncancelled convention .blocked .faithful .plain state.blocked
        { state with memo } :=
    ⟨alike.replace rfl rfl rfl isRunning rfl rfl rfl isRunning, keeps.ofAlike alike.symm,
      state.hasBindings_blocked, isFaithful⟩
  rw [← Evaluator.uncancelled_uncancelled] at twins
  rcases Twins.simulation_recalled.follows orderly limit twins returned with
    isCancelled | ⟨other, -, settles⟩
  · rw [finalIsRunning] at isCancelled
    cases isCancelled
  · rw [Evaluator.uncancelled_uncancelled] at settles
    obtain ⟨higher, returns⟩ := settles.returns
    exact ⟨higher, other, returns⟩

theorem returns_of_faithful {otherMemo : List (MemoKey × List Symbol)}
    (isUncancelled : evaluator.uncancelled = evaluator)
    (otherIsFaithful : IsFaithful program evaluator.uncancelled convention otherMemo)
    (returned :
      Engine.run program evaluator limit (ofName name) { state with memo } = .ok (result, final)) :
    ∃ limit final,
      Engine.run program evaluator limit (ofName name) { state with memo := otherMemo } =
        .ok (result, final) := by
  have orderly := (Operation.resolveIdentifier name).query_orderly program
  have balances : ({ state with memo } : State).Balances evaluator.uncancelled final := by
    rw [isUncancelled]
    exact orderly.run_isBalanced evaluator limit isPositive returned
  obtain ⟨other, settles⟩ :=
    settles_blocked isFaithful keeps isRunning isPositive returned (balances.isRunning isRunning)
  obtain ⟨higher, blockedReturned⟩ := settles.returns
  have returns := returns_of_blocked otherIsFaithful keeps isRunning isPositive blockedReturned
  rwa [isUncancelled] at returns

end Resolution

/--
In every state that a client reaches under a convention, resolving a name gives
the same symbols as with an empty memo.

Where neither of the two runs is cancelled their results agree, and without an
evaluator that cancels one of them returns exactly when the other one does.
-/
theorem memo_is_transparent
    (program : Program)
    (evaluator : Evaluator)
    (convention : Convention program.tree)
    {state : State}
    (reachable : Reachable program evaluator convention state)
    (keeps : state.Keeps convention)
    (isRunning : state.isCancelled = false)
    (name : String) :
    (∀ limit otherLimit result otherResult final otherFinal,
      Engine.run program evaluator limit (Operation.resolveIdentifier name).query state =
          .ok (result, final) →
        final.isCancelled = false →
        Engine.run program evaluator otherLimit (Operation.resolveIdentifier name).query
            { state with memo := [] } =
          .ok (otherResult, otherFinal) →
          otherFinal.isCancelled = false → result = otherResult) ∧
      ((∀ number, evaluator ≠ .cancelling number) →
        ∀ result,
          (∃ limit final,
            Engine.run program evaluator limit (Operation.resolveIdentifier name).query state =
              .ok (result, final)) ↔
            ∃ limit final,
              Engine.run program evaluator limit (Operation.resolveIdentifier name).query
                  { state with memo := [] } =
                .ok (result, final)) := by
  have isPositive := Guard.isPositive_of_isIdle reachable.isIdle
  have isFaithful : IsFaithful program evaluator.uncancelled convention state.memo :=
    reachable.isFaithful.resolve_left (by simp [isRunning])
  have emptyIsFaithful : IsFaithful program evaluator.uncancelled convention [] := nofun
  constructor
  · intro limit otherLimit result otherResult final otherFinal returned finalIsRunning
      otherReturned otherIsRunning
    obtain ⟨_, settles⟩ :=
      Resolution.settles_blocked isFaithful keeps isRunning isPositive returned finalIsRunning
    obtain ⟨_, otherSettles⟩ :=
      Resolution.settles_blocked emptyIsFaithful keeps isRunning isPositive otherReturned
        otherIsRunning
    exact settles.unique otherSettles
  · intro neverCancels result
    have isUncancelled : evaluator.uncancelled = evaluator := by
      cases evaluator with
      | cancelling number => exact absurd rfl (neverCancels number)
      | standard => rfl
      | absent => rfl
    constructor
    · rintro ⟨limit, final, returned⟩
      exact Resolution.returns_of_faithful isFaithful keeps isRunning isPositive isUncancelled
        emptyIsFaithful returned
    · rintro ⟨limit, final, returned⟩
      exact Resolution.returns_of_faithful emptyIsFaithful keeps isRunning isPositive isUncancelled
        isFaithful returned

/--
Two modules with a variable of the same name, in the first of which a function
returns the variable.
-/
def Program.homonyms : Program :=
  let drafting : Drafting Unit := do
    let first ← Draft.addModule "a"
    discard <| Draft.addMember first "x" (.var (some (.basic .int)) none)
    let method ← Draft.addMember first "f" (.method none [] none)
    let body ← Draft.addBody method
    discard <| Draft.addStatement body (.returning (some (.named "x")))
    let second ← Draft.addModule "b"
    discard <| Draft.addMember second "x" (.var (some (.basic .bool)) none)
  .ofTree (drafting.run {}).2.tree

/-- All statements belong to the only function, and options are never overridden. -/
def Convention.homonyms : Convention Program.homonyms.tree where
  home _ := ⟨2⟩
  base options := options
  home_of_returnsAt := by
    rintro ⟨index⟩ statement ⟨body, -, isBody, -⟩
    have onlyMethod :
        ∀ index < 5, (Program.homonyms.tree.body? ⟨index⟩).isSome → index = 2 := by
      decide +kernel
    have sizeIsFive : Program.homonyms.tree.nodes.size = 5 := by decide +kernel
    rcases Nat.lt_or_ge index 5 with isInside | isOutside
    · rw [onlyMethod index isInside (by rw [isBody]; rfl)]
    · have isMissing : Program.homonyms.tree.node? ⟨index⟩ = none :=
        Array.getElem?_eq_none (by rw [sizeIsFive]; exact isOutside)
      simp [Tree.body?, isMissing] at isBody

/-- The memo is transparent after the name has been resolved inside the function. -/
theorem memo_is_transparent_inside_function :
    ∃ state,
      Reachable .homonyms .standard .homonyms state ∧
        state.Keeps Convention.homonyms ∧
        state.isCancelled = false ∧
          state.memo ≠ [] ∧
          ∀ result,
            (∃ limit final,
              Engine.run .homonyms .standard limit (Operation.resolveIdentifier "x").query
                  state =
                .ok (result, final)) ↔
              ∃ limit final,
                Engine.run .homonyms .standard limit (Operation.resolveIdentifier "x").query
                    { state with memo := [] } =
                  .ok (result, final) := by
  let start : State := .start ⟨2⟩ (some ⟨0⟩)
  have startKeeps : start.Keeps Convention.homonyms := ⟨by rintro _ ⟨⟩; rfl, rfl, rfl⟩
  have run :
      ((Engine.run .homonyms .standard 9 (Operation.methodReturnType ⟨2⟩).query start).toOption.any
        fun outcome => !outcome.2.isCancelled && !outcome.2.memo.isEmpty) = true := by
    decide +kernel
  obtain ⟨⟨result, state⟩, returned, passes⟩ := exists_of_any run
  simp only [Bool.and_eq_true, Bool.not_eq_true'] at passes
  have reachable : Reachable .homonyms .standard .homonyms state :=
    .run _ 9 (.start _ _) startKeeps returned
  have balances :=
    ((Operation.methodReturnType ⟨2⟩).query_orderly .homonyms).run_isBalanced .standard 9
      (Guard.isPositive_of_isIdle rfl) returned
  have keeps : state.Keeps Convention.homonyms :=
    startKeeps.replace balances.stack balances.defaults
  exact ⟨state, reachable, keeps, passes.1, by simpa using passes.2,
    (memo_is_transparent _ _ _ reachable keeps passes.1 "x").2 nofun⟩

/-- A variable and an alias of it. -/
def Program.renamed : Program :=
  let drafting : Drafting Unit := do
    let module ← Draft.addModule "m"
    discard <| Draft.addMember module "y" (.var (some (.basic .int)) none)
    discard <| Draft.addMember module "x" (.aliased (some (.named "y")) none)
  .ofTree (drafting.run {}).2.tree

/-- A running state in which the memo decides what is found for a name. -/
def MemoMatters (program : Program) (state : State) (name : String) : Prop :=
  state.isCancelled = false ∧
    ∃ limit found final fresh freshFinal,
      Engine.run program .standard limit (Operation.resolveIdentifier name).query state =
          .ok (found, final) ∧
        Engine.run program .standard limit (Operation.resolveIdentifier name).query
            { state with memo := [] } =
          .ok (fresh, freshFinal) ∧
          found ≠ fresh

/-- Whether a property of the symbols shows that the memo matters. -/
def showsMemo {β : Type} [DecidableEq β] (program : Program) (name : String)
    (property : Symbol → β) (limit : Nat) (state : State) : Bool :=
  let query := (Operation.resolveIdentifier name).query
  !state.isCancelled &&
    differ property (Engine.run program .standard limit query state)
      (Engine.run program .standard limit query { state with memo := [] })

theorem memoMatters_of_showsMemo {β : Type} [DecidableEq β] {name : String} {property : Symbol → β}
    (shows : showsMemo program name property limit state = true) :
    MemoMatters program state name := by
  obtain ⟨isRunning, isDifferent⟩ := Bool.and_eq_true_iff.mp shows
  exact ⟨by simpa using isRunning, limit, exists_of_differ isDifferent⟩

/--
Without a convention the memo matters: at one statement in two scopes, and under
options that were overridden once and are the default later.
-/
theorem memo_is_not_transparent :
    (∃ symbols reached,
      Engine.run .homonyms .standard 9 (Operation.resolveIdentifier "x").query
          (.start ⟨2⟩ (some ⟨0⟩)) =
          .ok (symbols, reached) ∧
        MemoMatters .homonyms (reached.push { scope := ⟨3⟩, statement := some ⟨0⟩ }) "x") ∧
      ∃ symbols reached,
        Engine.run .renamed .standard 9 (Operation.resolveIdentifier "x").query
            ((State.start ⟨0⟩ none).push
              ((State.start ⟨0⟩ none).overridden { enabled := { skipBaseTypes := true } })) =
            .ok (symbols, reached) ∧
          MemoMatters .renamed
            { reached.truncate 1 with defaults := { skipBaseTypes := true } } "x" := by
  constructor
  · refine exists_returned
      (fun outcome => showsMemo .homonyms "x" Symbol.definition? 9
        (outcome.2.push { scope := ⟨3⟩, statement := some ⟨0⟩ }))
      (by decide +kernel) fun _ _ _ shows => memoMatters_of_showsMemo shows
  · refine exists_returned
      (fun outcome =>
        showsMemo .renamed "x" (fun symbol => (symbol.member?.bind (·.base)).isSome) 9
          { outcome.2.truncate 1 with defaults := { skipBaseTypes := true } })
      (by decide +kernel) fun _ _ _ shows => memoMatters_of_showsMemo shows

end DScope
