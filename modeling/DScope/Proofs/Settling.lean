import DScope.Proofs.Limit
import DScope.Proofs.Simulation

namespace DScope

/-!
# Queries that settle

A query that has returned once settles: it returns the same under every higher
limit. Many queries leave the state as they found it, and a query made of such
parts can be read like a function of the program: it yields a value. A query that
asks no question at all reads its value whatever the answers are.
-/

open List Query

variable {program : Program} {evaluator : Evaluator} {state : State} {α β : Type} {query : Query α}
  {result value : α} {question : Question} {next : α → Query β} {id : NodeId}

namespace Engine

variable {final : State} {within : Nat → Question → Prop} {standing : Standing}
  {asks : Question → Prop}

theorem Settles.ofRun {limit : Nat} (orderly : Orderly program within standing asks query)
    (returned : run program evaluator limit query state = .ok (result, final)) :
    Settles program evaluator query state result final := by
  refine ⟨limit, fun higher isHigher => ?_⟩
  have finished : run program evaluator limit query state ≠ .error .depthExceeded := by
    rw [returned]
    exact nofun
  rw [run_eq_of_le orderly evaluator isHigher finished, returned]

theorem Settles.run_eq_or (orderly : Orderly program within standing asks query)
    (settles : Settles program evaluator query state result final) (limit : Nat) :
    run program evaluator limit query state = .ok (result, final) ∨
      run program evaluator limit query state = .error .depthExceeded := by
  by_cases exceeds : run program evaluator limit query state = .error .depthExceeded
  · exact .inr exceeds
  · obtain ⟨bound, returns⟩ := settles
    left
    rw [← run_eq_of_le orderly evaluator (Nat.le_max_left limit bound) exceeds]
    exact returns _ (Nat.le_max_right limit bound)

end Engine

theorem Operation.exists_final {operation : Operation α} (limit : Nat) (test : α → Bool)
    (determines : ∀ {found}, test found = true → found = result)
    (passes :
      (Engine.run program evaluator limit operation.query state).toOption.any (test ·.1) = true) :
    ∃ final, Engine.Settles program evaluator operation.query state result final := by
  obtain ⟨⟨found, final⟩, returned, passes⟩ := exists_of_any passes
  cases determines passes
  exact ⟨final, .ofRun (operation.query_orderly program) returned⟩

/-- The query gives the value whatever the answers are, and leaves the state as it is. -/
def Query.Reads (program : Program) (state : State) (query : Query α) (value : α) : Prop :=
  ∀ environment, environment.program = program → query environment state = .ok (value, state)

namespace Query.Reads

theorem pure (value : α) : Reads program state (Pure.pure value) value :=
  fun _ _ => rfl

theorem bind {result : β} (firstly : Reads program state query value)
    (secondly : Reads program state (next value) result) :
    Reads program state (query >>= next) result := by
  intro environment isProgram
  rw [bind_apply, firstly environment isProgram]
  exact secondly environment isProgram

theorem wholeProgram : Reads program state Query.program program := by
  rintro environment rfl
  rfl

theorem tree : Reads program state tree program.tree := by
  rintro environment rfl
  rfl

theorem get : Reads program state (MonadState.get : Query State) state :=
  fun _ _ => rfl

theorem isCancelled : Reads program state isCancelled state.isCancelled :=
  fun _ _ => rfl

theorem options : Reads program state options state.options :=
  fun _ _ => rfl

theorem scope : Reads program state scope state.stack.top.scope :=
  fun _ _ => rfl

theorem node {entry : Node} (isEntry : program.tree.node? id = some entry) :
    Reads program state (node id) entry := by
  rintro environment rfl
  exact node_eq_ok.mpr ⟨isEntry, rfl⟩

end Query.Reads

namespace Engine

variable {frame : Frame} {body : Query α} {give : α → Query (List β)} {item : α}

/-- The query settles on a value and leaves the state as it is. -/
def Yields (program : Program) (evaluator : Evaluator) (state : State) (query : Query α)
    (value : α) : Prop :=
  Settles program evaluator query state value state

/--
Whether a query returns, or ends early, in the same way under every limit from
some bound on, and leaves the state as it is.
-/
def ComesTo (program : Program) (evaluator : Evaluator) (state : State) (query : Query α)
    (outcome : Except Halt α) : Prop :=
  ∃ bound, ∀ limit, bound ≤ limit →
    run program evaluator limit query state = outcome.map (·, state)

namespace ComesTo

variable {outcome : Except Halt α}

theorem ofYields (yields : Yields program evaluator state query value) :
    ComesTo program evaluator state query (.ok value) :=
  yields

theorem halt (reason : Halt) :
    ComesTo program evaluator state (throw reason : Query α) (.error reason) :=
  ⟨0, fun _ _ => rfl⟩

theorem bind {outcome : Except Halt β}
    (firstly : ComesTo program evaluator state query (.ok value))
    (secondly : ComesTo program evaluator state (next value) outcome) :
    ComesTo program evaluator state (query >>= next) outcome :=
  EndsIn.bind firstly secondly

theorem bind_halt {reason : Halt}
    (firstly : ComesTo program evaluator state query (.error reason)) :
    ComesTo program evaluator state (query >>= next) (.error reason) := by
  obtain ⟨bound, returns⟩ := firstly
  refine ⟨bound, fun limit isHigh => ?_⟩
  have queryReturns := returns limit isHigh
  rw [run_apply] at queryReturns
  rw [run_apply, bind_apply, queryReturns]
  rfl

theorem ask {outcome : Except Halt question.Answer}
    (responds : ComesTo program evaluator state (respond question) outcome) :
    ComesTo program evaluator state (ask question) outcome :=
  EndsIn.ask responds

theorem withFrame (isRunning : state.isCancelled = false)
    (inner : ComesTo program evaluator (state.push frame) body outcome) :
    ComesTo program evaluator state (withFrame frame body) (outcome.map some) := by
  have closes := EndsIn.withFrame isRunning inner
  cases outcome with
  | error reason => exact closes
  | ok value =>
    simp only [Except.map, State.truncate, State.push, Stack.truncate_push] at closes
    exact closes

theorem visiting {body : Nat → Query α} (isPositive : state.guard.IsPositive)
    (inner :
      ComesTo program evaluator { state with guard := state.guard.enter id }
        (body ((state.guard.enter id).depth id)) outcome) :
    ComesTo program evaluator state (visiting id body) outcome := by
  have leaves := EndsIn.visiting inner
  cases outcome with
  | error reason => exact leaves
  | ok value =>
    simp only [Except.map, Guard.leave_enter isPositive] at leaves
    exact leaves

theorem eq_of_settles {final : State} (comes : ComesTo program evaluator state query outcome)
    (settles : Settles program evaluator query state result final) : outcome = .ok result := by
  obtain ⟨bound, returns⟩ := comes
  obtain ⟨otherBound, otherReturns⟩ := settles
  have isSame := returns (max bound otherBound) (Nat.le_max_left _ _)
  rw [otherReturns (max bound otherBound) (Nat.le_max_right _ _)] at isSame
  cases outcome <;> cases isSame
  rfl

end ComesTo

theorem Settles.ofReads (reads : Reads program state query value) :
    Settles program evaluator query state value state :=
  ⟨0, fun _ _ => reads _ rfl⟩

theorem Settles.pure (value : α) : Settles program evaluator (Pure.pure value) state value state :=
  ofReads (.pure value)

theorem Settles.withFrame (isRunning : state.isCancelled = false)
    (inner : Settles program evaluator body (state.push frame) value final) :
    Settles program evaluator (withFrame frame body) state (some value)
      (final.truncate state.stack.depth) :=
  EndsIn.withFrame isRunning inner

theorem Settles.visiting {body : Nat → Query α}
    (inner :
      Settles program evaluator (body ((state.guard.enter id).depth id))
        { state with guard := state.guard.enter id } value final) :
    Settles program evaluator (visiting id body) state value
      { final with guard := final.guard.leave id } :=
  EndsIn.visiting inner

namespace Yields

variable {items : List α} {step : α → Query β}

theorem ofReads (reads : Reads program state query value) :
    Yields program evaluator state query value :=
  Settles.ofReads reads

theorem pure (value : α) : Yields program evaluator state (Pure.pure value) value :=
  Settles.pure value

theorem bind {result : β} (firstly : Yields program evaluator state query value)
    (secondly : Yields program evaluator state (next value) result) :
    Yields program evaluator state (query >>= next) result :=
  Settles.bind firstly secondly

theorem ask {value : question.Answer}
    (responds : Yields program evaluator state (respond question) value) :
    Yields program evaluator state (ask question) value :=
  Settles.ask responds

theorem withFrame (isRunning : state.isCancelled = false)
    (yields : Yields program evaluator (state.push frame) body value) :
    Yields program evaluator state (withFrame frame body) (some value) :=
  ComesTo.withFrame isRunning (.ofYields yields)

theorem whileResolving (isNew : ¬state.guard.isResolving id)
    (yields : Yields program evaluator { state with guard := state.guard.mark id } body value) :
    Yields program evaluator state (whileResolving id body) (some value) := by
  obtain ⟨bound, returns⟩ := yields
  refine ⟨bound, fun limit isHigh => ?_⟩
  have bodyReturns := returns limit isHigh
  rw [run_apply] at bodyReturns
  rw [run_apply, whileResolving_apply, bodyReturns, if_neg isNew]
  simp [Guard.unmark_mark isNew]

theorem whileResolving_of_isResolving (isMarked : state.guard.isResolving id = true) :
    Yields program evaluator state (Query.whileResolving id body) none := by
  refine ⟨0, fun limit _ => ?_⟩
  rw [run_apply, Query.whileResolving_apply, if_pos isMarked]

theorem visiting {body : Nat → Query α} (isPositive : state.guard.IsPositive)
    (yields :
      Yields program evaluator { state with guard := state.guard.enter id }
        (body ((state.guard.enter id).depth id)) value) :
    Yields program evaluator state (visiting id body) value :=
  ComesTo.visiting isPositive (.ofYields yields)

theorem collect {gives : α → List β} (isRunning : state.isCancelled = false)
    (yields : ∀ item ∈ items, Yields program evaluator state (give item) (gives item)) :
    Yields program evaluator state (collect give items) (items.flatMap gives) := by
  have extending :
      ∀ found,
        Yields program evaluator state (collectFrom give found items)
          (found ++ items.flatMap gives) := by
    induction items with
    | nil =>
      intro found
      rw [flatMap_nil, append_nil]
      exact .pure found
    | cons item rest ih =>
      intro found
      apply bind (ofReads .isCancelled)
      rw [isRunning]
      apply bind (yields item mem_cons_self)
      rw [flatMap_cons, ← append_assoc]
      apply ih
      intro later isLater
      exact yields later (mem_cons_of_mem item isLater)
  exact extending []

theorem mapM {gives : α → β}
    (yields : ∀ item ∈ items, Yields program evaluator state (step item) (gives item)) :
    Yields program evaluator state (items.mapM step) (items.map gives) := by
  induction items with
  | nil => exact .pure []
  | cons item rest ih =>
    rw [mapM_cons]
    apply bind (yields item mem_cons_self)
    refine bind (ih ?_) (.pure _)
    intro later isLater
    exact yields later (mem_cons_of_mem item isLater)

theorem mapM_singleton {value : β} (yields : Yields program evaluator state (step item) value) :
    Yields program evaluator state ([item].mapM step) [value] := by
  rw [mapM_cons]
  exact bind yields (bind (pure []) (pure [value]))

theorem filterM {test : α → Query Bool}
    (yields : ∀ item ∈ items, Yields program evaluator state (test item) true) :
    Yields program evaluator state (items.filterM test) items := by
  -- The items kept so far are held in reverse.
  have keeping :
      ∀ kept,
        Yields program evaluator state (items.filterAuxM test kept) (items.reverse ++ kept) := by
    induction items with
    | nil => exact fun kept => .pure kept
    | cons item rest ih =>
      intro kept
      apply bind (yields item mem_cons_self)
      rw [reverse_cons, append_assoc]
      apply ih
      intro later isLater
      exact yields later (mem_cons_of_mem item isLater)
  apply bind (keeping [])
  rw [append_nil, reverse_reverse]
  exact .pure items

end Yields

/-- What a single item gives is all that is collected. -/
theorem Settles.collect_singleton {given : List β} (isRunning : state.isCancelled = false)
    (settles : Settles program evaluator (give item) state given final) :
    Settles program evaluator (Query.collect give [item]) state given final := by
  apply Settles.bind (.ofReads .isCancelled)
  rw [isRunning]
  exact settles.bind (.pure given)

/-- The query runs into the limit. -/
def Exceeds (program : Program) (evaluator : Evaluator) (limit : Nat) (state : State)
    (query : Query α) : Prop :=
  run program evaluator limit query state = .error .depthExceeded

namespace Exceeds

variable {limit : Nat}

theorem ask_zero (question : Question) : Exceeds program evaluator 0 state (ask question) :=
  rfl

theorem ask_succ (exceeds : Exceeds program evaluator limit state (respond question)) :
    Exceeds program evaluator (limit + 1) state (ask question) :=
  exceeds

theorem bind (exceeds : Exceeds program evaluator limit state query) :
    Exceeds program evaluator limit state (query >>= next) := by
  unfold Exceeds at exceeds ⊢
  rw [run_apply] at exceeds
  rw [run_apply, bind_apply, exceeds]

theorem bind_ofReads (reads : Reads program state query value)
    (exceeds : Exceeds program evaluator limit state (next value)) :
    Exceeds program evaluator limit state (query >>= next) := by
  unfold Exceeds at exceeds ⊢
  rw [run_apply, bind_apply, reads _ rfl]
  exact exceeds

theorem withFrame (isRunning : state.isCancelled = false)
    (exceeds : Exceeds program evaluator limit (state.push frame) body) :
    Exceeds program evaluator limit state (withFrame frame body) := by
  unfold Exceeds at exceeds ⊢
  rw [run_apply] at exceeds
  rw [run_apply, withFrame_apply, exceeds, isRunning]
  rfl

theorem visiting {body : Nat → Query α}
    (exceeds :
      Exceeds program evaluator limit { state with guard := state.guard.enter id }
        (body ((state.guard.enter id).depth id))) :
    Exceeds program evaluator limit state (visiting id body) := by
  unfold Exceeds at exceeds ⊢
  rw [run_apply] at exceeds
  rw [run_apply, visiting_apply, exceeds]

theorem collect {items : List α} (isRunning : state.isCancelled = false)
    (settled :
      ∀ item ∈ items,
        Exceeds program evaluator limit state (give item) ∨
          ∃ given, run program evaluator limit (give item) state = .ok (given, state))
    (isMember : item ∈ items) (exceeds : Exceeds program evaluator limit state (give item)) :
    Exceeds program evaluator limit state (collect give items) := by
  have extending :
      ∀ found, Exceeds program evaluator limit state (collectFrom give found items) := by
    induction items with
    | nil => cases isMember
    | cons first rest ih =>
      intro found
      apply bind_ofReads .isCancelled
      rw [isRunning]
      rcases settled first mem_cons_self with firstExceeds | ⟨given, returns⟩
      · exact bind firstExceeds
      · have isLater : item ∈ rest := by
          rcases mem_cons.mp isMember with rfl | isLater
          · rw [Exceeds, returns] at exceeds
            cases exceeds
          · exact isLater
        unfold Exceeds
        rw [run_apply] at returns
        simp only [Bool.false_eq_true, if_false]
        rw [run_apply, bind_apply, returns]
        exact ih (forall_mem_cons.mp settled).2 isLater _
  exact extending []

end Exceeds

end Engine

end DScope
