import DScope.Proofs.Moves
import DScope.Proofs.Orderly.Engine

namespace DScope

/-!
# Balance of the query state

Every move of a query undoes what it did to the frames and to the guard. A query
that returns has therefore left the frames, the guard and the default options as
it found them, and has only added to the log. Evaluations are only ever counted
up, and a query is cancelled exactly when the count passes the chosen number.
-/

open State

variable {node : NodeId} {evaluator : Evaluator}

namespace Guard

/-- Whether every declaration that is counted has been entered. -/
def IsPositive (guard : Guard) : Prop :=
  ∀ entry ∈ guard.counts, 0 < entry.2

variable {guard : Guard}

theorem depth_enter_self : (guard.enter node).depth node = guard.depth node + 1 := by
  simp only [depth, enter, Table.find?_put, Option.getD_some]

theorem depth_enter_of_ne {other : NodeId} (different : node ≠ other) :
    (guard.enter node).depth other = guard.depth other := by
  simp only [depth, enter, Table.find?_put_of_ne different]

theorem IsPositive.enter (isPositive : guard.IsPositive) (node : NodeId) :
    (guard.enter node).IsPositive := by
  intro entry member
  rcases Table.mem_put member with isNew | wasThere
  · rw [isNew]
    exact Nat.succ_pos _
  · exact isPositive entry wasThere

theorem IsPositive.mark (isPositive : guard.IsPositive) (node : NodeId) :
    (guard.mark node).IsPositive := by
  unfold Guard.mark
  split
  · exact isPositive
  · exact isPositive

theorem leave_enter (isPositive : guard.IsPositive) (node : NodeId) :
    (guard.enter node).leave node = guard := by
  unfold Guard.enter leave
  simp only [Table.find?_put]
  cases found : Table.find? node guard.counts with
  | none =>
    have isZero : guard.depth node = 0 := by simp [depth, found]
    simp [isZero, Table.erase_put found]
  | some count =>
    have isCount : guard.depth node = count := by simp [depth, found]
    have entered : 0 < count := isPositive _ (Table.mem_of_find? found)
    have isDeep : ¬count + 1 ≤ 1 := by omega
    simp [isCount, isDeep, Table.put_put, Table.put_of_find? found]

theorem unmark_mark (isNew : ¬guard.isResolving node) : (guard.mark node).unmark node = guard := by
  simp [Guard.mark, unmark, isNew]

end Guard

theorem Stack.truncate_push (stack : Stack) (frame : Frame) :
    (stack.push frame).truncate stack.depth = stack := by
  simp [Stack.truncate, Stack.push, Stack.depth, Stack.frames]

/-- Whether an evaluator cancels the query while the count of evaluations grows. -/
def Evaluator.CancelsBetween (evaluator : Evaluator) (before after : Nat) : Prop :=
  match evaluator with
  | .cancelling number => before < number ∧ number ≤ after
  | _ => False

namespace Evaluator

variable {first second third : Nat}

theorem not_cancelsBetween_self : ¬evaluator.CancelsBetween first first := by
  cases evaluator <;> simp [CancelsBetween]

theorem cancelsBetween_trans (before : first ≤ second) (after : second ≤ third) :
    evaluator.CancelsBetween first third ↔
      evaluator.CancelsBetween first second ∨ evaluator.CancelsBetween second third := by
  cases evaluator with
  | standard => simp [CancelsBetween]
  | absent => simp [CancelsBetween]
  | cancelling number =>
    simp only [CancelsBetween]
    omega

end Evaluator

/-- Whether one state may be left by a query that started in the other. -/
structure State.Balances (evaluator : Evaluator) (before after : State) : Prop where
  stack : after.stack = before.stack
  guard : after.guard = before.guard
  defaults : after.defaults = before.defaults
  log : before.log <+: after.log
  evaluations : before.evaluations ≤ after.evaluations
  cancellation :
    after.isCancelled = true ↔
      before.isCancelled = true ∨
        evaluator.CancelsBetween before.evaluations after.evaluations

namespace State.Balances

variable {state first second third later : State}

theorem refl (evaluator : Evaluator) (state : State) : Balances evaluator state state where
  stack := rfl
  guard := rfl
  defaults := rfl
  log := List.prefix_rfl
  evaluations := Nat.le_refl _
  cancellation := by simp [Evaluator.not_cancelsBetween_self]

theorem trans (before : Balances evaluator first second) (after : Balances evaluator second third) :
    Balances evaluator first third where
  stack := after.stack.trans before.stack
  guard := after.guard.trans before.guard
  defaults := after.defaults.trans before.defaults
  log := before.log.trans after.log
  evaluations := Nat.le_trans before.evaluations after.evaluations
  cancellation := by
    rw [after.cancellation, before.cancellation,
      Evaluator.cancelsBetween_trans before.evaluations after.evaluations, or_assoc]

theorem isCancelled
    (balances : Balances evaluator first second) (wasCancelled : first.isCancelled = true) :
    second.isCancelled = true :=
  balances.cancellation.mpr (.inl wasCancelled)

theorem report (evaluator : Evaluator) (state : State) (diagnostic : Diagnostic) :
    Balances evaluator state (state.report diagnostic) where
  stack := rfl
  guard := rfl
  defaults := rfl
  log := List.prefix_append _ _
  evaluations := Nat.le_refl _
  cancellation := by simp [State.report, Evaluator.not_cancelsBetween_self]

theorem reportedMissing (evaluator : Evaluator) (state : State) (subject : String) :
    Balances evaluator state (Query.reportedMissing state subject) := by
  unfold Query.reportedMissing
  split
  · exact report evaluator state _
  · exact refl evaluator state

theorem remember (evaluator : Evaluator) (state : State) (name : String) (symbols : List Symbol) :
    Balances evaluator state (state.remember name symbols) := by
  unfold State.remember
  split
  · exact ⟨rfl, rfl, rfl, List.prefix_rfl, Nat.le_refl _,
      by simp [Evaluator.not_cancelsBetween_self]⟩
  · exact refl evaluator state

theorem concluded (evaluator : Evaluator) (state : State) (name : String) (found : List Symbol) :
    Balances evaluator state (Query.concluded state name found) := by
  unfold Query.concluded
  split
  · exact (reportedMissing evaluator state name).trans (remember evaluator _ name found)
  · exact remember evaluator state name found

theorem evaluationStart (evaluator : Evaluator) (state : State) :
    Balances evaluator state (Query.evaluationStart evaluator state) := by
  cases evaluator with
  | standard => exact refl _ state
  | absent => exact refl _ state
  | cancelling number =>
    refine ⟨rfl, rfl, rfl, List.prefix_rfl, Nat.le_succ _, ?_⟩
    have isNext :
        state.evaluations + 1 = number ↔
          state.evaluations < number ∧ number ≤ state.evaluations + 1 := by
      omega
    simp only [Query.evaluationStart, Evaluator.CancelsBetween, Bool.or_eq_true, beq_iff_eq, isNext]

theorem closing {frame : Frame} (inner : Balances evaluator (state.push frame) later) :
    Balances evaluator state (later.truncate state.stack.depth) where
  stack := by
    change later.stack.truncate state.stack.depth = state.stack
    rw [inner.stack]
    exact Stack.truncate_push state.stack frame
  guard := inner.guard
  defaults := inner.defaults
  log := inner.log
  evaluations := inner.evaluations
  cancellation := inner.cancellation

theorem restoring {guard restored : Guard} (inner : Balances evaluator { state with guard } later)
    (isRestored : restored = state.guard) :
    Balances evaluator state { later with guard := restored } :=
  ⟨inner.stack, isRestored, inner.defaults, inner.log, inner.evaluations, inner.cancellation⟩

theorem unmarking (isNew : ¬state.guard.isResolving node)
    (inner : Balances evaluator { state with guard := state.guard.mark node } later) :
    Balances evaluator state { later with guard := later.guard.unmark node } := by
  apply inner.restoring
  rw [inner.guard]
  exact Guard.unmark_mark isNew

theorem leaving (isPositive : state.guard.IsPositive)
    (inner : Balances evaluator { state with guard := state.guard.enter node } later) :
    Balances evaluator state { later with guard := later.guard.leave node } := by
  apply inner.restoring
  rw [inner.guard]
  exact Guard.leave_enter isPositive node

end State.Balances

/-- Whether a computation is balanced wherever it returns. -/
def Attempt.IsBalanced {α : Type} (evaluator : Evaluator) (attempt : Attempt α) : Prop :=
  ∀ ⦃state result final⦄,
    state.guard.IsPositive → attempt state = .ok (result, final) →
      state.Balances evaluator final

variable {program : Program} {within : Nat → Question → Prop} {standing : Standing}
  {asks : Question → Prop} {α : Type} {query : Query α}

/-- A relation between the states before and after a query that holds across every move. -/
structure State.IsKept (blames : Prop) (evaluator : Evaluator)
    (Related : State → State → Prop) : Prop where
  refl (state : State) : Related state state
  trans {first second third : State} :
    Related first second → Related second third → Related first third
  report (state : State) (diagnostic : Diagnostic) :
    (diagnostic.isDeduction = true → blames) → Related state (state.report diagnostic)
  evaluationStart (state : State) : Related state (Query.evaluationStart evaluator state)
  concluded (state : State) (name : String) (found : List Symbol) :
    Related state (Query.concluded state name found)
  closing {state later : State} {frame : Frame} :
    Related (state.push frame) later → Related state (later.truncate state.stack.depth)
  unmarking {state later : State} {node : NodeId} :
    ¬state.guard.isResolving node →
      Related { state with guard := state.guard.mark node } later →
      Related state { later with guard := later.guard.unmark node }
  leaving {state later : State} {node : NodeId} :
    Related { state with guard := state.guard.enter node } later →
      Related state { later with guard := later.guard.leave node }

/-- Whether the states before and after a computation are related wherever it returns. -/
def Attempt.Keeps {α : Type} (Related : State → State → Prop) (attempt : Attempt α) : Prop :=
  ∀ ⦃state result final⦄, attempt state = .ok (result, final) → Related state final

section Kept

variable {Related : State → State → Prop} {blames : Prop}

theorem Attempt.Keeps.withFrame {environment : Environment} {frame : Frame}
    (kept : IsKept blames environment.evaluator Related)
    (keeps : Attempt.Keeps Related (query environment)) :
    Attempt.Keeps Related (Query.withFrame frame query environment) := by
  intro state result final returned
  rw [Query.withFrame_apply] at returned
  split at returned
  · cases returned
    exact kept.refl state
  · split at returned
    next isInner =>
      cases returned
      exact kept.closing (keeps isInner)
    next => cases returned

/-- Orderly queries keep what all moves keep where the answers to their questions do. -/
theorem Moves.keeps
    (moves : Moves program within blames standing asks query) (environment : Environment)
    (isProgram : environment.program = program)
    (kept : IsKept blames environment.evaluator Related)
    (answers : ∀ question, Attempt.Keeps Related (environment.answer question)) :
    Attempt.Keeps Related (query environment) := by
  induction moves with
  | pure value =>
    rintro state result final ⟨⟩
    exact kept.refl state
  | bindReturned before after beforeHypothesis afterHypothesis =>
    intro state result final returned
    obtain ⟨value, later, isFirst, isSecond⟩ := Query.bind_eq_ok.mp returned
    exact kept.trans (beforeHypothesis isFirst)
      (afterHypothesis value ⟨environment, state, later, isProgram, isFirst⟩ isSecond)
  | halt isOwn =>
    rintro state result final ⟨⟩
  | reading after ih =>
    subst isProgram
    exact fun _ _ _ returned => ih returned
  | asking isListed isPermitted =>
    exact answers _
  | seeing seesView after ih =>
    exact fun state _ _ returned => ih state returned
  | reporting diagnostic isOwn =>
    rintro state result final ⟨⟩
    exact kept.report state diagnostic isOwn
  | framed opens inner ih =>
    exact ih.withFrame kept
  | overriding inner ih =>
    intro state result final returned
    exact ih.withFrame kept returned
  | resolving inner ih =>
    intro state result final returned
    rw [Query.whileResolving_apply] at returned
    split at returned
    · cases returned
      exact kept.refl state
    next isNew =>
      split at returned
      next isInner =>
        cases returned
        exact kept.unmarking isNew (ih isInner)
      next => cases returned
  | visiting isDeclared inner ih =>
    intro state result final returned
    rw [Query.visiting_apply] at returned
    split at returned
    next isInner =>
      cases returned
      exact kept.leaving (ih _ isInner)
    next => cases returned
  | evaluating inner ih =>
    intro state result final returned
    rw [Query.throughEvaluator_apply] at returned
    split at returned
    · cases returned
      exact kept.refl state
    · exact kept.trans (kept.evaluationStart state) (ih returned)
  | @remembering standing asks name isPlain inner ih =>
    intro state result final returned
    rw [Resolution.ofName_apply] at returned
    split at returned
    · cases returned
      exact kept.refl state
    · split at returned
      · cases returned
      next found later isSearch =>
        split at returned
        · cases returned
          exact ih isSearch
        · cases returned
          exact kept.trans (ih isSearch) (kept.concluded later name _)

theorem Engine.answer_keeps (program : Program) (kept : IsKept True evaluator Related)
    (limit : Nat) (question : Question) :
    Attempt.Keeps Related (answer program evaluator limit question) := by
  have isPlain : Standing.plain ≠ .overridden := by decide
  induction limit generalizing question with
  | zero =>
    rintro state result final ⟨⟩
  | succ limit ih =>
    have orderly :=
      respond_orderly_of_permits program (Standing.permits_of_ne_overridden isPlain question)
    exact orderly.keeps { program, evaluator, answer := answer program evaluator limit } rfl kept ih

end Kept

/--
Balance is kept by every move that undoes itself. Leaving a declaration erases a count
of one, which undoes entering it only if no count was zero before.
-/
theorem State.Balances.isKept (evaluator : Evaluator) :
    IsKept True evaluator fun before after =>
      before.guard.IsPositive → before.Balances evaluator after where
  refl state _ := .refl _ state
  trans firstly secondly isPositive :=
    (firstly isPositive).trans (secondly ((firstly isPositive).guard ▸ isPositive))
  report state diagnostic _ _ := .report _ state diagnostic
  evaluationStart state _ := .evaluationStart _ state
  concluded state name found _ := .concluded _ state name found
  closing inner isPositive := (inner isPositive).closing
  unmarking isNew inner isPositive := (inner (isPositive.mark _)).unmarking isNew
  leaving inner isPositive := (inner (isPositive.enter _)).leaving isPositive

/-- Orderly queries are balanced where the answers to their questions are. -/
theorem Moves.isBalanced
    (orderly : Orderly program within standing asks query) (environment : Environment)
    (isProgram : environment.program = program)
    (answers : ∀ question, Attempt.IsBalanced environment.evaluator (environment.answer question)) :
    Attempt.IsBalanced environment.evaluator (query environment) := by
  have keeps := orderly.keeps environment isProgram (Balances.isKept _)
    fun question _ _ _ returned isPositive => answers question isPositive returned
  exact fun _ _ _ isPositive returned => keeps returned isPositive

theorem Engine.answer_isBalanced
    (program : Program) (evaluator : Evaluator) (limit : Nat) (question : Question) :
    Attempt.IsBalanced evaluator (answer program evaluator limit question) :=
  fun _ _ _ isPositive returned =>
    answer_keeps program (Balances.isKept evaluator) limit question returned isPositive

/-- Whether a computation stays cancelled wherever it returns. -/
def Attempt.StaysCancelled {α : Type} (attempt : Attempt α) : Prop :=
  ∀ ⦃state result final⦄,
    attempt state = .ok (result, final) → state.isCancelled = true → final.isCancelled = true

/-- In contrast to balance, cancellation stays whatever the guard has counted. -/
theorem State.isKept_isCancelled (evaluator : Evaluator) :
    IsKept True evaluator fun before after =>
      before.isCancelled = true → after.isCancelled = true where
  refl _ := id
  trans firstly secondly isCancelled := secondly (firstly isCancelled)
  report _ _ _ := id
  evaluationStart state := (Balances.evaluationStart evaluator state).isCancelled
  concluded state name found := (Balances.concluded evaluator state name found).isCancelled
  closing inner := inner
  unmarking _ inner := inner
  leaving inner := inner

theorem Orderly.staysCancelled
    (orderly : Orderly program within standing asks query) (environment : Environment)
    (isProgram : environment.program = program)
    (answers : ∀ question, Attempt.StaysCancelled (environment.answer question)) :
    Attempt.StaysCancelled (query environment) :=
  orderly.keeps environment isProgram (isKept_isCancelled _) answers

theorem Engine.answer_staysCancelled
    (program : Program) (evaluator : Evaluator) (limit : Nat) (question : Question) :
    Attempt.StaysCancelled (answer program evaluator limit question) :=
  answer_keeps program (isKept_isCancelled evaluator) limit question

/-- The standard evaluator never cancels a query. -/
theorem State.isKept_isCancelled_standard :
    IsKept True .standard fun before after => after.isCancelled = before.isCancelled where
  refl _ := rfl
  trans firstly secondly := secondly.trans firstly
  report _ _ _ := rfl
  evaluationStart _ := rfl
  concluded := Query.isCancelled_concluded
  closing inner := inner
  unmarking _ inner := inner
  leaving inner := inner

theorem Orderly.isCancelled_of_run {limit : Nat} {state final : State} {result : α}
    (orderly : Orderly program within standing asks query)
    (returned : Engine.run program .standard limit query state = .ok (result, final)) :
    final.isCancelled = state.isCancelled :=
  orderly.keeps ⟨program, .standard, Engine.answer program .standard limit⟩ rfl
    isKept_isCancelled_standard
    (Engine.answer_keeps program isKept_isCancelled_standard limit) returned

theorem Moves.run_isBalanced
    (orderly : Orderly program within standing asks query) (evaluator : Evaluator) (limit : Nat) :
    Attempt.IsBalanced evaluator (Engine.run program evaluator limit query) :=
  orderly.isBalanced { program, evaluator, answer := Engine.answer program evaluator limit } rfl
    (Engine.answer_isBalanced program evaluator limit)

end DScope
