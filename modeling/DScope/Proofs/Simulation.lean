import DScope.Proofs.Operation

namespace DScope

/-!
# Simulations between runs

A relation between states that every move keeps relates whole runs: what a query
returns from one state it also returns from the other one, under every limit
that is high enough. A run that gets cancelled on the way is left out.
-/

open Query Engine

variable {evaluator following leading : Evaluator} {state later final : State} {program : Program}
  {Related : Standing → State → State → Prop} {standing : Standing} {α : Type}

/-- The state with frames, guard and default options as they were in an earlier one. -/
def State.returnedTo (state earlier : State) : State :=
  { state with stack := earlier.stack, guard := earlier.guard, defaults := earlier.defaults }

namespace State.Balances

variable {node : NodeId}

theorem eq_returnedTo (balances : Balances evaluator state later) :
    later = later.returnedTo state := by
  rw [State.returnedTo, ← balances.stack, ← balances.guard, ← balances.defaults]

theorem truncate_eq {frame : Frame} (inner : Balances evaluator (state.push frame) later) :
    later.truncate state.stack.depth = later.returnedTo state :=
  inner.closing.eq_returnedTo

theorem unmark_eq (isNew : ¬state.guard.isResolving node)
    (inner : Balances evaluator { state with guard := state.guard.mark node } later) :
    { later with guard := later.guard.unmark node } = later.returnedTo state :=
  (inner.unmarking isNew).eq_returnedTo

theorem leave_eq (isPositive : state.guard.IsPositive)
    (inner : Balances evaluator { state with guard := state.guard.enter node } later) :
    { later with guard := later.guard.leave node } = later.returnedTo state :=
  (inner.leaving isPositive).eq_returnedTo

end State.Balances

/-- Whether a run of a query ends in the given way under every limit from some bound on. -/
def Engine.EndsIn {α : Type} (program : Program) (evaluator : Evaluator) (query : Query α)
    (state : State) (outcome : Except Halt (α × State)) : Prop :=
  ∃ bound, ∀ limit, bound ≤ limit → run program evaluator limit query state = outcome

/-- Whether a query returns a result and a state under every limit from some bound on. -/
def Engine.Settles {α : Type} (program : Program) (evaluator : Evaluator) (query : Query α)
    (state : State) (result : α) (final : State) : Prop :=
  ∃ bound, ∀ limit, bound ≤ limit → run program evaluator limit query state = .ok (result, final)

/--
Whether a run of a query under one evaluator is followed under another one from
related states.

Where the first run returns without being cancelled, the second one returns the
same result in a related state.
-/
def Follows {α : Type} (program : Program) (leading following : Evaluator) (limit : Nat)
    (Related : State → State → Prop) (query : Query α) : Prop :=
  ∀ ⦃first second⦄, Related first second →
    ∀ ⦃result final⦄, Engine.run program leading limit query first = .ok (result, final) →
    final.isCancelled = true ∨
      ∃ other,
        Related final other ∧ Engine.Settles program following query second result other

/-- A relation between states, for each standing of a query, that every move keeps. -/
structure Simulation (program : Program) (leading following : Evaluator)
    (Related : Standing → State → State → Prop) : Prop where
  view {standing first second} :
    Related standing first second → first.view = second.view
  isRunning {standing first second} :
    Related standing first second → first.isCancelled = false
  isPositive {standing first second} :
    Related standing first second → first.guard.IsPositive
  reported {standing first second} (diagnostic : Diagnostic) :
    Related standing first second →
      Related standing (first.report diagnostic) (second.report diagnostic)
  opened {standing first second frame} :
    Frame.OpensFrom program.tree standing frame → Related standing first second →
      Related standing.opened (first.push frame) (second.push frame)
  overridden {standing first second} (overrides : Overrides) :
    Related standing first second →
      Related standing.underOverrides
        (first.push (first.overridden overrides)) (second.push (second.overridden overrides))
  marked {standing first second node} :
    ¬first.guard.isResolving node → Related standing first second →
      Related .inside { first with guard := first.guard.mark node }
        { second with guard := second.guard.mark node }
  entered {standing first second} (node : NodeId) :
    Related standing first second →
      Related .inside { first with guard := first.guard.enter node }
        { second with guard := second.guard.enter node }
  evaluated {standing first second} :
    Related standing first second →
      (Query.evaluationStart leading first).isCancelled = true ∨
        Related standing (Query.evaluationStart leading first)
          (Query.evaluationStart following second)
  returned {outer inner first second firstLater secondLater} :
    Related outer first second → Related inner firstLater secondLater →
      Related outer (firstLater.returnedTo first) (secondLater.returnedTo second)
  isAbsent : leading = .absent ↔ following = .absent
  remembered {standing limit name} :
    standing ≠ .overridden →
      Follows program leading following limit (Related standing) (Resolution.searchName name) →
      Follows program leading following limit (Related standing) (Resolution.ofName name)

namespace Simulation

variable {first second : State}

section

variable (simulation : Simulation program leading following Related)
  (related : Related standing first second)
include simulation related

theorem secondIsRunning : second.isCancelled = false := by
  have sameView := congrArg View.isCancelled (simulation.view related)
  exact sameView.symm.trans (simulation.isRunning related)

theorem sameGuard : second.guard = first.guard :=
  (congrArg View.guard (simulation.view related)).symm

theorem secondIsPositive : second.guard.IsPositive :=
  simulation.sameGuard related ▸ simulation.isPositive related

end

end Simulation

theorem Engine.run_apply (program : Program) (evaluator : Evaluator) (limit : Nat)
    (query : Query α) (state : State) :
    run program evaluator limit query state =
      query { program, evaluator, answer := answer program evaluator limit } state :=
  rfl

namespace Engine.EndsIn

variable {β : Type} {query : Query α} {outcome : Except Halt (α × State)}

/-- A query goes on in the state that the one before it has left. -/
theorem bind {next : α → Query β} {value : α} {outcome : Except Halt (β × State)}
    (firstly : EndsIn program evaluator query state (.ok (value, later)))
    (secondly : EndsIn program evaluator (next value) later outcome) :
    EndsIn program evaluator (query >>= next) state outcome := by
  obtain ⟨firstBound, isFirst⟩ := firstly
  obtain ⟨secondBound, isSecond⟩ := secondly
  refine ⟨max firstBound secondBound, fun limit isHigh => ?_⟩
  have firstReturns := isFirst limit (Nat.le_trans (Nat.le_max_left _ _) isHigh)
  have secondReturns := isSecond limit (Nat.le_trans (Nat.le_max_right _ _) isHigh)
  rw [run_apply] at firstReturns
  rw [run_apply, bind_apply, firstReturns]
  exact secondReturns

/-- A question is answered as its rule responds, one level deeper. -/
theorem ask {question : Question} {outcome : Except Halt (question.Answer × State)}
    (responds : EndsIn program evaluator (respond question) state outcome) :
    EndsIn program evaluator (ask question) state outcome := by
  obtain ⟨bound, returns⟩ := responds
  refine ⟨bound + 1, fun limit isHigh => ?_⟩
  obtain ⟨lower, rfl⟩ : ∃ lower, limit = lower + 1 := ⟨limit - 1, by omega⟩
  exact returns lower (by omega)

/-- A frame is closed again when its body ends. -/
theorem withFrame {frame : Frame} (isRunning : state.isCancelled = false)
    (inner : EndsIn program evaluator query (state.push frame) outcome) :
    EndsIn program evaluator (withFrame frame query) state
      (outcome.map fun ended => (some ended.1, ended.2.truncate state.stack.depth)) := by
  obtain ⟨bound, returns⟩ := inner
  refine ⟨bound, fun limit isHigh => ?_⟩
  have bodyReturns := returns limit isHigh
  rw [run_apply] at bodyReturns
  rw [run_apply, withFrame_apply, bodyReturns, isRunning]
  cases outcome <;> rfl

/-- A declaration is left again when its body ends. -/
theorem visiting {node : NodeId} {body : Nat → Query α}
    (inner :
      EndsIn program evaluator (body ((state.guard.enter node).depth node))
        { state with guard := state.guard.enter node } outcome) :
    EndsIn program evaluator (visiting node body) state
      (outcome.map fun ended =>
        (ended.1, { ended.2 with guard := ended.2.guard.leave node })) := by
  obtain ⟨bound, returns⟩ := inner
  refine ⟨bound, fun limit isHigh => ?_⟩
  have bodyReturns := returns limit isHigh
  rw [run_apply] at bodyReturns
  rw [run_apply, visiting_apply, bodyReturns]
  cases outcome <;> rfl

end Engine.EndsIn

namespace Engine.Settles

variable {β : Type} {query : Query α}

theorem bind {next : α → Query β} {value : α} {result : β}
    (firstly : Settles program evaluator query state value later)
    (secondly : Settles program evaluator (next value) later result final) :
    Settles program evaluator (query >>= next) state result final :=
  EndsIn.bind firstly secondly

theorem ask {question : Question} {value : question.Answer}
    (responds : Settles program evaluator (respond question) state value final) :
    Settles program evaluator (ask question) state value final :=
  EndsIn.ask responds

theorem returns {result : α} (settles : Settles program evaluator query state result final) :
    ∃ limit, run program evaluator limit query state = .ok (result, final) := by
  obtain ⟨bound, returns⟩ := settles
  exact ⟨bound, returns bound (Nat.le_refl bound)⟩

theorem unique {result other : α} {otherFinal : State}
    (settles : Settles program evaluator query state result final)
    (otherwise : Settles program evaluator query state other otherFinal) : result = other := by
  obtain ⟨firstBound, isFirst⟩ := settles
  obtain ⟨secondBound, isSecond⟩ := otherwise
  have firstReturns := isFirst (max firstBound secondBound) (Nat.le_max_left _ _)
  have secondReturns := isSecond (max firstBound secondBound) (Nat.le_max_right _ _)
  rw [firstReturns] at secondReturns
  cases secondReturns
  rfl

end Engine.Settles

namespace Resolution

variable {name : String}

theorem search_of_ofName {limit : Nat} {result : List Symbol}
    (isNew : state.remembered? name = none)
    (returned : run program evaluator limit (ofName name) state = .ok (result, final)) :
    ∃ found later,
      run program evaluator limit (searchName name) state = .ok (found, later) ∧
        (later.isCancelled = true ∧ result = [] ∧ final = later ∨
          later.isCancelled = false ∧ result = found ∧ final = concluded later name found) := by
  rw [run_apply, ofName_apply, isNew] at returned
  dsimp only at returned
  split at returned
  · cases returned
  next found later isSearch =>
    refine ⟨found, later, isSearch, ?_⟩
    split at returned
    next isCancelled =>
      cases returned
      exact .inl ⟨isCancelled, rfl, rfl⟩
    next isRunning =>
      cases returned
      exact .inr ⟨Bool.eq_false_iff.mpr isRunning, rfl, rfl⟩

theorem settles_ofName {found : List Symbol} (isNew : state.remembered? name = none)
    (settles : Settles program evaluator (searchName name) state found later)
    (isRunning : later.isCancelled = false) :
    Settles program evaluator (ofName name) state found (concluded later name found) := by
  obtain ⟨bound, returns⟩ := settles
  refine ⟨bound, fun limit isHigh => ?_⟩
  have searchReturns := returns limit isHigh
  rw [run_apply] at searchReturns
  rw [run_apply, ofName_apply, isNew]
  rw [searchReturns]
  simp only [isRunning, Bool.false_eq_true, if_false]

theorem run_remembered
    {symbols : List Symbol} (isRemembered : state.remembered? name = some symbols) (limit : Nat) :
    run program evaluator limit (ofName name) state = .ok (symbols, state) := by
  rw [run_apply, ofName_apply, isRemembered]

end Resolution

namespace Simulation

variable {first second : State} {within : Nat → Question → Prop} {asks : Question → Prop}
  {limit : Nat} {query : Query α} {node : NodeId}

variable (simulation : Simulation program leading following Related)
include simulation

theorem follows_withFrame {inner : Standing} {body : Query α}
    (orderly : Orderly program within inner asks body)
    (follows : Follows program leading following limit (Related inner) body)
    (related : Related standing first second) {firstFrame secondFrame : Frame}
    (opened : Related inner (first.push firstFrame) (second.push secondFrame)) {result : Option α}
    (returned :
      run program leading limit (withFrame firstFrame body) first = .ok (result, final)) :
    final.isCancelled = true ∨
      ∃ other,
        Related standing final other ∧
          Settles program following (withFrame secondFrame body) second result other := by
  rw [run_apply, withFrame_apply, simulation.isRunning related] at returned
  simp only [Bool.false_eq_true, if_false] at returned
  split at returned
  next value later isInner =>
    cases returned
    have balances := orderly.run_isBalanced leading limit (simulation.isPositive opened) isInner
    rcases follows opened isInner with isCancelled | ⟨other, relatedLater, bound, returns⟩
    · exact .inl isCancelled
    · have otherBalances :=
        orderly.run_isBalanced following bound (simulation.secondIsPositive opened)
          (returns bound (Nat.le_refl bound))
      refine .inr ⟨other.truncate second.stack.depth, ?_, bound, fun limit isHigh => ?_⟩
      · rw [balances.truncate_eq, otherBalances.truncate_eq]
        exact simulation.returned related relatedLater
      · have innerReturns := returns limit isHigh
        rw [run_apply] at innerReturns
        rw [run_apply, withFrame_apply, simulation.secondIsRunning related, innerReturns]
        rfl
  next => cases returned

theorem follows_bind
    {β : Type} {next : α → Query β} (before : Orderly program within standing asks query)
    (after :
      ∀ value, query.MayReturn program value → Orderly program within standing asks (next value))
    (beforeFollows : Follows program leading following limit (Related standing) query)
    (afterFollows :
      ∀ value, query.MayReturn program value →
        Follows program leading following limit (Related standing) (next value)) :
    Follows program leading following limit (Related standing) (query >>= next) := by
  intro first second related result final returned
  rw [run_apply, bind_apply] at returned
  split at returned
  next value later isFirst =>
    have mayReturn : query.MayReturn program value := ⟨_, first, later, rfl, isFirst⟩
    have isPositive := simulation.isPositive related
    have beforeBalances := before.run_isBalanced leading limit isPositive isFirst
    have isPositiveLater : later.guard.IsPositive := beforeBalances.guard ▸ isPositive
    have afterBalances :=
      (after value mayReturn).run_isBalanced leading limit isPositiveLater returned
    rcases beforeFollows related isFirst with isCancelled | ⟨other, relatedLater, firstly⟩
    · exact .inl (afterBalances.isCancelled isCancelled)
    · rcases afterFollows value mayReturn relatedLater returned with
        isCancelled | ⟨otherFinal, relatedFinal, secondly⟩
      · exact .inl isCancelled
      · exact .inr ⟨otherFinal, relatedFinal, firstly.bind secondly⟩
  next => cases returned

theorem follows_whileResolving
    {body : Query α} (inner : Orderly program within .inside asks body)
    (follows : Follows program leading following limit (Related .inside) body) :
    Follows program leading following limit (Related standing) (whileResolving node body) := by
  intro first second related result final returned
  have sameGuard := simulation.sameGuard related
  rw [run_apply, whileResolving_apply] at returned
  split at returned
  next isMarked =>
    cases returned
    refine .inr ⟨second, related, 0, fun limit _ => ?_⟩
    rw [run_apply, whileResolving_apply, sameGuard, if_pos isMarked]
  next isNew =>
    split at returned
    next value later isInner =>
      cases returned
      have marked := simulation.marked isNew related
      have balances := inner.run_isBalanced leading limit (simulation.isPositive marked) isInner
      rcases follows marked isInner with isCancelled | ⟨other, relatedLater, bound, returns⟩
      · exact .inl isCancelled
      · have otherBalances :=
          inner.run_isBalanced following bound (simulation.secondIsPositive marked)
            (returns bound (Nat.le_refl bound))
        have isNewSecond : ¬second.guard.isResolving node := sameGuard ▸ isNew
        refine .inr ⟨{ other with guard := other.guard.unmark node }, ?_, bound,
          fun limit isHigh => ?_⟩
        · rw [balances.unmark_eq isNew, otherBalances.unmark_eq isNewSecond]
          exact simulation.returned related relatedLater
        · have innerReturns := returns limit isHigh
          rw [run_apply] at innerReturns
          rw [run_apply, whileResolving_apply, if_neg isNewSecond, innerReturns]
    next => cases returned

theorem follows_visiting
    {body : Nat → Query α}
    (inner : ∀ depth, Orderly program within .inside (within depth) (body depth))
    (follows : ∀ depth, Follows program leading following limit (Related .inside) (body depth)) :
    Follows program leading following limit (Related standing) (visiting node body) := by
  intro first second related result final returned
  have sameGuard := simulation.sameGuard related
  rw [run_apply, visiting_apply] at returned
  split at returned
  next value later isInner =>
    cases returned
    have entered := simulation.entered node related
    have balances := (inner _).run_isBalanced leading limit (simulation.isPositive entered) isInner
    rcases follows _ entered isInner with isCancelled | ⟨other, relatedLater, bound, returns⟩
    · exact .inl isCancelled
    · have otherBalances :=
        (inner _).run_isBalanced following bound (simulation.secondIsPositive entered)
          (returns bound (Nat.le_refl bound))
      refine .inr ⟨{ other with guard := other.guard.leave node }, ?_, bound,
        fun limit isHigh => ?_⟩
      · rw [balances.leave_eq (simulation.isPositive related),
          otherBalances.leave_eq (simulation.secondIsPositive related)]
        exact simulation.returned related relatedLater
      · have innerReturns := returns limit isHigh
        rw [← sameGuard, run_apply] at innerReturns
        rw [run_apply, visiting_apply, innerReturns]
  next => cases returned

theorem follows_throughEvaluator
    {fallback : α} {evaluation : Query α}
    (inner : Orderly program within standing asks evaluation)
    (follows : Follows program leading following limit (Related standing) evaluation) :
    Follows program leading following limit (Related standing)
      (throughEvaluator fallback evaluation) := by
  intro first second related result final returned
  rw [run_apply, throughEvaluator_apply] at returned
  split at returned
  next isAbsent =>
    cases returned
    refine .inr ⟨second, related, 0, fun limit _ => ?_⟩
    rw [run_apply, throughEvaluator_apply, if_pos (simulation.isAbsent.mp isAbsent)]
  next isPresent =>
    have isPositiveStart : (evaluationStart leading first).guard.IsPositive :=
      (State.Balances.evaluationStart leading first).guard ▸ simulation.isPositive related
    rcases simulation.evaluated related with isCancelled | started
    · have balances := inner.run_isBalanced leading limit isPositiveStart returned
      exact .inl (balances.isCancelled isCancelled)
    · rcases follows started returned with isCancelled | ⟨other, relatedFinal, bound, returns⟩
      · exact .inl isCancelled
      · refine .inr ⟨other, relatedFinal, bound, fun limit isHigh => ?_⟩
        rw [run_apply, throughEvaluator_apply,
          if_neg (fun isAbsent => isPresent (simulation.isAbsent.mpr isAbsent))]
        exact returns limit isHigh

/-- An orderly query follows where the answers to its questions do. -/
theorem follows_of_answers
    (orderly : Orderly program within standing asks query) (limit : Nat)
    (answers :
      ∀ standing question, Standing.permits standing question →
        Follows program leading following limit (Related standing) (ask question)) :
    Follows program leading following limit (Related standing) query := by
  induction orderly with
  | pure value =>
    rintro first second related result final ⟨⟩
    exact .inr ⟨second, related, 0, fun _ _ => rfl⟩
  | bindReturned before after beforeHypothesis afterHypothesis =>
    exact simulation.follows_bind before after beforeHypothesis afterHypothesis
  | halt isOwn =>
    rintro first second related result final ⟨⟩
  | reading after ih =>
    exact ih
  | asking isListed isPermitted =>
    exact answers _ _ isPermitted
  | @seeing α standing asks next seesView after ih =>
    intro first second related result final returned
    have sameNext : next first = next second := seesView first second (simulation.view related)
    rcases ih first related returned with
      isCancelled | ⟨other, relatedFinal, settles⟩
    · exact .inl isCancelled
    · rw [sameNext] at settles
      exact .inr ⟨other, relatedFinal, settles⟩
  | reporting diagnostic _ =>
    rintro first second related result final ⟨⟩
    exact .inr ⟨_, simulation.reported diagnostic related, 0, fun _ _ => rfl⟩
  | framed opens inner ih =>
    intro first second related result final returned
    exact simulation.follows_withFrame inner ih related (simulation.opened opens related) returned
  | @overriding α standing asks overrides body inner ih =>
    intro first second related result final returned
    rw [run_apply] at returned
    rcases simulation.follows_withFrame inner ih related
      (simulation.overridden overrides related) returned with
      isCancelled | ⟨other, relatedFinal, bound, returns⟩
    · exact .inl isCancelled
    · refine .inr ⟨other, relatedFinal, bound, fun limit isHigh => ?_⟩
      rw [run_apply]
      exact returns limit isHigh
  | resolving inner ih =>
    exact simulation.follows_whileResolving inner ih
  | visiting isDeclared inner ih =>
    exact simulation.follows_visiting inner ih
  | evaluating inner ih =>
    exact simulation.follows_throughEvaluator inner ih
  | remembering isPlain inner ih =>
    exact simulation.remembered isPlain ih

theorem follows_ask
    (limit : Nat) (standing : Standing) (question : Question)
    (isPermitted : standing.permits question) :
    Follows program leading following limit (Related standing) (ask question) := by
  induction limit generalizing standing question with
  | zero =>
    rintro first second related result final ⟨⟩
  | succ limit ih =>
    intro first second related result final returned
    have orderly := respond_orderly_of_permits program isPermitted
    have follows := simulation.follows_of_answers orderly limit ih
    rcases follows related returned with isCancelled | ⟨other, relatedFinal, bound, returns⟩
    · exact .inl isCancelled
    · refine .inr ⟨other, relatedFinal, bound + 1, fun higher isHigh => ?_⟩
      obtain ⟨rest, rfl⟩ := Nat.exists_eq_add_of_le isHigh
      rw [Nat.add_right_comm]
      exact returns (bound + rest) (Nat.le_add_right bound rest)

theorem follows (orderly : Orderly program within standing asks query) (limit : Nat) :
    Follows program leading following limit (Related standing) query :=
  simulation.follows_of_answers orderly limit (simulation.follows_ask limit)

end Simulation

end DScope
