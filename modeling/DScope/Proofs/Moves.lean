import DScope.Engine

namespace DScope

/-!
# What the moves of a query do

Each move of a query as a function of the environment and of the state in which
it is made.
-/

variable {environment : Environment}

namespace Table

variable {κ ν : Type} [DecidableEq κ] {key : κ} {table : List (κ × ν)} {value : ν}

theorem find?_put : find? key (put key value table) = some value := by
  induction table with
  | nil =>
    simp [put, find?]
  | cons entry rest ih =>
    obtain ⟨other, old⟩ := entry
    by_cases same : other = key
    · simp [put, find?, same]
    · simp [put, find?, same, ih]

theorem find?_put_of_ne {other : κ} (different : other ≠ key) :
    find? key (put other value table) = find? key table := by
  induction table with
  | nil =>
    simp [put, find?, different]
  | cons entry rest ih =>
    obtain ⟨first, old⟩ := entry
    by_cases isFirst : first = other
    · simp [put, find?, isFirst, different]
    · simp [put, find?, isFirst, ih]

theorem put_put {first : ν} : put key value (put key first table) = put key value table := by
  induction table with
  | nil =>
    simp [put]
  | cons entry rest ih =>
    obtain ⟨other, old⟩ := entry
    by_cases same : other = key
    · simp [put, same]
    · simp [put, same, ih]

theorem put_of_find? (found : find? key table = some value) : put key value table = table := by
  induction table with
  | nil =>
    cases found
  | cons entry rest ih =>
    obtain ⟨other, old⟩ := entry
    by_cases same : other = key
    · simp_all [put, find?]
    · simp_all [put, find?]

theorem erase_put (isNew : find? key table = none) : erase key (put key value table) = table := by
  induction table with
  | nil =>
    simp [put, erase]
  | cons entry rest ih =>
    obtain ⟨other, old⟩ := entry
    by_cases same : other = key
    · simp_all [find?]
    · simp_all [put, erase, find?]

theorem mem_of_find? (found : find? key table = some value) : (key, value) ∈ table := by
  induction table with
  | nil =>
    cases found
  | cons entry rest ih =>
    obtain ⟨other, old⟩ := entry
    by_cases same : other = key
    · simp_all [find?]
    · simp_all [find?]

theorem mem_put {entry : κ × ν} (member : entry ∈ put key value table) :
    entry = (key, value) ∨ entry ∈ table := by
  induction table with
  | nil =>
    simpa [put] using member
  | cons first rest ih =>
    obtain ⟨other, old⟩ := first
    by_cases same : other = key
    · simp only [put, same, if_true, List.mem_cons] at member
      rcases member with isNew | inRest
      · exact .inl isNew
      · exact .inr (List.mem_cons_of_mem _ inRest)
    · simp only [put, same, if_false, List.mem_cons] at member
      rcases member with isFirst | inRest
      · exact .inr (by simp [isFirst])
      · rcases ih inRest with isNew | wasThere
        · exact .inl isNew
        · exact .inr (List.mem_cons_of_mem _ wasThere)

end Table

namespace Overrides

theorem apply_empty (options : Options) : apply {} options = options := by
  simp [apply, Options.union, Options.difference, Options.zip]

theorem apply_followedBy (overrides inner : Overrides) (defaults : Options) :
    (overrides.followedBy inner).apply defaults = inner.apply (overrides.apply defaults) := by
  have switch :
      ∀ value enabled disabled innerEnabled innerDisabled : Bool,
        ((value || ((enabled && !innerDisabled) || innerEnabled)) &&
            !((disabled && !innerEnabled) || innerDisabled)) =
          ((((value || enabled) && !disabled) || innerEnabled) && !innerDisabled) := by
    decide
  simp only [apply, followedBy, Options.union, Options.difference, Options.zip, switch]

end Overrides

namespace Query

variable {α β : Type} {state : State}

theorem pure_apply (value : α) : (pure value : Query α) environment state = .ok (value, state) :=
  rfl

theorem get_apply : (get : Query State) environment state = .ok (state, state) :=
  rfl

theorem modify_apply (change : State → State) :
    (modify change : Query PUnit) environment state = .ok ((), change state) :=
  rfl

theorem read_apply : (read : Query Environment) environment state = .ok (environment, state) :=
  rfl

theorem bind_apply (first : Query α) (next : α → Query β) :
    (first >>= next) environment state =
      match first environment state with
      | .ok (value, later) => next value environment later
      | .error reason => .error reason := by
  change Except.bind (first environment state) _ = _
  cases first environment state with
  | ok outcome => rfl
  | error reason => rfl

theorem bind_eq_ok {first : Query α} {next : α → Query β} {outcome : β × State} :
    (first >>= next) environment state = .ok outcome ↔
      ∃ value later,
        first environment state = .ok (value, later) ∧
          next value environment later = .ok outcome := by
  rw [bind_apply]
  constructor
  · intro returned
    split at returned
    next value later isFirst => exact ⟨value, later, isFirst, returned⟩
    next => cases returned
  · rintro ⟨value, later, isFirst, isSecond⟩
    rw [isFirst]
    exact isSecond

theorem node_eq_ok {id : NodeId} {entry : Node} {later : State} :
    Query.node id environment state = .ok (entry, later) ↔
      environment.program.tree.node? id = some entry ∧ later = state := by
  have treeReturns : Query.tree environment state = .ok (environment.program.tree, state) := rfl
  unfold Query.node
  rw [bind_apply, treeReturns]
  dsimp only
  cases environment.program.tree.node? id with
  | none => exact ⟨nofun, nofun⟩
  | some found =>
    constructor
    · rintro ⟨⟩
      exact ⟨rfl, rfl⟩
    · rintro ⟨⟨⟩, rfl⟩
      rfl

theorem statement_eq_ok {id : StatementId} {entry : Statement} {later : State} :
    Query.statement id environment state = .ok (entry, later) ↔
      environment.program.tree.statement? id = some entry ∧ later = state := by
  have treeReturns : Query.tree environment state = .ok (environment.program.tree, state) := rfl
  unfold Query.statement
  rw [bind_apply, treeReturns]
  dsimp only
  cases environment.program.tree.statement? id with
  | none => exact ⟨nofun, nofun⟩
  | some found =>
    constructor
    · rintro ⟨⟩
      exact ⟨rfl, rfl⟩
    · rintro ⟨⟨⟩, rfl⟩
      rfl

theorem isCancelled_apply : Query.isCancelled environment state = .ok (state.isCancelled, state) :=
  rfl

theorem collect_singleton_eq_ok {give : α → Query (List β)} {item : α} {outcome : List β × State}
    (isRunning : state.isCancelled = false) :
    collect give [item] environment state = .ok outcome ↔
      give item environment state = .ok outcome := by
  unfold collect collectFrom
  rw [bind_apply, isCancelled_apply]
  simp only [isRunning]
  constructor
  · intro returned
    obtain ⟨more, later, isGiven, ⟨⟩⟩ := bind_eq_ok.mp returned
    exact isGiven
  · intro isGiven
    exact bind_eq_ok.mpr ⟨outcome.1, outcome.2, isGiven, rfl⟩

theorem withFrame_apply (frame : Frame) (body : Query α) :
    withFrame frame body environment state =
      if state.isCancelled then
        .ok (none, state)
      else
        match body environment (state.push frame) with
        | .ok (value, later) => .ok (some value, later.truncate state.stack.depth)
        | .error reason => .error reason := by
  simp only [withFrame, bind_apply, isCancelled_apply]
  split
  · rfl
  · simp only [bind_apply, get_apply, modify_apply, pure_apply]

theorem withOverrides_apply (overrides : Overrides) (body : Query α) :
    withOverrides overrides body environment state =
      withFrame (state.overridden overrides) body environment state := by
  simp only [withOverrides, bind_apply, get_apply]

theorem whileResolving_apply (node : NodeId) (body : Query α) :
    whileResolving node body environment state =
      if state.guard.isResolving node then
        .ok (none, state)
      else
        match body environment { state with guard := state.guard.mark node } with
        | .ok (value, later) =>
          .ok (some value, { later with guard := later.guard.unmark node })
        | .error reason => .error reason := by
  simp only [whileResolving, bind_apply, get_apply]
  split
  · rfl
  · simp only [bind_apply, modify_apply, pure_apply]

theorem visiting_apply (node : NodeId) (body : Nat → Query α) :
    visiting node body environment state =
      match body ((state.guard.enter node).depth node) environment
          { state with guard := state.guard.enter node } with
      | .ok (value, later) => .ok (value, { later with guard := later.guard.leave node })
      | .error reason => .error reason := by
  simp only [visiting, bind_apply, get_apply, modify_apply, pure_apply]

/-- The state in which an evaluation starts. -/
def evaluationStart : Evaluator → State → State
  | .absent, state | .standard, state => state
  | .cancelling number, state =>
    { state with
      evaluations := state.evaluations + 1
      isCancelled := state.isCancelled || state.evaluations + 1 == number }

theorem throughEvaluator_apply (fallback : α) (evaluation : Query α) :
    throughEvaluator fallback evaluation environment state =
      if environment.evaluator = .absent then
        .ok (fallback, state)
      else
        evaluation environment (evaluationStart environment.evaluator state) := by
  simp only [throughEvaluator, bind_apply, read_apply]
  cases environment.evaluator with
  | standard => rfl
  | absent => rfl
  | cancelling number =>
    rfl

/-- The state after the report that nothing was found. -/
def reportedMissing (state : State) (subject : String) : State :=
  if state.guard.isIdle && !state.isCancelled then
    state.report (.nothingFound subject none none)
  else
    state

theorem reportMissing_apply (subject : String) :
    reportMissing subject environment state = .ok ((), reportedMissing state subject) := by
  simp only [reportMissing, reportsFailures, bind_apply, get_apply, pure_apply, reportedMissing]
  split <;> rfl

/-- The state after a search for a name that was not cancelled. -/
def concluded (state : State) (name : String) (found : List Symbol) : State :=
  (if found.isEmpty then reportedMissing state name else state).remember name found

theorem isCancelled_concluded (state : State) (name : String) (found : List Symbol) :
    (concluded state name found).isCancelled = state.isCancelled := by
  have remembering :
      ∀ reported : State, (reported.remember name found).isCancelled = reported.isCancelled := by
    intro reported
    unfold State.remember
    split <;> rfl
  unfold concluded reportedMissing
  rw [remembering]
  split
  · split <;> rfl
  · rfl

theorem memoized_apply (name : String) (search : Query (List Symbol)) :
    memoized name search environment state =
      match state.remembered? name with
      | some symbols => .ok (symbols, state)
      | none =>
        match search environment state with
        | .error reason => .error reason
        | .ok (found, later) =>
          if later.isCancelled then
            .ok ([], later)
          else
            .ok (found, concluded later name found) := by
  simp only [memoized, bind_apply, get_apply]
  cases state.remembered? name with
  | some symbols => rfl
  | none =>
    simp only [bind_apply, isCancelled_apply]
    cases search environment state with
    | error reason => rfl
    | ok outcome =>
      obtain ⟨found, later⟩ := outcome
      simp only
      split
      · rfl
      · unfold concluded
        cases found.isEmpty with
        | false => rfl
        | true => simp only [if_true, bind_apply, reportMissing_apply, modify_apply, pure_apply]

end Query

theorem Resolution.ofName_apply {state : State} (name : String) :
    ofName name environment state =
      match state.remembered? name with
      | some symbols => .ok (symbols, state)
      | none =>
        match searchName name environment state with
        | .error reason => .error reason
        | .ok (found, later) =>
          if later.isCancelled then
            .ok ([], later)
          else
            .ok (found, Query.concluded later name found) :=
  Query.memoized_apply name (searchName name)

end DScope
