import DScope.Proofs.Convention

namespace DScope

/-!
# What the lower frames are worth

Bindings are searched for in all frames, and the key of a memo entry depends on
whether some frame has slots. Below frames without slots nothing can be found,
so two runs that start with the same top frame go on in step: they find the same
symbols, remember the same entries and report the same problems, whatever the
frames below the top are.
-/

open Query Engine

variable {firstLog secondLog : List Diagnostic} {first second : State}

/-- Whether two attempts return one value in related states, or end early for one reason. -/
inductive SameOutcome {α : Type} (Related : State → State → Prop) :
    Except Halt (α × State) → Except Halt (α × State) → Prop
  | returned (value : α) {first second : State} (related : Related first second) :
      SameOutcome Related (.ok (value, first)) (.ok (value, second))
  | halted (reason : Halt) : SameOutcome Related (.error reason) (.error reason)

theorem SameOutcome.returned_or_halted {α : Type} {Related : State → State → Prop}
    {firstOutcome secondOutcome : Except Halt (α × State)}
    (same : SameOutcome Related firstOutcome secondOutcome) :
    (∃ value first second,
        firstOutcome = .ok (value, first) ∧ secondOutcome = .ok (value, second) ∧
          Related first second) ∨
      ∃ reason, firstOutcome = .error reason ∧ secondOutcome = .error reason := by
  cases same with
  | returned value related => exact .inl ⟨value, _, _, rfl, rfl, related⟩
  | halted reason => exact .inr ⟨reason, rfl, rfl⟩

/--
The relation between two runs that go on in step.

The states look alike, hold the same memo, and have logged the same since the
logs were as given.
-/
structure Abreast (firstLog secondLog : List Diagnostic) (first second : State) : Prop where
  alike : first.Alike second
  hasBindings : first.stack.hasBindings = second.stack.hasBindings
  memo : first.memo = second.memo
  log : ∃ more, first.log = firstLog ++ more ∧ second.log = secondLog ++ more

namespace Abreast

variable {firstLater secondLater : State}

variable (abreast : Abreast firstLog secondLog first second)
include abreast

theorem memoKey?_eq (name : String) : first.memoKey? name = second.memoKey? name := by
  have sameScope : first.stack.top.scope = second.stack.top.scope :=
    congrArg Prod.fst abreast.alike.places.place_top
  simp only [State.memoKey?, abreast.alike.guard, abreast.hasBindings, abreast.alike.statement,
    abreast.alike.options, sameScope]

theorem remembered?_eq (name : String) : first.remembered? name = second.remembered? name := by
  rw [State.remembered?, State.remembered?, abreast.memoKey?_eq, abreast.memo]

theorem report (diagnostic : Diagnostic) :
    Abreast firstLog secondLog (first.report diagnostic) (second.report diagnostic) where
  alike :=
    abreast.alike.replace rfl rfl rfl abreast.alike.isRunning rfl rfl rfl
      abreast.alike.secondIsRunning
  hasBindings := abreast.hasBindings
  memo := abreast.memo
  log := by
    obtain ⟨more, isFirst, isSecond⟩ := abreast.log
    refine ⟨more ++ [diagnostic], ?_, ?_⟩
    · rw [State.report, isFirst, List.append_assoc]
    · rw [State.report, isSecond, List.append_assoc]

theorem remember (name : String) (found : List Symbol) :
    Abreast firstLog secondLog (first.remember name found) (second.remember name found) := by
  unfold State.remember
  rw [← abreast.memoKey?_eq]
  cases first.memoKey? name with
  | none =>
    exact abreast
  | some key =>
    exact ⟨abreast.alike.replace rfl rfl rfl abreast.alike.isRunning rfl rfl rfl
        abreast.alike.secondIsRunning, abreast.hasBindings,
      congrArg (Table.put key found) abreast.memo, abreast.log⟩

theorem concluded (name : String) (found : List Symbol) :
    Abreast firstLog secondLog (Query.concluded first name found)
      (Query.concluded second name found) := by
  have reported :
      Abreast firstLog secondLog (Query.reportedMissing first name)
        (Query.reportedMissing second name) := by
    unfold Query.reportedMissing
    rw [← abreast.alike.guard, abreast.alike.isRunning, abreast.alike.secondIsRunning]
    split
    · exact abreast.report _
    · exact abreast
  unfold Query.concluded
  split
  · exact reported.remember name found
  · exact abreast.remember name found

theorem push (frame : Frame) :
    Abreast firstLog secondLog (first.push frame) (second.push frame) where
  alike := abreast.alike.push frame
  hasBindings := congrArg (!frame.bindings.isEmpty || ·) abreast.hasBindings
  memo := abreast.memo
  log := abreast.log

theorem override (overrides : Overrides) :
    Abreast firstLog secondLog (first.push (first.overridden overrides))
      (second.push (second.overridden overrides)) where
  alike := abreast.alike.override overrides
  hasBindings := congrArg (!Bindings.none.isEmpty || ·) abreast.hasBindings
  memo := abreast.memo
  log := abreast.log

theorem changeGuard (change : Guard → Guard) (isPositive : (change first.guard).IsPositive) :
    Abreast firstLog secondLog { first with guard := change first.guard }
      { second with guard := change second.guard } where
  alike := abreast.alike.changeGuard change isPositive
  hasBindings := abreast.hasBindings
  memo := abreast.memo
  log := abreast.log

theorem returnedTo (later : Abreast firstLog secondLog firstLater secondLater) :
    Abreast firstLog secondLog (firstLater.returnedTo first) (secondLater.returnedTo second) where
  alike :=
    abreast.alike.replace rfl rfl rfl later.alike.isRunning rfl rfl rfl later.alike.secondIsRunning
  hasBindings := abreast.hasBindings
  memo := later.memo
  log := later.log

end Abreast

/-- The surroundings of a run whose questions may be nested as deeply as the limit allows. -/
abbrev Engine.surroundings (program : Program) (limit : Nat) : Environment :=
  { program, evaluator := .standard, answer := answer program .standard limit }

/-- Whether a computation goes on in step from states that are abreast. -/
def Attempt.StaysAbreast {α : Type} (firstLog secondLog : List Diagnostic)
    (attempt : Attempt α) : Prop :=
  ∀ ⦃first second⦄, Abreast firstLog secondLog first second →
    SameOutcome (Abreast firstLog secondLog) (attempt first) (attempt second)

section

variable {program : Program} {within : Nat → Question → Prop} {standing : Standing}
  {asks : Question → Prop} {α : Type} {limit : Nat}

theorem Moves.abreast_withFrame
    {body : Query α} (inner : Orderly program within standing asks body)
    (staysAbreast : Attempt.StaysAbreast firstLog secondLog (body (surroundings program limit)))
    (abreast : Abreast firstLog secondLog first second) {firstFrame secondFrame : Frame}
    (opened : Abreast firstLog secondLog (first.push firstFrame) (second.push secondFrame)) :
    SameOutcome (Abreast firstLog secondLog)
      (withFrame firstFrame body (surroundings program limit) first)
      (withFrame secondFrame body (surroundings program limit) second) := by
  have balanced := inner.run_isBalanced .standard limit
  rw [withFrame_apply, withFrame_apply, abreast.alike.isRunning, abreast.alike.secondIsRunning]
  rcases (staysAbreast opened).returned_or_halted with
    ⟨value, firstLater, secondLater, isFirst, isSecond, later⟩ | ⟨reason, isFirst, isSecond⟩
  · have firstBalances := balanced opened.alike.isPositive isFirst
    have secondBalances := balanced opened.alike.symm.isPositive isSecond
    rw [isFirst, isSecond]
    dsimp only
    rw [firstBalances.truncate_eq, secondBalances.truncate_eq]
    exact .returned (some value) (abreast.returnedTo later)
  · rw [isFirst, isSecond]
    exact .halted reason

/-- Orderly queries go on in step where the answers to their questions do. -/
theorem Orderly.staysAbreast
    {query : Query α} (orderly : Orderly program within standing asks query)
    (answers :
      ∀ question,
        Attempt.StaysAbreast firstLog secondLog (answer program .standard limit question)) :
    Attempt.StaysAbreast firstLog secondLog (query (surroundings program limit)) := by
  -- States that are abreast look alike, so every move is made from both or from neither; the
  -- moves that change frames or guard are undone in both by balance.
  induction orderly with
  | pure value =>
    exact fun _ _ abreast => .returned value abreast
  | bindReturned before after beforeHypothesis afterHypothesis =>
    intro first second abreast
    rw [bind_apply, bind_apply]
    rcases (beforeHypothesis abreast).returned_or_halted with
      ⟨value, firstLater, secondLater, isFirst, isSecond, later⟩ | ⟨reason, isFirst, isSecond⟩
    · rw [isFirst, isSecond]
      exact afterHypothesis value ⟨_, first, firstLater, rfl, isFirst⟩ later
    · rw [isFirst, isSecond]
      exact .halted reason
  | halt isOwn =>
    exact fun _ _ _ => .halted _
  | reading after ih =>
    exact ih
  | asking isListed isPermitted =>
    exact answers _
  | @seeing α standing asks next seesView after ih =>
    intro first second abreast
    have sameNext : next first = next second := seesView first second abreast.alike.view
    have sameOutcome := ih first abreast
    change SameOutcome _ (next first (surroundings program limit) first)
      (next second (surroundings program limit) second)
    rw [← sameNext]
    exact sameOutcome
  | reporting diagnostic _ =>
    exact fun _ _ abreast => .returned () (abreast.report diagnostic)
  | @framed α standing asks frame body opens inner ih =>
    intro first second abreast
    exact inner.abreast_withFrame ih abreast (abreast.push frame)
  | @overriding α standing asks overrides body inner ih =>
    intro first second abreast
    have sameOutcome := inner.abreast_withFrame ih abreast (abreast.override overrides)
    exact sameOutcome
  | @resolving α standing asks node body inner ih =>
    intro first second abreast
    have balanced := inner.run_isBalanced .standard limit
    rw [whileResolving_apply, whileResolving_apply]
    by_cases isMarked : first.guard.isResolving node = true
    · have isMarkedSecond : second.guard.isResolving node = true := abreast.alike.guard ▸ isMarked
      rw [if_pos isMarked, if_pos isMarkedSecond]
      exact .returned none abreast
    · have isNewSecond : ¬second.guard.isResolving node = true := abreast.alike.guard ▸ isMarked
      have marked := abreast.changeGuard (·.mark node) (abreast.alike.isPositive.mark node)
      rw [if_neg isMarked, if_neg isNewSecond]
      rcases (ih marked).returned_or_halted with
        ⟨value, firstLater, secondLater, isFirst, isSecond, later⟩ | ⟨reason, isFirst, isSecond⟩
      · have firstBalances := balanced marked.alike.isPositive isFirst
        have secondBalances := balanced marked.alike.symm.isPositive isSecond
        rw [isFirst, isSecond]
        dsimp only
        rw [firstBalances.unmark_eq isMarked, secondBalances.unmark_eq isNewSecond]
        exact .returned (some value) (abreast.returnedTo later)
      · rw [isFirst, isSecond]
        exact .halted reason
  | @visiting α standing asks node body isDeclared inner ih =>
    intro first second abreast
    have entered := abreast.changeGuard (·.enter node) (abreast.alike.isPositive.enter node)
    have sameDepth :
        (second.guard.enter node).depth node = (first.guard.enter node).depth node := by
      rw [abreast.alike.guard]
    have balanced := (inner ((first.guard.enter node).depth node)).run_isBalanced .standard limit
    rw [visiting_apply, visiting_apply, sameDepth]
    rcases (ih _ entered).returned_or_halted with
      ⟨value, firstLater, secondLater, isFirst, isSecond, later⟩ | ⟨reason, isFirst, isSecond⟩
    · have firstBalances := balanced entered.alike.isPositive isFirst
      have secondBalances := balanced entered.alike.symm.isPositive isSecond
      rw [isFirst, isSecond]
      dsimp only
      rw [firstBalances.leave_eq abreast.alike.isPositive,
        secondBalances.leave_eq abreast.alike.symm.isPositive]
      exact .returned value (abreast.returnedTo later)
    · rw [isFirst, isSecond]
      exact .halted reason
  | evaluating inner ih =>
    exact ih
  | @remembering standing asks name isPlain inner ih =>
    intro first second abreast
    rw [Resolution.ofName_apply, Resolution.ofName_apply, ← abreast.remembered?_eq]
    cases first.remembered? name with
    | some symbols =>
      exact .returned symbols abreast
    | none =>
      rcases (ih abreast).returned_or_halted with
        ⟨found, firstLater, secondLater, isFirst, isSecond, later⟩ | ⟨reason, isFirst, isSecond⟩
      · rw [isFirst, isSecond]
        simp only [later.alike.isRunning, later.alike.secondIsRunning]
        exact .returned found (later.concluded name found)
      · rw [isFirst, isSecond]
        exact .halted reason

theorem Engine.answer_staysAbreast (program : Program) (limit : Nat) (question : Question) :
    Attempt.StaysAbreast firstLog secondLog (answer program .standard limit question) := by
  have isPlain : Standing.plain ≠ .overridden := by decide
  induction limit generalizing question with
  | zero =>
    exact fun _ _ _ => .halted .depthExceeded
  | succ limit ih =>
    have orderly :=
      respond_orderly_of_permits program (Standing.permits_of_ne_overridden isPlain question)
    exact orderly.staysAbreast ih

end

/-- A running state that remembers nothing, is in the middle of nothing and has no slots. -/
structure State.IsBlank (state : State) : Prop where
  isRunning : state.isCancelled = false
  memo : state.memo = []
  isIdle : state.guard.isIdle = true
  hasNoSlots : ∀ frame ∈ state.stack.frames, frame.bindings.isEmpty = true

theorem State.IsBlank.abreast (isBlank : first.IsBlank) (secondIsBlank : second.IsBlank)
    (sameTop : first.stack.top = second.stack.top)
    (sameDefaults : first.defaults = second.defaults) :
    Abreast first.log second.log first second := by
  have unslotted : ∀ {state : State}, state.IsBlank → state.stack.hasBindings = false := by
    intro state blank
    simp only [Stack.hasBindings, List.any_eq_false, Bool.not_eq_true', Bool.not_eq_false]
    exact blank.hasNoSlots
  have unfilled :
      ∀ {state : State}, state.IsBlank →
        ∀ place ∈ state.stack.below.map Frame.place, place.2.filled = [] := by
    intro state blank place member
    have isPlace : place ∈ state.stack.places := List.mem_cons_of_mem _ member
    rw [Stack.eq_none_of_not_hasBindings (unslotted blank) place isPlace]
    rfl
  have sameGuard : first.guard = second.guard := by
    rw [Guard.eq_of_isIdle isBlank.isIdle, Guard.eq_of_isIdle secondIsBlank.isIdle]
  refine ⟨⟨⟨[first.stack.top.place], first.stack.below.map Frame.place,
      second.stack.below.map Frame.place, List.cons_ne_nil _ _, rfl, ?_, unfilled isBlank,
      unfilled secondIsBlank⟩, ?_, ?_, sameDefaults, sameGuard, isBlank.isRunning,
      secondIsBlank.isRunning, Guard.isPositive_of_isIdle isBlank.isIdle⟩, ?_, ?_, ?_⟩
  · rw [sameTop]
    rfl
  · rw [sameTop]
  · rw [State.options, State.options, sameTop, sameDefaults]
  · rw [unslotted isBlank, unslotted secondIsBlank]
  · rw [isBlank.memo, secondIsBlank.memo]
  · exact ⟨[], (List.append_nil _).symm, (List.append_nil _).symm⟩

/--
Operations depend on the top frame and the default options only.

From two blank states that share them, an operation ends early for the same
reason or not at all, and otherwise returns the same result and adds the same
diagnostics to the log, whatever the frames below the top are.
-/
theorem Operation.results_depend_on_top_frame
    {α : Type}
    (program : Program)
    (limit : Nat)
    (operation : Operation α)
    {first second : State}
    (isBlank : first.IsBlank)
    (secondIsBlank : second.IsBlank)
    (sameTop : first.stack.top = second.stack.top)
    (sameDefaults : first.defaults = second.defaults) :
    (∀ reason,
        Engine.run program .standard limit operation.query first = .error reason ↔
          Engine.run program .standard limit operation.query second = .error reason) ∧
      ∀ result final,
        Engine.run program .standard limit operation.query first = .ok (result, final) →
          ∃ other more,
            Engine.run program .standard limit operation.query second = .ok (result, other) ∧
              final.log = first.log ++ more ∧ other.log = second.log ++ more := by
  have abreast := isBlank.abreast secondIsBlank sameTop sameDefaults
  have orderly := operation.query_orderly program
  have staysAbreast :
      Attempt.StaysAbreast first.log second.log (run program .standard limit operation.query) :=
    orderly.staysAbreast (answer_staysAbreast program limit)
  rcases (staysAbreast abreast).returned_or_halted with
    ⟨value, firstLater, secondLater, isFirst, isSecond, later⟩ | ⟨reason, isFirst, isSecond⟩
  · rw [isFirst, isSecond]
    refine ⟨fun reason => Iff.rfl.trans (by simp only [reduceCtorEq]), ?_⟩
    rintro result final ⟨⟩
    obtain ⟨more, firstLog, secondLog⟩ := later.log
    exact ⟨secondLater, more, rfl, firstLog, secondLog⟩
  · rw [isFirst, isSecond]
    refine ⟨fun _ => Iff.rfl, ?_⟩
    rintro result final ⟨⟩

/-- A state at the module, above a frame at the variable that overrides the options. -/
def Operation.deep : State where
  stack :=
    ⟨{ scope := ⟨0⟩ },
      [{ scope := ⟨1⟩, overrides := { enabled := { skipBaseTypes := true } } }]⟩
  log := [.nothingFound "z" none none]

/-- A symbol and a diagnostic are the same above another frame and in a fresh query. -/
theorem Operation.results_agree_above_frame :
    deep.IsBlank ∧
      (State.start ⟨0⟩ none).IsBlank ∧
      ∃ symbols final other diagnostic,
        symbols ≠ [] ∧
          Engine.run .inferredVariable .standard 9
              (resolveType (.callable (.named "x") [.named "y"] false)).query deep =
              .ok (symbols, final) ∧
            final.log = deep.log ++ [diagnostic] ∧
              Engine.run .inferredVariable .standard 9
                  (resolveType (.callable (.named "x") [.named "y"] false)).query
                  (.start ⟨0⟩ none) =
                  .ok (symbols, other) ∧
                other.log = [diagnostic] := by
  have isBlank : deep.IsBlank := ⟨rfl, rfl, rfl, by decide⟩
  have startIsBlank : (State.start ⟨0⟩ none).IsBlank := ⟨rfl, rfl, rfl, by decide⟩
  have run :
      ((run .inferredVariable .standard 9
            (resolveType (.callable (.named "x") [.named "y"] false)).query deep).toOption.any
        fun outcome => !outcome.1.isEmpty && outcome.2.log.length == 2) =
        true := by
    decide +kernel
  obtain ⟨⟨symbols, final⟩, returned, passes⟩ := exists_of_any run
  simp only [Bool.and_eq_true, beq_iff_eq] at passes
  obtain ⟨other, more, otherReturned, finalLog, otherLog⟩ :=
    (results_depend_on_top_frame .inferredVariable 9 _ isBlank startIsBlank rfl rfl).2 _ _ returned
  obtain ⟨diagnostic, rfl⟩ : ∃ diagnostic, more = [diagnostic] := by
    apply List.length_eq_one_iff.mp
    have length := passes.2
    rw [finalLog, List.length_append] at length
    exact Nat.add_left_cancel length
  exact ⟨isBlank, startIsBlank, symbols, final, other, diagnostic, by simpa using passes.1,
    returned, finalLog, otherReturned, otherLog⟩

end DScope
