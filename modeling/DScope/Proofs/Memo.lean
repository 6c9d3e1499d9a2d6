import DScope.Proofs.Convention

namespace DScope

variable {evaluator : Evaluator} {name : String} {program : Program} {standing : Standing}
  {firstUse secondUse : MemoUse} {symbols found : List Symbol}

/-!
# The memo is transparent

A memo that was filled under a convention holds what a search would find. The
reference point is a run that never uses the memo: it starts from a state with
one more frame at the bottom whose only slot is empty. The rules do not see that
frame, but while it is there nothing is remembered.
-/

open Query Resolution State

namespace Evaluator

/-- The evaluator without its way to cancel the query. -/
def uncancelled : Evaluator → Evaluator
  | .cancelling _ => .standard
  | evaluator => evaluator

theorem uncancelled_uncancelled : evaluator.uncancelled.uncancelled = evaluator.uncancelled := by
  cases evaluator <;> rfl

theorem uncancelled_eq_absent_iff : evaluator = .absent ↔ evaluator.uncancelled = .absent := by
  cases evaluator <;> simp [uncancelled]

theorem evaluationStart_uncancelled (state : State) :
    evaluationStart evaluator.uncancelled state = state := by
  cases evaluator <;> rfl

theorem not_cancelsBetween_uncancelled (before after : Nat) :
    ¬evaluator.uncancelled.CancelsBetween before after := by
  cases evaluator <;> exact id

end Evaluator

theorem State.Balances.isRunning {before after : State}
    (balances : before.Balances evaluator.uncancelled after)
    (isRunning : before.isCancelled = false) : after.isCancelled = false := by
  refine Bool.eq_false_iff.mpr fun isCancelled => ?_
  rcases balances.cancellation.mp isCancelled with wasCancelled | cancels
  · rw [isRunning] at wasCancelled
    cases wasCancelled
  · exact Evaluator.not_cancelsBetween_uncancelled _ _ cancels

theorem Engine.Settles.balances {α : Type} {within : Nat → Question → Prop}
    {asks : Question → Prop} {query : Query α} {state final : State} {result : α}
    (settles : Settles program evaluator query state result final)
    (orderly : Orderly program within standing asks query) (isPositive : state.guard.IsPositive) :
    state.Balances evaluator final := by
  obtain ⟨limit, returned⟩ := settles.returns
  exact orderly.run_isBalanced evaluator limit isPositive returned

variable {leading : Evaluator} {convention : Convention program.tree} {first second state : State}

/--
Whether a memo holds what a search would find.

What is remembered under a key is what every state that stands at its place
finds without the memo.
-/
def IsFaithful (program : Program) (evaluator : Evaluator) (convention : Convention program.tree)
    (memo : List (MemoKey × List Symbol)) : Prop :=
  ∀ ⦃key symbols⦄, Table.find? key memo = some symbols →
    ∀ ⦃state : State⦄, state.StandsAt convention key →
    ∃ final,
      Engine.Settles program evaluator (Resolution.ofName key.name) state symbols final

/-- How a run uses the memo. -/
inductive MemoUse where
  /-- The memo is used and holds what a search would find. -/
  | faithful
  /-- Some frame has slots, so the memo is not used. -/
  | blocked

/-- Whether a state allows for a use of the memo. -/
def MemoUse.Holds (program : Program) (evaluator : Evaluator)
    (convention : Convention program.tree) : MemoUse → State → Prop
  | .faithful, state => IsFaithful program evaluator convention state.memo
  | .blocked, state => state.stack.hasBindings = true

/-- The relation between two runs that use the memo in different ways. -/
structure Twins (program : Program) (evaluator : Evaluator) (convention : Convention program.tree)
    (firstUse secondUse : MemoUse) (standing : Standing) (first second : State) : Prop where
  alike : first.Alike second
  placed : first.Placed convention standing
  firstHolds : firstUse.Holds program evaluator convention first
  secondHolds : secondUse.Holds program evaluator convention second

namespace MemoUse.Holds

variable {use : MemoUse}

theorem replace
    (holds : use.Holds program evaluator convention first) (sameStack : second.stack = first.stack)
    (sameMemo : second.memo = first.memo) : use.Holds program evaluator convention second := by
  cases use with
  | faithful =>
    change IsFaithful program evaluator convention second.memo
    rw [sameMemo]
    exact holds
  | blocked =>
    change second.stack.hasBindings = true
    rw [sameStack]
    exact holds

theorem push (holds : use.Holds program evaluator convention state) (frame : Frame) :
    use.Holds program evaluator convention (state.push frame) := by
  cases use with
  | faithful => exact holds
  | blocked =>
    change (!frame.bindings.isEmpty || state.stack.hasBindings) = true
    rw [show state.stack.hasBindings = true from holds, Bool.or_true]

theorem returnedTo (before : use.Holds program evaluator convention first)
    (after : use.Holds program evaluator convention second) :
    use.Holds program evaluator convention (second.returnedTo first) := by
  cases use with
  | faithful => exact after
  | blocked => exact before

end MemoUse.Holds

namespace Guard

theorem isIdle_mark {guard : Guard} {node : NodeId} (isNew : ¬guard.isResolving node) :
    (guard.mark node).isIdle = false := by
  simp [mark, isNew, isIdle]

theorem isIdle_enter (guard : Guard) (node : NodeId) : (guard.enter node).isIdle = false := by
  have isCounted : (guard.enter node).counts ≠ [] := by
    intro isEmpty
    have isOutside : (guard.enter node).depth node = 0 := by simp [depth, isEmpty, Table.find?]
    rw [depth_enter_self] at isOutside
    cases isOutside
  simp [isIdle, isCounted]

end Guard

namespace Twins

/-- A relation that is kept when names are remembered is kept by every move. -/
theorem simulation
    (remembered :
      ∀ {standing limit name}, standing ≠ Standing.overridden →
        Follows program leading leading.uncancelled limit
            (Twins program leading.uncancelled convention firstUse secondUse standing)
            (searchName name) →
          Follows program leading leading.uncancelled limit
            (Twins program leading.uncancelled convention firstUse secondUse standing)
            (ofName name)) :
    Simulation program leading leading.uncancelled
      (Twins program leading.uncancelled convention firstUse secondUse) where
  view twins := twins.alike.view
  isRunning twins := twins.alike.isRunning
  isPositive twins := twins.alike.isPositive
  reported diagnostic twins :=
    ⟨twins.alike.replace rfl rfl rfl twins.alike.isRunning rfl rfl rfl twins.alike.secondIsRunning,
      twins.placed.replace rfl rfl rfl, twins.firstHolds.replace rfl rfl,
      twins.secondHolds.replace rfl rfl⟩
  opened opens twins :=
    ⟨twins.alike.push _, twins.placed.push opens, twins.firstHolds.push _, twins.secondHolds.push _⟩
  overridden overrides twins :=
    ⟨twins.alike.override overrides, twins.placed.override overrides, twins.firstHolds.push _,
      twins.secondHolds.push _⟩
  marked isNew twins :=
    ⟨twins.alike.changeGuard (·.mark _) (twins.alike.isPositive.mark _), Guard.isIdle_mark isNew,
      twins.firstHolds.replace rfl rfl, twins.secondHolds.replace rfl rfl⟩
  entered node twins :=
    ⟨twins.alike.changeGuard (·.enter node) (twins.alike.isPositive.enter node),
      Guard.isIdle_enter _ node, twins.firstHolds.replace rfl rfl,
      twins.secondHolds.replace rfl rfl⟩
  evaluated := by
    intro standing first second twins
    have balances := Balances.evaluationStart leading first
    have sameMemo : (evaluationStart leading first).memo = first.memo := by
      cases leading <;> rfl
    rw [Evaluator.evaluationStart_uncancelled]
    cases isCancelled : (evaluationStart leading first).isCancelled with
    | true => exact .inl rfl
    | false =>
      exact .inr ⟨twins.alike.replace balances.stack balances.guard balances.defaults isCancelled
          rfl rfl rfl twins.alike.secondIsRunning,
        twins.placed.replace balances.stack balances.guard balances.defaults,
        twins.firstHolds.replace balances.stack sameMemo, twins.secondHolds⟩
  returned twins twinsLater :=
    ⟨twins.alike.replace rfl rfl rfl twinsLater.alike.isRunning rfl rfl rfl
        twinsLater.alike.secondIsRunning,
      twins.placed.replace rfl rfl rfl, twins.firstHolds.returnedTo twinsLater.firstHolds,
      twins.secondHolds.returnedTo twinsLater.secondHolds⟩
  isAbsent := Evaluator.uncancelled_eq_absent_iff
  remembered := remembered

end Twins

namespace State

theorem remembered?_eq_none (hasBindings : state.stack.hasBindings = true) (name : String) :
    state.remembered? name = none := by
  rw [remembered?, memoKey?_eq_none hasBindings]
  rfl

theorem find?_of_remembered? (isRemembered : state.remembered? name = some symbols) :
    ∃ key, state.memoKey? name = some key ∧ Table.find? key state.memo = some symbols :=
  Option.bind_eq_some_iff.mp isRemembered

theorem memo_concluded (name : String) (found : List Symbol) :
    (concluded state name found).memo =
      match state.memoKey? name with
      | some key => Table.put key found state.memo
      | none => state.memo := by
  have remembering :
      ∀ reported : State, reported.memo = state.memo →
        reported.memoKey? name = state.memoKey? name →
        (reported.remember name found).memo =
          match state.memoKey? name with
          | some key => Table.put key found state.memo
          | none => state.memo := by
    intro reported sameMemo sameKey
    rw [remember, sameKey]
    cases state.memoKey? name with
    | none => exact sameMemo
    | some key => exact congrArg (Table.put key found) sameMemo
  unfold concluded
  split
  · unfold reportedMissing
    split
    · exact remembering _ rfl rfl
    · exact remembering _ rfl rfl
  · exact remembering _ rfl rfl

/-- While something is in flight, nothing is remembered. -/
theorem isKept_memo (evaluator : Evaluator) :
    IsKept True evaluator fun before after =>
      before.guard.IsPositive →
        before.Balances evaluator after ∧
          (before.guard.isIdle = false → after.memo = before.memo) where
  refl state _ := ⟨.refl _ state, fun _ => rfl⟩
  trans firstly secondly isPositive := by
    obtain ⟨balances, keeps⟩ := firstly isPositive
    obtain ⟨laterBalances, keepsLater⟩ := secondly (balances.guard ▸ isPositive)
    exact ⟨balances.trans laterBalances,
      fun isBusy => (keepsLater (balances.guard ▸ isBusy)).trans (keeps isBusy)⟩
  report state diagnostic _ _ := ⟨.report _ state diagnostic, fun _ => rfl⟩
  evaluationStart state _ := ⟨.evaluationStart _ state, fun _ => by cases evaluator <;> rfl⟩
  concluded state name found _ :=
    ⟨.concluded _ state name found, fun isBusy => by simp [memo_concluded, memoKey?, isBusy]⟩
  closing inner isPositive := ⟨(inner isPositive).1.closing, (inner isPositive).2⟩
  unmarking isNew inner isPositive :=
    ⟨(inner (isPositive.mark _)).1.unmarking isNew,
      fun _ => (inner (isPositive.mark _)).2 (Guard.isIdle_mark isNew)⟩
  leaving inner isPositive :=
    ⟨(inner (isPositive.enter _)).1.leaving isPositive,
      fun _ => (inner (isPositive.enter _)).2 (Guard.isIdle_enter _ _)⟩

end State

theorem Engine.Settles.memo_eq {question : Question} {final : State} {answer : question.Answer}
    (settles : Settles program evaluator (Query.ask question) state answer final)
    (isPositive : state.guard.IsPositive) (isBusy : state.guard.isIdle = false) :
    final.memo = state.memo := by
  obtain ⟨limit, returned⟩ := settles.returns
  exact (Engine.answer_keeps program (isKept_memo evaluator) limit question
    returned isPositive).2 isBusy

theorem IsFaithful.concluded (faithful : IsFaithful program evaluator convention state.memo)
    (isFound :
      ∀ key, state.memoKey? name = some key →
        ∀ other : State, other.StandsAt convention key →
        ∃ final, Engine.Settles program evaluator (ofName name) other found final) :
    IsFaithful program evaluator convention (concluded state name found).memo := by
  rw [memo_concluded]
  cases isKey : state.memoKey? name with
  | none =>
    exact faithful
  | some key =>
    intro other symbols isEntry standing stands
    by_cases same : key = other
    · subst same
      rw [Table.find?_put] at isEntry
      cases isEntry
      rw [name_of_memoKey? isKey]
      exact isFound key isKey standing stands
    · rw [Table.find?_put_of_ne same] at isEntry
      exact faithful isEntry stands

namespace Twins

variable {other : Evaluator} {later final : State} {key : MemoKey} {limit : Nat}

section

variable (twins : Twins program evaluator convention firstUse secondUse standing first second)
include twins

theorem symm : Twins program evaluator convention secondUse firstUse standing second first :=
  ⟨twins.alike.symm, twins.placed.ofAlike twins.alike, twins.secondHolds, twins.firstHolds⟩

theorem ofBalances {firstLater secondLater : State}
    (firstBalances : first.Balances leading firstLater)
    (firstIsRunning : firstLater.isCancelled = false)
    (firstHolds : firstUse.Holds program evaluator convention firstLater)
    (secondBalances : second.Balances other secondLater)
    (secondIsRunning : secondLater.isCancelled = false)
    (secondHolds : secondUse.Holds program evaluator convention secondLater) :
    Twins program evaluator convention firstUse secondUse standing firstLater secondLater :=
  ⟨twins.alike.replace firstBalances.stack firstBalances.guard firstBalances.defaults
      firstIsRunning secondBalances.stack secondBalances.guard secondBalances.defaults
      secondIsRunning,
    twins.placed.replace firstBalances.stack firstBalances.guard firstBalances.defaults,
    firstHolds, secondHolds⟩

theorem concluded
    (firstHolds : firstUse.Holds program evaluator convention (concluded first name found))
    (secondHolds : secondUse.Holds program evaluator convention (concluded second name found)) :
    Twins program evaluator convention firstUse secondUse standing
      (concluded first name found) (concluded second name found) :=
  twins.ofBalances (.concluded .standard first name found)
    ((isCancelled_concluded first name found).trans twins.alike.isRunning) firstHolds
    (.concluded .standard second name found)
    ((isCancelled_concluded second name found).trans twins.alike.secondIsRunning) secondHolds

end

theorem blocked_of_balances
    (balances : state.Balances other later) (hasBindings : state.stack.hasBindings = true) :
    MemoUse.blocked.Holds program evaluator convention later := by
  change later.stack.hasBindings = true
  rw [balances.stack]
  exact hasBindings

theorem blocked_concluded (hasBindings : state.stack.hasBindings = true) :
    MemoUse.blocked.Holds program evaluator convention (Query.concluded state name found) :=
  blocked_of_balances (.concluded .standard state name found) hasBindings

theorem simulation_blocked :
    Simulation program leading leading.uncancelled
      (Twins program leading.uncancelled convention .blocked .blocked) := by
  refine simulation ?_
  intro standing limit name isPlain follows first second twins result final returned
  obtain ⟨found, later, isSearch, outcome⟩ :=
    search_of_ofName (remembered?_eq_none twins.firstHolds name) returned
  rcases outcome with ⟨isCancelled, -, rfl⟩ | ⟨isRunning, rfl, rfl⟩
  · exact .inl isCancelled
  · rcases follows twins isSearch with isCancelled | ⟨other, twinsLater, settles⟩
    · rw [isRunning] at isCancelled
      cases isCancelled
    · refine .inr ⟨_, twinsLater.concluded (blocked_concluded twinsLater.firstHolds)
        (blocked_concluded twinsLater.secondHolds), ?_⟩
      exact settles_ofName (remembered?_eq_none twins.secondHolds name) settles
        twinsLater.alike.secondIsRunning

theorem settles_of_standsAt {result : List Symbol} (firstStands : first.StandsAt convention key)
    (secondStands : second.StandsAt convention key)
    (returned : Engine.run program leading limit (ofName name) first = .ok (result, final))
    (isRunning : final.isCancelled = false) :
    ∃ other, Engine.Settles program leading.uncancelled (ofName name) second result other := by
  have orderly := (Operation.resolveIdentifier name).query_orderly program
  have twins : Twins program leading.uncancelled convention .blocked .blocked .plain first second :=
    ⟨firstStands.alike secondStands, firstStands.keeps, firstStands.hasBindings,
      secondStands.hasBindings⟩
  rcases simulation_blocked.follows orderly limit twins returned with
    isCancelled | ⟨other, -, settles⟩
  · rw [isRunning] at isCancelled
    cases isCancelled
  · exact ⟨other, settles⟩

theorem standsAt
    (twins : Twins program evaluator convention firstUse .blocked standing first second)
    (isPlain : standing ≠ .overridden) (isKey : first.memoKey? name = some key) :
    second.StandsAt convention key :=
  .ofAlike (twins.placed.keeps isPlain (of_memoKey? isKey).1) twins.alike isKey
    twins.secondHolds

theorem settles_of_remembered
    (twins : Twins program evaluator convention .faithful .blocked standing first second)
    (isPlain : standing ≠ .overridden) (isRemembered : first.remembered? name = some symbols) :
    ∃ other, Engine.Settles program evaluator (ofName name) second symbols other := by
  obtain ⟨key, isKey, isEntry⟩ := find?_of_remembered? isRemembered
  have found := twins.firstHolds isEntry (twins.standsAt isPlain isKey)
  rwa [name_of_memoKey? isKey] at found

theorem isFaithful_concluded
    (twins : Twins program leading.uncancelled convention .faithful .blocked standing first second)
    (isPlain : standing ≠ .overridden)
    (isFaithful : IsFaithful program leading.uncancelled convention later.memo)
    (sameKey : later.memoKey? name = first.memoKey? name)
    (returned : Engine.run program leading limit (ofName name) second = .ok (found, final))
    (isRunning : final.isCancelled = false) :
    IsFaithful program leading.uncancelled convention (Query.concluded later name found).memo :=
  isFaithful.concluded fun _ isKey _ stands =>
    settles_of_standsAt (twins.standsAt isPlain (sameKey ▸ isKey)) stands returned isRunning

/-- A run with a faithful memo finds what a run without it finds. -/
theorem simulation_faithful :
    Simulation program leading leading.uncancelled
      (Twins program leading.uncancelled convention .faithful .blocked) := by
  refine simulation ?_
  intro standing limit name isPlain follows first second twins result final returned
  have orderly := (Operation.resolveIdentifier name).query_orderly program
  have searchOrderly : Orderly program (fun _ _ => True) .plain (fun _ => True) _ :=
    (searchName_confined (fun _ _ => trivial) name).orderly
  cases isRemembered : first.remembered? name with
  | some symbols =>
    rw [run_remembered isRemembered] at returned
    cases returned
    -- The first run stays where it is, and its twin goes through the whole search.
    obtain ⟨other, settles⟩ := twins.settles_of_remembered isPlain isRemembered
    have balances := settles.balances orderly twins.alike.symm.isPositive
    exact .inr ⟨other, twins.ofBalances (.refl leading first) twins.alike.isRunning
      twins.firstHolds balances (balances.isRunning twins.alike.secondIsRunning)
      (blocked_of_balances balances twins.secondHolds), settles⟩
  | none =>
    obtain ⟨found, later, isSearch, outcome⟩ := search_of_ofName isRemembered returned
    rcases outcome with ⟨isCancelled, -, rfl⟩ | ⟨isRunning, rfl, rfl⟩
    · exact .inl isCancelled
    rcases follows twins isSearch with isCancelled | ⟨other, twinsLater, settles⟩
    · rw [isRunning] at isCancelled
      cases isCancelled
    · have balances := searchOrderly.run_isBalanced leading limit twins.alike.isPositive isSearch
      have settlesName :=
        settles_ofName (remembered?_eq_none twins.secondHolds name) settles
          twinsLater.alike.secondIsRunning
      obtain ⟨higher, secondReturned⟩ := settlesName.returns
      have otherIsRunning : (Query.concluded other name result).isCancelled = false :=
        (Query.isCancelled_concluded other name result).trans twinsLater.alike.secondIsRunning
      have isFaithful :
          IsFaithful program leading.uncancelled convention
            (Query.concluded later name result).memo := by
        rw [← Evaluator.uncancelled_uncancelled] at twins twinsLater ⊢
        exact twins.isFaithful_concluded isPlain twinsLater.firstHolds
          (memoKey?_congr balances.stack balances.guard balances.defaults name)
          secondReturned otherIsRunning
      exact .inr ⟨_, twinsLater.concluded isFaithful (blocked_concluded twinsLater.secondHolds),
        settlesName⟩

/-- A run without the memo finds what a run with a faithful one finds. -/
theorem simulation_recalled :
    Simulation program leading leading.uncancelled
      (Twins program leading.uncancelled convention .blocked .faithful) := by
  refine simulation ?_
  intro standing limit name isPlain follows first second twins result final returned
  have orderly := (Operation.resolveIdentifier name).query_orderly program
  have searchOrderly : Orderly program (fun _ _ => True) .plain (fun _ => True) _ :=
    (searchName_confined (fun _ _ => trivial) name).orderly
  obtain ⟨found, later, isSearch, outcome⟩ :=
    search_of_ofName (remembered?_eq_none twins.firstHolds name) returned
  rcases outcome with ⟨isCancelled, -, rfl⟩ | ⟨isRunning, rfl, rfl⟩
  · exact .inl isCancelled
  have finalIsRunning : (Query.concluded later name result).isCancelled = false :=
    (Query.isCancelled_concluded later name result).trans isRunning
  cases isRemembered : second.remembered? name with
  | some symbols =>
    obtain ⟨key, isKey, -⟩ := find?_of_remembered? isRemembered
    -- The first run stands at the place of the entry, so what it has found is the entry.
    have stands := twins.symm.standsAt isPlain isKey
    obtain ⟨_, settlesEntry⟩ := twins.symm.settles_of_remembered isPlain isRemembered
    obtain ⟨_, settlesFound⟩ := settles_of_standsAt stands stands returned finalIsRunning
    have sameResult := settlesEntry.unique settlesFound
    subst sameResult
    have balances := orderly.run_isBalanced leading limit twins.alike.isPositive returned
    exact .inr ⟨second, twins.ofBalances balances finalIsRunning
      (blocked_of_balances balances twins.firstHolds) (.refl leading second)
      twins.alike.secondIsRunning twins.secondHolds,
      0, fun limit _ => run_remembered isRemembered limit⟩
  | none =>
    rcases follows twins isSearch with isCancelled | ⟨other, twinsLater, settles⟩
    · rw [isRunning] at isCancelled
      cases isCancelled
    · have balances := settles.balances searchOrderly twins.alike.symm.isPositive
      have isFaithful :=
        twins.symm.isFaithful_concluded isPlain twinsLater.secondHolds
          (memoKey?_congr balances.stack balances.guard balances.defaults name) returned
          finalIsRunning
      exact .inr ⟨_, twinsLater.concluded (blocked_concluded twinsLater.firstHolds) isFaithful,
        settles_ofName isRemembered settles twinsLater.alike.secondIsRunning⟩

end Twins

end DScope
