import DScope.Proofs.Alike

namespace DScope

/-!
# Where names are resolved

An entry of the memo is kept under a statement or a scope, the options in force
and the name. That tells the place at which the name was resolved as long as
every statement is used in one scope only and the options in force tell the
default options.
-/

/--
A convention on where names are resolved.

Every statement belongs to one scope, and the options in force tell which
default options go with them. Functions whose return type is read from a
statement follow the convention.
-/
structure Convention (tree : Tree) where
  home : StatementId → NodeId
  base : Options → Options
  home_of_returnsAt {method : NodeId} {statement : StatementId} :
    tree.ReturnsAt method statement → home statement = method

namespace Guard

variable {guard : Guard}

theorem eq_of_isIdle (isIdle : guard.isIdle = true) : guard = {} := by
  obtain ⟨resolving, counts⟩ := guard
  simp_all [Guard.isIdle]

theorem isPositive_of_isIdle (isIdle : guard.isIdle = true) : guard.IsPositive := by
  rw [eq_of_isIdle isIdle]
  exact nofun

end Guard

theorem Stack.eq_none_of_not_hasBindings
    {stack : Stack} (withoutBindings : stack.hasBindings = false) :
    ∀ place ∈ stack.places, place.2 = .none := by
  intro place member
  obtain ⟨frame, isFrame, rfl⟩ := List.mem_map.mp member
  have isEmpty : frame.bindings.slots = [] := by
    simp only [Stack.hasBindings, List.any_eq_false, Bool.not_eq_true', Bool.not_eq_false]
      at withoutBindings
    exact List.isEmpty_iff.mp (withoutBindings frame isFrame)
  change frame.bindings = .none
  cases shape : frame.bindings with
  | mk slots =>
    rw [shape] at isEmpty
    exact congrArg Bindings.mk isEmpty

namespace State

/-- Whether a state follows a convention. -/
structure Keeps {tree : Tree} (state : State) (convention : Convention tree) : Prop where
  statement :
    ∀ statement, state.stack.top.statement = some statement →
      state.stack.top.scope = convention.home statement
  options : convention.base state.options = state.defaults
  defaults : convention.base state.defaults = state.defaults

variable {tree : Tree} {convention : Convention tree} {first second state : State}
  {standing : Standing} {name : String} {key : MemoKey} {frame : Frame}

theorem Keeps.replace (keeps : first.Keeps convention) (sameStack : second.stack = first.stack)
    (sameDefaults : second.defaults = first.defaults) : second.Keeps convention := by
  have sameOptions : second.options = first.options := by
    unfold State.options
    rw [sameStack, sameDefaults]
  refine ⟨?_, ?_, ?_⟩
  · rw [sameStack]
    exact keeps.statement
  · rw [sameOptions, sameDefaults]
    exact keeps.options
  · rw [sameDefaults]
    exact keeps.defaults

theorem Keeps.ofAlike (keeps : first.Keeps convention) (alike : Alike first second) :
    second.Keeps convention := by
  have sameScope : first.stack.top.scope = second.stack.top.scope :=
    congrArg Prod.fst alike.places.place_top
  refine ⟨?_, ?_, ?_⟩
  · rw [← alike.statement, ← sameScope]
    exact keeps.statement
  · rw [← alike.options, ← alike.defaults]
    exact keeps.options
  · rw [← alike.defaults]
    exact keeps.defaults

theorem Keeps.ofFrame (isOutside : standing ≠ .inside) (opens : frame.OpensFrom tree standing)
    (isBase : convention.base state.defaults = state.defaults) :
    (state.push frame).Keeps convention := by
  have returnsAt := opens.statement.resolve_left isOutside
  have isDefault : (state.push frame).options = state.defaults := by
    change frame.overrides.apply state.defaults = state.defaults
    rw [opens.overrides, Overrides.apply_empty]
  refine ⟨fun statement isAt => ?_, ?_, isBase⟩
  · exact (convention.home_of_returnsAt (returnsAt statement isAt)).symm
  · rw [isDefault]
    exact isBase

/--
What is known of the place of a state in each standing of a query.

Inside a declaration nothing is remembered, so the convention may be broken.
-/
def Placed (convention : Convention tree) : Standing → State → Prop
  | .plain, state => state.Keeps convention
  | .overridden, state => convention.base state.defaults = state.defaults
  | .inside, state => state.guard.isIdle = false

theorem Placed.push
    (placed : state.Placed convention standing) (opens : frame.OpensFrom tree standing) :
    (state.push frame).Placed convention standing.opened := by
  cases standing with
  | plain => exact Keeps.ofFrame (by decide) opens placed.defaults
  | overridden => exact Keeps.ofFrame (by decide) opens placed
  | inside => exact placed

theorem Placed.override (placed : state.Placed convention standing) (overrides : Overrides) :
    (state.push (state.overridden overrides)).Placed convention standing.underOverrides := by
  cases standing with
  | plain => exact placed.defaults
  | overridden => exact placed
  | inside => exact placed

theorem Placed.replace
    (placed : first.Placed convention standing) (sameStack : second.stack = first.stack)
    (sameGuard : second.guard = first.guard) (sameDefaults : second.defaults = first.defaults) :
    second.Placed convention standing := by
  cases standing with
  | plain => exact Keeps.replace placed sameStack sameDefaults
  | overridden =>
    change convention.base second.defaults = second.defaults
    rw [sameDefaults]
    exact placed
  | inside =>
    change second.guard.isIdle = false
    rw [sameGuard]
    exact placed

theorem Placed.ofAlike (placed : first.Placed convention standing) (alike : Alike first second) :
    second.Placed convention standing := by
  cases standing with
  | plain => exact Keeps.ofAlike placed alike
  | overridden =>
    change convention.base second.defaults = second.defaults
    rw [← alike.defaults]
    exact placed
  | inside =>
    change second.guard.isIdle = false
    rw [← alike.guard]
    exact placed

theorem Placed.keeps (placed : state.Placed convention standing) (isPlain : standing ≠ .overridden)
    (isIdle : state.guard.isIdle = true) : state.Keeps convention := by
  cases standing with
  | plain => exact placed
  | overridden => exact absurd rfl isPlain
  | inside =>
    have isBusy : state.guard.isIdle = false := placed
    rw [isIdle] at isBusy
    cases isBusy

/-- The statement or the scope at which a state stands. -/
def anchor (state : State) : Anchor :=
  match state.stack.top.statement with
  | some statement => .statement statement
  | none => .scope state.stack.top.scope

theorem memoKey?_eq_none (hasBindings : state.stack.hasBindings = true) (name : String) :
    state.memoKey? name = none := by
  simp [memoKey?, hasBindings]

theorem of_memoKey? (isKey : state.memoKey? name = some key) :
    state.guard.isIdle = true ∧
      state.stack.hasBindings = false ∧ key = ⟨state.anchor, state.options, name⟩ := by
  unfold memoKey? at isKey
  split at isKey
  · cases isKey
  next isFree =>
    simp only [Bool.or_eq_true, Bool.not_eq_true', not_or, Bool.not_eq_false,
      Bool.not_eq_true] at isFree
    exact ⟨isFree.1, isFree.2, (Option.some.inj isKey).symm⟩

theorem name_of_memoKey? (isKey : state.memoKey? name = some key) : key.name = name := by
  obtain ⟨-, -, rfl⟩ := of_memoKey? isKey
  rfl

theorem memoKey?_congr
    (sameStack : second.stack = first.stack) (sameGuard : second.guard = first.guard)
    (sameDefaults : second.defaults = first.defaults) (name : String) :
    second.memoKey? name = first.memoKey? name := by
  simp only [memoKey?, State.options, sameStack, sameGuard, sameDefaults]

/--
Whether a state stands where an entry of the memo is kept.

The state itself is kept from using the memo by a slot that is empty.
-/
structure StandsAt (convention : Convention tree) (key : MemoKey) (state : State) : Prop where
  keeps : state.Keeps convention
  isIdle : state.guard.isIdle = true
  isRunning : state.isCancelled = false
  hasBindings : state.stack.hasBindings = true
  isUnfilled : ∀ place ∈ state.stack.places, place.2.filled = []
  top : state.stack.top.bindings = .none
  anchor : state.anchor = key.anchor
  options : state.options = key.options

theorem Keeps.eq_of_anchor
    (firstKeeps : first.Keeps convention) (secondKeeps : second.Keeps convention)
    (sameAnchor : first.anchor = second.anchor) :
    first.stack.top.statement = second.stack.top.statement ∧
      first.stack.top.scope = second.stack.top.scope := by
  have firstHome := firstKeeps.statement
  have secondHome := secondKeeps.statement
  unfold State.anchor at sameAnchor
  cases isFirst : first.stack.top.statement with
  | none =>
    cases isSecond : second.stack.top.statement with
    | none =>
      simp only [isFirst, isSecond, Anchor.scope.injEq] at sameAnchor
      exact ⟨rfl, sameAnchor⟩
    | some statement =>
      simp [isFirst, isSecond] at sameAnchor
  | some statement =>
    cases isSecond : second.stack.top.statement with
    | none =>
      simp [isFirst, isSecond] at sameAnchor
    | some other =>
      simp only [isFirst, isSecond, Anchor.statement.injEq] at sameAnchor
      subst sameAnchor
      exact ⟨rfl, (firstHome _ isFirst).trans (secondHome _ isSecond).symm⟩

theorem StandsAt.alike
    (firstStands : first.StandsAt convention key) (secondStands : second.StandsAt convention key) :
    Alike first second := by
  obtain ⟨sameStatement, sameScope⟩ :=
    firstStands.keeps.eq_of_anchor secondStands.keeps
      (firstStands.anchor.trans secondStands.anchor.symm)
  have sameOptions : first.options = second.options :=
    firstStands.options.trans secondStands.options.symm
  have sameDefaults : first.defaults = second.defaults := by
    rw [← firstStands.keeps.options, ← secondStands.keeps.options, sameOptions]
  have samePlace : second.stack.top.place = first.stack.top.place := by
    unfold Frame.place
    rw [sameScope, firstStands.top, secondStands.top]
  refine ⟨?_, sameStatement, sameOptions, sameDefaults, ?_, firstStands.isRunning,
    secondStands.isRunning, Guard.isPositive_of_isIdle firstStands.isIdle⟩
  · -- Below the top nothing is filled, so the tops are all that the two have to share.
    refine ⟨[first.stack.top.place], first.stack.below.map Frame.place,
      second.stack.below.map Frame.place, List.cons_ne_nil _ _, rfl, ?_, ?_, ?_⟩
    · rw [← samePlace]
      rfl
    · exact (List.forall_mem_cons.mp firstStands.isUnfilled).2
    · exact (List.forall_mem_cons.mp secondStands.isUnfilled).2
  · rw [Guard.eq_of_isIdle firstStands.isIdle, Guard.eq_of_isIdle secondStands.isIdle]

theorem StandsAt.ofAlike (keeps : first.Keeps convention) (alike : Alike first second)
    (isKey : first.memoKey? name = some key) (hasBindings : second.stack.hasBindings = true) :
    second.StandsAt convention key := by
  obtain ⟨isIdle, withoutBindings, rfl⟩ := of_memoKey? isKey
  have isFree := Stack.eq_none_of_not_hasBindings withoutBindings
  have sameTop := alike.places.place_top
  refine ⟨keeps.ofAlike alike, alike.guard ▸ isIdle, alike.secondIsRunning, hasBindings, ?_, ?_, ?_,
    alike.options.symm⟩
  · obtain ⟨upper, firstLower, secondLower, -, isFirst, isSecond, -, secondIsUnfilled⟩ :=
      alike.places
    intro place member
    rw [isSecond] at member
    rcases List.mem_append.mp member with inUpper | inLower
    · rw [isFree place (isFirst ▸ List.mem_append_left _ inUpper)]
      rfl
    · exact secondIsUnfilled place inLower
  · have topIsFree : first.stack.top.bindings = .none := isFree _ (List.mem_cons_self ..)
    exact (congrArg Prod.snd sameTop).symm.trans topIsFree
  · have sameScope : first.stack.top.scope = second.stack.top.scope := congrArg Prod.fst sameTop
    unfold State.anchor
    rw [alike.statement, sameScope]

end State

end DScope
