import DScope.Proofs.Simulation

namespace DScope

/-!
# States that look alike

Two states look alike when they stand at the same place under the same options
and differ at most in lower frames that bind nothing. Rules see no difference
between such states, and go on seeing none in whatever frames they open.
-/

open List

/-- The scope and the bindings of a frame. -/
def Frame.place (frame : Frame) : NodeId × Bindings :=
  (frame.scope, frame.bindings)

namespace Stack

/-- The scopes and bindings of all frames from the top downward. -/
def places (stack : Stack) : List (NodeId × Bindings) :=
  stack.frames.map Frame.place

/-- The bindings at the places downward for as long as each encloses the one above it. -/
def bindingsAround (tree : Tree) (inner : NodeId) : List (NodeId × Bindings) → List Binding
  | [] => []
  | (scope, bindings) :: rest =>
    if tree.encloses scope inner then
      bindings.filled ++ bindingsAround tree scope rest
    else
      []

theorem flatMap_enclosing (tree : Tree) (inner : Frame) (frames : List Frame) :
    (enclosing tree inner frames).flatMap (·.bindings.filled) =
      bindingsAround tree inner.scope (frames.map Frame.place) := by
  induction frames generalizing inner with
  | nil =>
    rfl
  | cons frame rest ih =>
    simp only [enclosing, bindingsAround, map_cons, Frame.place]
    split
    · rw [flatMap_cons, ih]
    · rfl

variable {upper lower : List (NodeId × Bindings)}

theorem bindingsAround_eq_nil
    (isUnfilled : ∀ place ∈ lower, place.2.filled = []) (tree : Tree) (inner : NodeId) :
    bindingsAround tree inner lower = [] := by
  induction lower generalizing inner with
  | nil =>
    rfl
  | cons place rest ih =>
    have restIsUnfilled : ∀ place ∈ rest, place.2.filled = [] := (forall_mem_cons.mp isUnfilled).2
    simp [bindingsAround, isUnfilled place (by simp), ih restIsUnfilled]

theorem bindingsAround_append
    (isUnfilled : ∀ place ∈ lower, place.2.filled = []) (tree : Tree) (inner : NodeId) :
    bindingsAround tree inner (upper ++ lower) = bindingsAround tree inner upper := by
  induction upper generalizing inner with
  | nil =>
    exact bindingsAround_eq_nil isUnfilled tree inner
  | cons place rest ih =>
    simp only [cons_append, bindingsAround, ih]

/-- The binding of a parameter at the nearest place that binds it. -/
def bindingAt? (parameter : NodeId) (places : List (NodeId × Bindings)) : Option Binding :=
  places.findSome? fun place => (place.2.get? parameter).filter (·.isBound)

theorem binding?_eq (stack : Stack) (parameter : NodeId) :
    stack.binding? parameter = bindingAt? parameter stack.places := by
  simp only [bindingAt?, places, findSome?_map]
  rfl

theorem bindingAt?_append (isUnfilled : ∀ place ∈ lower, place.2.filled = []) (parameter : NodeId) :
    bindingAt? parameter (upper ++ lower) = bindingAt? parameter upper := by
  have isUnbound : bindingAt? parameter lower = none := by
    refine findSome?_eq_none_iff.mpr fun place member => ?_
    rw [Bindings.get?_eq_none_of_filled (isUnfilled place member) parameter]
    rfl
  unfold bindingAt? at isUnbound ⊢
  rw [findSome?_append, isUnbound, Option.or_none]

/-- Whether two stacks have the same upper places and bind nothing below them. -/
def SamePlaces (first second : Stack) : Prop :=
  ∃ upper firstLower secondLower,
    upper ≠ [] ∧
      first.places = upper ++ firstLower ∧
      second.places = upper ++ secondLower ∧
        (∀ place ∈ firstLower, place.2.filled = []) ∧
        ∀ place ∈ secondLower, place.2.filled = []

namespace SamePlaces

variable {first second : Stack}

variable (same : SamePlaces first second)
include same

theorem symm : SamePlaces second first := by
  obtain ⟨upper, firstLower, secondLower, isSome, isFirst, isSecond, firstIsFree, secondIsFree⟩ :=
    same
  exact ⟨upper, secondLower, firstLower, isSome, isSecond, isFirst, secondIsFree, firstIsFree⟩

theorem place_top : first.top.place = second.top.place := by
  obtain ⟨upper, firstLower, secondLower, isSome, isFirst, isSecond, -, -⟩ := same
  cases upper with
  | nil =>
    exact absurd rfl isSome
  | cons place rest =>
    have firstTop : first.top.place = place := (cons.inj isFirst).1
    have secondTop : second.top.place = place := (cons.inj isSecond).1
    rw [firstTop, secondTop]

theorem push {firstFrame secondFrame : Frame} (samePlace : firstFrame.place = secondFrame.place) :
    SamePlaces (first.push firstFrame) (second.push secondFrame) := by
  obtain ⟨upper, firstLower, secondLower, isSome, isFirst, isSecond, firstIsFree, secondIsFree⟩ :=
    same
  refine ⟨firstFrame.place :: upper, firstLower, secondLower, cons_ne_nil _ _, ?_, ?_,
    firstIsFree, secondIsFree⟩
  · exact congrArg (firstFrame.place :: ·) isFirst
  · rw [samePlace]
    exact congrArg (secondFrame.place :: ·) isSecond

theorem binding?_eq : first.binding? = second.binding? := by
  obtain ⟨upper, firstLower, secondLower, -, isFirst, isSecond, firstIsFree, secondIsFree⟩ := same
  funext parameter
  rw [Stack.binding?_eq, Stack.binding?_eq, isFirst, isSecond,
    bindingAt?_append firstIsFree, bindingAt?_append secondIsFree]

theorem bindingsInHierarchy_eq (tree : Tree) :
    first.bindingsInHierarchy tree = second.bindingsInHierarchy tree := by
  have sameTop := same.place_top
  obtain ⟨upper, firstLower, secondLower, isSome, isFirst, isSecond, firstIsFree, secondIsFree⟩ :=
    same
  cases upper with
  | nil =>
    exact absurd rfl isSome
  | cons place rest =>
    have firstBelow : first.below.map Frame.place = rest ++ firstLower := (cons.inj isFirst).2
    have secondBelow : second.below.map Frame.place = rest ++ secondLower := (cons.inj isSecond).2
    have sameScope : first.top.scope = second.top.scope := congrArg Prod.fst sameTop
    have sameBindings : first.top.bindings = second.top.bindings := congrArg Prod.snd sameTop
    unfold bindingsInHierarchy
    rw [flatMap_cons, flatMap_cons, flatMap_enclosing, flatMap_enclosing, firstBelow,
      secondBelow, bindingsAround_append firstIsFree, bindingsAround_append secondIsFree,
      sameScope, sameBindings]

end SamePlaces

end Stack

namespace State

/-- Whether two running states look alike to the rules. -/
structure Alike (first second : State) : Prop where
  places : first.stack.SamePlaces second.stack
  statement : first.stack.top.statement = second.stack.top.statement
  options : first.options = second.options
  defaults : first.defaults = second.defaults
  guard : first.guard = second.guard
  isRunning : first.isCancelled = false
  secondIsRunning : second.isCancelled = false
  isPositive : first.guard.IsPositive

namespace Alike

variable {first second firstLater secondLater : State}

variable (alike : Alike first second)
include alike

theorem symm : Alike second first where
  places := alike.places.symm
  statement := alike.statement.symm
  options := alike.options.symm
  defaults := alike.defaults.symm
  guard := alike.guard.symm
  isRunning := alike.secondIsRunning
  secondIsRunning := alike.isRunning
  isPositive := alike.guard ▸ alike.isPositive

theorem view : first.view = second.view := by
  have sameScope : first.stack.top.scope = second.stack.top.scope :=
    congrArg Prod.fst alike.places.place_top
  simp only [State.view, sameScope, alike.statement, alike.options, alike.guard, alike.isRunning,
    alike.secondIsRunning, alike.places.binding?_eq, alike.places.bindingsInHierarchy_eq]

theorem replace
    (firstStack : firstLater.stack = first.stack) (firstGuard : firstLater.guard = first.guard)
    (firstDefaults : firstLater.defaults = first.defaults)
    (firstIsRunning : firstLater.isCancelled = false)
    (secondStack : secondLater.stack = second.stack)
    (secondGuard : secondLater.guard = second.guard)
    (secondDefaults : secondLater.defaults = second.defaults)
    (secondIsRunning : secondLater.isCancelled = false) :
    Alike firstLater secondLater where
  places := by
    rw [firstStack, secondStack]
    exact alike.places
  statement := by
    rw [firstStack, secondStack]
    exact alike.statement
  options := by
    unfold State.options
    rw [firstStack, secondStack, firstDefaults, secondDefaults]
    exact alike.options
  defaults := by rw [firstDefaults, secondDefaults, alike.defaults]
  guard := by rw [firstGuard, secondGuard, alike.guard]
  isRunning := firstIsRunning
  secondIsRunning := secondIsRunning
  isPositive := firstGuard ▸ alike.isPositive

theorem push (frame : Frame) : Alike (first.push frame) (second.push frame) where
  places := alike.places.push rfl
  statement := rfl
  options := congrArg frame.overrides.apply alike.defaults
  defaults := alike.defaults
  guard := alike.guard
  isRunning := alike.isRunning
  secondIsRunning := alike.secondIsRunning
  isPositive := alike.isPositive

theorem override (overrides : Overrides) :
    Alike (first.push (first.overridden overrides))
      (second.push (second.overridden overrides)) where
  places := by
    have sameScope : first.stack.top.scope = second.stack.top.scope :=
      congrArg Prod.fst alike.places.place_top
    exact alike.places.push (congrArg (·, Bindings.none) sameScope)
  statement := alike.statement
  options := by
    change (first.stack.top.overrides.followedBy overrides).apply first.defaults =
      (second.stack.top.overrides.followedBy overrides).apply second.defaults
    rw [Overrides.apply_followedBy, Overrides.apply_followedBy]
    exact congrArg overrides.apply alike.options
  defaults := alike.defaults
  guard := alike.guard
  isRunning := alike.isRunning
  secondIsRunning := alike.secondIsRunning
  isPositive := alike.isPositive

theorem changeGuard (change : Guard → Guard) (isPositive : (change first.guard).IsPositive) :
    Alike { first with guard := change first.guard }
      { second with guard := change second.guard } where
  places := alike.places
  statement := alike.statement
  options := alike.options
  defaults := alike.defaults
  guard := congrArg change alike.guard
  isRunning := alike.isRunning
  secondIsRunning := alike.secondIsRunning
  isPositive := isPositive

end Alike

end State

end DScope
