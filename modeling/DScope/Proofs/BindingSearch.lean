import DScope.Proofs.Drafting
import DScope.Proofs.ModuleScope
import DScope.Proofs.Slots

namespace DScope

/-!
# The two searches for bindings

A parameter is looked up through all frames, and the bindings of a hierarchy are
listed from the frames downward for as long as each encloses the one above it. Both
take the first binding of a parameter, so they agree on what the list holds.
-/

open List

namespace Bindings

/-- There is one slot for each parameter, and it is empty or binds something. -/
structure AreDefinite (bindings : Bindings) : Prop where
  areDistinct : bindings.parameters.Nodup
  areBound : ∀ binding ∈ bindings.filled, binding.isBound = true

variable {bindings : Bindings}

theorem get?_eq_find? (areDistinct : bindings.parameters.Nodup) (parameter : NodeId) :
    bindings.get? parameter = bindings.filled.find? (·.parameter == parameter) := by
  have areKept :
      bindings.filled.filter (·.parameter == parameter) =
        (bindings.slots.filter (·.parameter == parameter)).filterMap Slot.binding? := by
    rw [filled, filter_filterMap, filterMap_filter]
    refine filterMap_congr fun slot _ => ?_
    cases slot with
    | empty declared => exact (ite_self _).symm
    | filled binding => rfl
  rw [filter_key_eq areDistinct] at areKept
  rw [← head?_filter, areKept, get?, slot?]
  cases bindings.slots.find? (·.parameter == parameter) with
  | none => rfl
  | some slot => cases slot <;> rfl

theorem AreDefinite.filter_get? (areDefinite : bindings.AreDefinite) (parameter : NodeId) :
    (bindings.get? parameter).filter (·.isBound) =
      bindings.filled.find? (·.parameter == parameter) := by
  rw [get?_eq_find? areDefinite.areDistinct]
  cases isFound : bindings.filled.find? (·.parameter == parameter) with
  | none => rfl
  | some binding =>
    exact Option.filter_some_pos (areDefinite.areBound _ (mem_of_find?_eq_some isFound))

end Bindings

namespace Stack

variable {tree : Tree} {stack : Stack} {inner frame : Frame} {before after : List Frame}

theorem nodup_foldl_addBinding {listed : List Binding} (bindings : List Binding)
    (areDistinct : (listed.map (·.parameter)).Nodup) :
    ((bindings.foldl addBinding listed).map (·.parameter)).Nodup := by
  induction bindings generalizing listed with
  | nil => exact areDistinct
  | cons binding rest ih =>
    refine ih ?_
    unfold addBinding
    split
    next => exact areDistinct
    next isNew => simpa [nodup_append, areDistinct] using isNew

/-- Of several bindings of a parameter the first one is kept. -/
theorem find?_foldl_addBinding (listed bindings : List Binding) (parameter : NodeId) :
    (bindings.foldl addBinding listed).find? (·.parameter == parameter) =
      (listed ++ bindings).find? (·.parameter == parameter) := by
  induction bindings generalizing listed with
  | nil => rw [append_nil, foldl_nil]
  | cons binding rest ih =>
    rw [foldl_cons, ih, addBinding]
    split
    next isListed =>
      rw [find?_append, find?_append, find?_cons]
      split
      next isOwn =>
        have isFound : (listed.find? (·.parameter == parameter)).isSome = true := by
          rwa [find?_isSome, ← any_eq_true, ← beq_iff_eq.mp isOwn]
        rw [Option.or_of_isSome isFound, Option.or_of_isSome isFound]
      next => rfl
    next => rw [append_assoc, singleton_append]

theorem binding?_eq_find? (areDefinite : ∀ frame ∈ stack.frames, frame.bindings.AreDefinite)
    (parameter : NodeId) :
    stack.binding? parameter =
      (stack.frames.flatMap (·.bindings.filled)).find? (·.parameter == parameter) := by
  unfold binding?
  rw [find?_flatMap]
  generalize stack.frames = frames at areDefinite ⊢
  induction frames with
  | nil => rfl
  | cons frame rest ih =>
    obtain ⟨isDefinite, areDefinite⟩ := forall_mem_cons.mp areDefinite
    rw [findSome?_cons, findSome?_cons, isDefinite.filter_get?, ih areDefinite]

theorem enclosing_isPrefix (tree : Tree) (inner : Frame) (frames : List Frame) :
    enclosing tree inner frames <+: frames := by
  induction frames generalizing inner with
  | nil => exact prefix_refl _
  | cons frame rest ih =>
    unfold enclosing
    split
    · exact (prefix_cons_inj frame).mpr (ih frame)
    · exact nil_prefix

/-- A frame is left out only below one that does not enclose the frame on top of it. -/
theorem exists_gap (isLeftOut : frame ∉ enclosing tree inner (before ++ frame :: after)) :
    ∃ upper lower, [upper, lower] <:+: inner :: before ++ [frame] ∧
      tree.encloses lower.scope upper.scope = false := by
  induction before generalizing inner with
  | nil =>
    cases encloses : tree.encloses frame.scope inner.scope with
    | false => exact ⟨inner, frame, infix_refl _, encloses⟩
    | true => simp [enclosing, encloses] at isLeftOut
  | cons next before ih =>
    cases encloses : tree.encloses next.scope inner.scope with
    | false => exact ⟨inner, next, (prefix_append [inner, next] _).isInfix, encloses⟩
    | true =>
      rw [cons_append, enclosing, if_pos encloses] at isLeftOut
      obtain ⟨upper, lower, isBetween, isGap⟩ := ih (not_mem_of_not_mem_cons isLeftOut)
      exact ⟨upper, lower, infix_cons isBetween, isGap⟩

/--
The bindings listed for a hierarchy are those that a search of all frames gives. A
parameter that a frame binds is left out only if, at that frame or above it, some frame
does not enclose the one on top of it.
-/
theorem binding_searches_agree (tree : Tree) (stack : Stack)
    (areDefinite : ∀ frame ∈ stack.frames, frame.bindings.AreDefinite) :
    ((stack.bindingsInHierarchy tree).map (·.parameter)).Nodup ∧
      (∀ binding ∈ stack.bindingsInHierarchy tree,
        stack.binding? binding.parameter = some binding) ∧
      ∀ before frame after parameter, stack.frames = before ++ frame :: after →
        frame.bindings.isSatisfied parameter = true →
        parameter ∉ (stack.bindingsInHierarchy tree).map (·.parameter) →
          ∃ upper lower, [upper, lower] <:+: before ++ [frame] ∧
            tree.encloses lower.scope upper.scope = false := by
  have areDistinct : ((stack.bindingsInHierarchy tree).map (·.parameter)).Nodup :=
    nodup_foldl_addBinding _ nodup_nil
  have listed (parameter : NodeId) :
      (stack.bindingsInHierarchy tree).find? (·.parameter == parameter) =
        ((stack.top :: enclosing tree stack.top stack.below).flatMap (·.bindings.filled)).find?
          (·.parameter == parameter) := find?_foldl_addBinding [] _ parameter
  refine ⟨areDistinct, fun binding isListed => ?_, ?_⟩
  · obtain ⟨rest, isSplit⟩ := enclosing_isPrefix tree stack.top stack.below
    rw [binding?_eq_find? areDefinite, frames, ← isSplit, ← cons_append, flatMap_append,
      find?_append, ← listed, find?_key_eq areDistinct isListed, Option.some_or]
  · intro before frame after parameter isSplit isBound isMissing
    obtain ⟨binding, isBinding, -⟩ := (Option.any_eq_true _ _).mp isBound
    have isDefinite := areDefinite frame (isSplit ▸ mem_append_right _ mem_cons_self)
    rw [Bindings.get?_eq_find? isDefinite.areDistinct] at isBinding
    have isLeftOut : frame ∉ stack.top :: enclosing tree stack.top stack.below := by
      have isNone : (stack.bindingsInHierarchy tree).find? (·.parameter == parameter) = none := by
        simpa using isMissing
      rw [listed, find?_eq_none] at isNone
      intro isTaken
      have isFilled := mem_of_find?_eq_some isBinding
      have isOwn := find?_some isBinding
      exact isNone binding (mem_flatMap.mpr ⟨frame, isTaken, isFilled⟩) isOwn
    obtain ⟨top, below⟩ := stack
    cases before with
    | nil =>
      cases isSplit
      exact absurd mem_cons_self isLeftOut
    | cons upper before =>
      cases isSplit
      exact exists_gap (not_mem_of_not_mem_cons isLeftOut)

/-- A method in a class, a second class, and their frames with the other class in between. -/
def interrupted : Tree × Stack :=
  ( .ofSteps
      [.module "m", .member ⟨0⟩ "C" (.aggregate .classType false []),
        .member ⟨1⟩ "f" (.method none [] none),
        .member ⟨0⟩ "D" (.aggregate .classType false [])],
    ⟨⟨⟨2⟩, none, {}, .ofList [.ofValue ⟨4⟩ .null]⟩,
      [⟨⟨1⟩, none, {}, .ofList [.ofValue ⟨4⟩ (.bool true), .ofValue ⟨5⟩ .null]⟩,
        ⟨⟨3⟩, none, {}, (Bindings.ofList [.ofValue ⟨6⟩ .null]).declare ⟨4⟩⟩]⟩ )

/-- What only the lowest frame binds is not listed, as its scope is not around the one above. -/
theorem interrupted_binding_searches_agree :
    (interrupted.2.bindingsInHierarchy interrupted.1).map (·.parameter) = [⟨4⟩, ⟨5⟩] ∧
      ∃ upper lower, [upper, lower] <:+: interrupted.2.frames ∧
      interrupted.1.encloses lower.scope upper.scope = false := by
  have areListed :
      (interrupted.2.bindingsInHierarchy interrupted.1).map (·.parameter) = [⟨4⟩, ⟨5⟩] := by
    decide +kernel
  have areDefinite : ∀ frame ∈ interrupted.2.frames, frame.bindings.AreDefinite := by
    have areDistinct : ∀ frame ∈ interrupted.2.frames, frame.bindings.parameters.Nodup := by decide
    have areBound :
        ∀ frame ∈ interrupted.2.frames, ∀ binding ∈ frame.bindings.filled,
          binding.isBound = true := by
      decide
    exact fun frame isFrame => ⟨areDistinct frame isFrame, areBound frame isFrame⟩
  refine ⟨areListed, ?_⟩
  exact (binding_searches_agree interrupted.1 interrupted.2 areDefinite).2.2
    [_, _] _ [] ⟨6⟩ rfl rfl (areListed ▸ by decide)

end Stack

end DScope
