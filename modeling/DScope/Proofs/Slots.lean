import DScope.Proofs.Conversion
import DScope.Proofs.Instantiation
import DScope.Proofs.ModuleScope

namespace DScope

/-!
# Slots of template parameters

Which parameters have slots after bindings were added, declared or cleared, and what
the slots hold then.
-/

open List

namespace Bindings

variable {bindings : Bindings} {parameter other : NodeId} {slots : List Slot} {binding : Binding}

theorem map_parameter_putSlot {slot : Slot}
    (isContained : slot.parameter ∈ slots.map Slot.parameter) :
    (putSlot slot slots).map Slot.parameter = slots.map Slot.parameter := by
  induction slots with
  | nil => cases isContained
  | cons first rest ih =>
    rw [putSlot]
    split
    next isSame => rw [map_cons, map_cons, beq_iff_eq.mp isSame]
    next isOther =>
      rw [map_cons, mem_cons] at isContained
      have isLater := isContained.resolve_left fun isSame => isOther (beq_iff_eq.mpr isSame.symm)
      rw [map_cons, map_cons, ih isLater]

theorem parameters_set (isContained : binding.parameter ∈ bindings.parameters) :
    (bindings.set binding).parameters = bindings.parameters :=
  map_parameter_putSlot isContained

theorem isSatisfied_set (bindings : Bindings) (binding : Binding) :
    (bindings.set binding).isSatisfied binding.parameter = binding.isBound := by
  rw [isSatisfied, get?_set, if_pos rfl, Option.any_some]

/-- The parameter is declared and not bound. -/
structure IsOpen (bindings : Bindings) (parameter : NodeId) : Prop where
  isContained : bindings.contains parameter = true
  isUnbound : bindings.get? parameter = Option.none

theorem IsOpen.set_of_ne (isOpen : bindings.IsOpen parameter)
    (isOther : binding.parameter ≠ parameter) : (bindings.set binding).IsOpen parameter where
  isContained := by
    have isFound := find?_putSlot (.filled binding) bindings.slots parameter
    rw [if_neg (by exact isOther)] at isFound
    exact (congrArg Option.isSome isFound).trans isOpen.isContained
  isUnbound := by
    rw [get?_set, if_neg isOther]
    exact isOpen.isUnbound

theorem isOpen_append {before after : List Slot} (isNew : parameter ∉ before.map Slot.parameter) :
    IsOpen ⟨before ++ .empty parameter :: after⟩ parameter := by
  have isFound :
      slot? ⟨before ++ .empty parameter :: after⟩ parameter = some (.empty parameter) := by
    have isAbsent : before.find? (·.parameter == parameter) = Option.none := by
      refine find?_eq_none.mpr fun slot isSlot isSame => isNew ?_
      exact beq_iff_eq.mp isSame ▸ mem_map_of_mem isSlot
    rw [slot?, find?_append, isAbsent, Option.none_or]
    exact find?_cons_of_pos (beq_self_eq_true parameter)
  exact ⟨by rw [contains, isFound]; rfl, by rw [get?, isFound]; rfl⟩

section

variable (isOpen : bindings.IsOpen parameter)
include isOpen

theorem IsOpen.isSatisfied_eq_false : bindings.isSatisfied parameter = false := by
  rw [isSatisfied, isOpen.isUnbound]
  rfl

theorem IsOpen.exists_slot : ∃ slot ∈ bindings.slots, slot.isSatisfied = false := by
  obtain ⟨slot, isSlot⟩ := Option.isSome_iff_exists.mp isOpen.isContained
  have isEmpty := isOpen.isUnbound
  rw [get?, isSlot, Option.bind_some] at isEmpty
  exact ⟨slot, mem_of_find?_eq_some isSlot, by rw [Slot.isSatisfied, isEmpty]; rfl⟩

theorem IsOpen.isEmpty_eq_false : bindings.isEmpty = false := by
  obtain ⟨slot, isSlot, -⟩ := isOpen.exists_slot
  exact isEmpty_eq_false_iff.mpr (ne_nil_of_mem isSlot)

theorem IsOpen.allSatisfied_eq_false : bindings.allSatisfied = false := by
  obtain ⟨slot, isSlot, isUnsatisfied⟩ := isOpen.exists_slot
  exact all_eq_false.mpr ⟨slot, isSlot, by rw [isUnsatisfied]; decide⟩

end

theorem parameters_clear (bindings : Bindings) (parameter : NodeId) :
    (bindings.clear parameter).parameters = bindings.parameters := by
  unfold clear
  split
  next isContained => exact map_parameter_putSlot (contains_iff.mp isContained)
  next => rfl

theorem get?_clear (bindings : Bindings) (parameter other : NodeId) :
    (bindings.clear parameter).get? other =
      if parameter = other then Option.none else bindings.get? other := by
  unfold clear
  split
  next =>
    rw [get?, slot?, find?_putSlot, Slot.parameter]
    split
    · rfl
    · rfl
  next isAbsent =>
    split
    next isSame =>
      rw [contains, Bool.not_eq_true, Option.isSome_eq_false_iff, Option.isNone_iff_eq_none]
        at isAbsent
      rw [← isSame, get?, isAbsent]
      rfl
    next => rfl

theorem mem_parameters_declare :
    other ∈ (bindings.declare parameter).parameters ↔
      other ∈ bindings.parameters ∨ other = parameter := by
  unfold declare
  split
  next isContained =>
    have isMember : parameter ∈ bindings.parameters := contains_iff.mp isContained
    exact ⟨.inl, fun isEither => isEither.elim id fun isSame => isSame ▸ isMember⟩
  next => simp [parameters, Slot.parameter]

theorem nodup_parameters_declare (areDistinct : bindings.parameters.Nodup) :
    (bindings.declare parameter).parameters.Nodup := by
  unfold declare
  split
  next => exact areDistinct
  next isAbsent =>
    have isNew : parameter ∉ bindings.parameters := fun isMember =>
      isAbsent (contains_iff.mpr isMember)
    simpa [parameters, Slot.parameter, nodup_append] using
      ⟨areDistinct, fun slot isSlot isSame => isNew (isSame ▸ mem_map_of_mem isSlot)⟩

section Several

variable (declared : List NodeId)

theorem mem_parameters_foldl_declare :
    other ∈ (declared.foldl declare bindings).parameters ↔
      other ∈ bindings.parameters ∨ other ∈ declared := by
  induction declared generalizing bindings with
  | nil => simp
  | cons first rest ih =>
    rw [foldl_cons, ih, mem_parameters_declare, mem_cons, or_assoc]

theorem nodup_parameters_foldl_declare (areDistinct : bindings.parameters.Nodup) :
    (declared.foldl declare bindings).parameters.Nodup := by
  induction declared generalizing bindings with
  | nil => exact areDistinct
  | cons first rest ih =>
    exact ih (nodup_parameters_declare areDistinct)

theorem parameters_foldl_clear (bindings : Bindings) :
    (declared.foldl clear bindings).parameters = bindings.parameters := by
  induction declared generalizing bindings with
  | nil => rfl
  | cons first rest ih =>
    rw [foldl_cons, ih, parameters_clear]

theorem get?_foldl_clear (bindings : Bindings) (other : NodeId) :
    (declared.foldl clear bindings).get? other =
      if other ∈ declared then Option.none else bindings.get? other := by
  induction declared generalizing bindings with
  | nil => rfl
  | cons first rest ih =>
    rw [foldl_cons, ih, get?_clear]
    by_cases isFirst : first = other <;> by_cases isLater : other ∈ rest <;>
      simp [isFirst, Ne.symm]

end Several

theorem allSatisfied_iff (areDistinct : bindings.parameters.Nodup) :
    bindings.allSatisfied = true ↔
      ∀ parameter ∈ bindings.parameters, bindings.isSatisfied parameter = true := by
  have isFound : ∀ slot ∈ bindings.slots,
      bindings.isSatisfied slot.parameter = slot.isSatisfied := by
    intro slot isSlot
    rw [isSatisfied, get?, slot?, find?_key_eq areDistinct isSlot]
    rfl
  unfold allSatisfied parameters
  rw [all_eq_true, forall_mem_map]
  exact forall₂_congr fun slot isSlot => by rw [isFound slot isSlot]

theorem mergeMissing_append {bound : List Slot} {parameters : List NodeId} {types : List Symbol}
    (areDistinct : parameters.Nodup)
    (areNew : ∀ parameter ∈ parameters, parameter ∉ bound.map Slot.parameter)
    (isComplete : types.length = parameters.length) :
    mergeMissing ⟨bound ++ parameters.map .empty⟩ (ofTypes parameters types) =
      ⟨bound ++ (ofTypes parameters types).slots⟩ := by
  induction parameters generalizing bound types with
  | nil => rfl
  | cons parameter rest ih =>
    cases types with
    | nil => cases isComplete
    | cons type later =>
      obtain ⟨isOther, areDistinct⟩ := nodup_cons.mp areDistinct
      have isNew := areNew parameter mem_cons_self
      have isOpen : isSatisfied ⟨bound ++ .empty parameter :: rest.map .empty⟩ parameter = false :=
        (isOpen_append isNew).isSatisfied_eq_false
      have isMerged :=
        ih areDistinct (areNew_next (.filled (.ofType parameter type)) isOther areNew)
          (Nat.succ.inj isComplete)
      rw [← set_next isNew, append_assoc] at isMerged
      refine Eq.trans ?_ isMerged
      change foldl _
        (if isSatisfied ⟨bound ++ .empty parameter :: rest.map .empty⟩ parameter then _ else _)
        _ = _
      rw [isOpen]
      rfl

theorem mergeMissing_ofTypes
    {parameters : List NodeId} {types : List Symbol} (areDistinct : parameters.Nodup)
    (isComplete : types.length = parameters.length) :
    (ofOpen parameters).mergeMissing (ofTypes parameters types) = ofTypes parameters types :=
  @mergeMissing_append [] parameters types areDistinct (fun _ _ => not_mem_nil) isComplete

/-- One open slot for each of the parameters, and no others. -/
structure AreOpenFor (parameters : List NodeId) (bindings : Bindings) : Prop where
  areDistinct : bindings.parameters.Nodup
  haveSlots : ∀ parameter, parameter ∈ bindings.parameters ↔ parameter ∈ parameters
  areOpen : ∀ parameter ∈ parameters, bindings.get? parameter = Option.none

theorem areOpenFor_cleared {parameters : List NodeId} (areDistinct : bindings.parameters.Nodup)
    (areOwn : ∀ parameter ∈ bindings.parameters, parameter ∈ parameters) :
    (parameters.foldl clear (parameters.foldl declare bindings)).AreOpenFor parameters where
  areDistinct := by
    rw [parameters_foldl_clear]
    exact nodup_parameters_foldl_declare parameters areDistinct
  haveSlots := by
    intro parameter
    rw [parameters_foldl_clear, mem_parameters_foldl_declare]
    exact ⟨fun isEither => isEither.elim (areOwn parameter) id, .inr⟩
  areOpen := by
    intro parameter isMember
    rw [get?_foldl_clear, if_pos isMember]

end Bindings

end DScope
