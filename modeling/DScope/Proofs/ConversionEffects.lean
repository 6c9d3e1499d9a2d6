import DScope.Proofs.Coherence
import DScope.Template.Deduction

namespace DScope

variable {source : Symbol} {bindings deduced : Bindings}

/-!
# What a conversion leaves behind

A conversion only adds bindings, for parameters that its target leaves open. A
conversion that fails does so at some place of the target, and the bindings made at
the places before it stay.
-/

namespace Bindings

variable {parts : List Symbol}

theorem Deduces.eq_of_nil (deduces : bindings.Deduces parts [] deduced) : deduced = bindings := by
  cases deduces with
  | refl => rfl
  | bind _ _ isPlace => cases isPlace

theorem prefix_putSlot (slot : Slot) (slots : List Slot) :
    slots.map Slot.parameter <+: (putSlot slot slots).map Slot.parameter := by
  induction slots with
  | nil => exact List.nil_prefix
  | cons other rest ih =>
    unfold putSlot
    split
    next isSame => simp [beq_iff_eq.mp isSame]
    next => simpa using ih

theorem Deduces.keepsOrder {places : List NodeId}
    (deduces : bindings.Deduces parts places deduced) :
    bindings.slots.map Slot.parameter <+: deduced.slots.map Slot.parameter := by
  induction deduces with
  | refl => exact List.prefix_rfl
  | bind _ _ _ _ _ ih => exact ih.trans (prefix_putSlot _ _)

end Bindings

namespace Template

theorem convertToAny_eq {candidates : List Symbol}
    (areDecided : ∀ target ∈ candidates, (source.convert target bindings).1 = false →
      (source.convert target bindings).2 = bindings) :
    convertToAny source candidates bindings =
      (candidates.find? fun target => (source.convert target bindings).1).map
        fun target => (source.convert target bindings).2 := by
  induction candidates with
  | nil => rfl
  | cons target rest ih =>
    have isUnchanged := areDecided target List.mem_cons_self
    have later := ih (List.forall_mem_cons.mp areDecided).2
    unfold convertToAny
    split
    next converted => simp [converted]
    next converted =>
      rw [converted] at isUnchanged
      cases isUnchanged rfl
      rw [later, List.find?_cons, converted]

end Template

/--
Whatever a conversion comes to, it keeps what was bound and the order of the slots. What
it binds is open in the target, and it binds it to a type inside the source that wraps
no other type.
-/
theorem conversion_only_adds_bindings
    (source target : Symbol)
    (bindings : Bindings) :
    let deduced := (source.convert target bindings).2
    bindings.KeptIn deduced ∧
      bindings.slots.map Slot.parameter <+: deduced.slots.map Slot.parameter ∧
      ∀ parameter binding,
        bindings.get? parameter = none → deduced.get? parameter = some binding →
          (∃ place ∈ target.parts, place.shape = .parameter (.unbound parameter)) ∧
            ∃ type ∈ source.parts,
              binding = .ofType parameter type ∧ type.shape.isStripped = true := by
  intro deduced
  have deduces : bindings.Deduces source.parts target.deducible deduced :=
    Symbol.convert_deduces rfl
  refine ⟨deduces.keeps, deduces.keepsOrder, fun parameter binding isNew isBound => ?_⟩
  rcases deduces.makes parameter binding isBound with isOld | ⟨isPlace, type, areParts, isStripped,
    isType⟩
  · cases isNew.symm.trans isOld
  · obtain ⟨place, isPart, isOpen⟩ := Symbol.exists_open_of_deducible.1 target parameter isPlace
    exact ⟨⟨place, isPart, Shape.eq_of_unbound? isOpen⟩,
      type, areParts type.self_mem_parts, isType, isStripped⟩

/-- A parameter that stands for `null` has no type, so another one is bound to it as it is. -/
theorem parameter_is_bound_to_bound_parameter :
    let null : Binding := .ofValue ⟨3⟩ .null
    null.isBound = true ∧
      ((Symbol.parameter null).convert (.parameter (.unbound ⟨2⟩)) .none).2.get? ⟨2⟩ =
        some (.ofType ⟨2⟩ (.parameter null)) :=
  ⟨rfl, rfl⟩

/--
A conversion that fails leaves bindings behind only for parameters that it binds before
it is decided. Candidates for which there are none are tried as if each were the first.
-/
theorem failed_conversions_bind_only_tentatively
    (source : Symbol)
    (bindings : Bindings) :
    (∀ target, (source.convert target bindings).1 = false →
        bindings.KeptIn (source.convert target bindings).2 ∧
          (∀ parameter, parameter ∉ target.tentative →
            (source.convert target bindings).2.get? parameter = bindings.get? parameter) ∧
          (target.tentative = [] → (source.convert target bindings).2 = bindings)) ∧
      ∀ candidates : List Symbol, (∀ target ∈ candidates, target.tentative = []) →
        Template.convertToAny source candidates bindings =
          (candidates.find? fun target => (source.convert target bindings).1).map
            fun target => (source.convert target bindings).2 := by
  have deduces (target : Symbol) (fails : (source.convert target bindings).1 = false) :
      bindings.Deduces source.parts target.tentative (source.convert target bindings).2 :=
    (Bindings.convert_effect.1 _ _ _ _ _).fails fails
  have isUnchanged (target : Symbol) (isDecided : target.tentative = [])
      (fails : (source.convert target bindings).1 = false) :
      (source.convert target bindings).2 = bindings :=
    (isDecided ▸ deduces target fails).eq_of_nil
  refine ⟨fun target fails => ⟨(deduces target fails).keeps, fun parameter isOther => ?_,
    fun isDecided => isUnchanged target isDecided fails⟩, fun candidates areDecided =>
      Template.convertToAny_eq fun target isTarget => isUnchanged target (areDecided target isTarget)⟩
  cases isBound : (source.convert target bindings).2.get? parameter with
  | some binding =>
    rcases (deduces target fails).makes parameter binding isBound with isOld | ⟨isPlace, -⟩
    · exact isOld.symm
    · exact absurd isPlace isOther
  | none =>
    rw [eq_comm, Option.eq_none_iff_forall_ne_some]
    intro binding isOld
    cases isBound.symm.trans ((deduces target fails).keeps parameter binding isOld)

/-- An associative array whose keys are bound before its values are found not to convert. -/
theorem failed_conversion_leaves_binding :
    let map (key value : Symbol) : Symbol := .ofShape (.associative (some key) (some value))
    let loose : Symbol := .parameter (.unbound ⟨2⟩)
    let source := map (.primitive .int) (.primitive .bool)
    let first := map loose (.primitive .char)
    let second := map (.primitive .int) loose
    source.convert first .none = (false, .ofList [.ofType ⟨2⟩ (.primitive .int)]) ∧
      (source.convert second .none).1 = true ∧
      (Template.convertToAny source [first, second] .none).isNone = true := by
  refine ⟨rfl, rfl, ?_⟩
  decide +kernel

end DScope
