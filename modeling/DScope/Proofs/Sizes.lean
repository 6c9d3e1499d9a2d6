import DScope.Proofs.Conversion
import DScope.Proofs.Nesting

namespace DScope

/-!
# Sizes of types

The size of a type looks through the wrappers around it and around the elements of
its fixed arrays, but not through those around the base of an enumeration. Where an
enumeration with a wrapped base is measured there is no size at all; everywhere else
the size is that of the layout.
-/

open Symbol

namespace Symbol

/-- The size of the values of a type, with wrappers taken off at every level. -/
def layout? : Symbol → Option Nat
  | ⟨.primitive type, _, _, _⟩ => type.size?
  | ⟨.pointer _, _, _, _⟩ | ⟨.callable _, _, _, _⟩ | ⟨.associative _ _, _, _, _⟩ => some 8
  | ⟨.array _ none, _, _, _⟩ => some 16
  | ⟨.array (some element) (some length), _, _, _⟩ =>
    (element.layout?.map (· * length)).filter Integer.fitsWord
  | ⟨.enumeration _ (some base), _, _, _⟩ => base.layout?
  | ⟨.member ⟨_, some base, _, _⟩, _, _, _⟩ => base.layout?
  | ⟨.aliased _ (some base), _, _, _⟩ => base.layout?
  | ⟨.parameter ⟨_, some base, _⟩, _, _, _⟩ => base.layout?
  | _ => none

/-- Whether an enumeration that counts for the size has a wrapper for its base. -/
def measuresWrappedBase : Symbol → Bool
  | ⟨.array (some element) (some _), _, _, _⟩ => element.measuresWrappedBase
  | ⟨.enumeration _ (some base), _, _, _⟩ => base.wrapped?.isSome || base.measuresWrappedBase
  | ⟨.member ⟨_, some base, _, _⟩, _, _, _⟩ => base.measuresWrappedBase
  | ⟨.aliased _ (some base), _, _, _⟩ => base.measuresWrappedBase
  | ⟨.parameter ⟨_, some base, _⟩, _, _, _⟩ => base.measuresWrappedBase
  | _ => false

/-- The size of the layout, unless it is that of an enumeration with a wrapped base. -/
def plainLayout? (symbol : Symbol) : Option Nat :=
  if symbol.measuresWrappedBase then none else symbol.layout?

theorem wrapped?_of_isStripped {symbol : Symbol} (isStripped : symbol.shape.isStripped = true) :
    symbol.wrapped? = none := by
  unfold wrapped?
  split <;> simp_all [Shape.isStripped]

end Symbol

namespace Property

theorem layoutSize_false (symbol : Symbol) :
    layoutSize false symbol = if symbol.wrapped?.isSome then none else layoutSize true symbol := by
  fun_cases layoutSize true symbol with
  | case14 =>
    simp_all [layoutSize]
  | _ => simp_all [layoutSize, wrapped?]

theorem layoutSize_true (symbol : Symbol) : layoutSize true symbol = symbol.plainLayout? := by
  unfold plainLayout?
  fun_induction layout? symbol with
  | case6 element length origin modifier tags ih =>
    rw [layoutSize, ih, measuresWrappedBase]
    by_cases isHidden : element.measuresWrappedBase <;> simp [isHidden]
  | case7 node base origin modifier tags ih =>
    rw [layoutSize, layoutSize_false, ih, measuresWrappedBase]
    by_cases isWrapper : base.wrapped?.isSome <;> simp [isWrapper]
  | case8 | case9 | case10 =>
    simpa
  | case11 => simp_all [layoutSize]
  | _ => simp [layoutSize, measuresWrappedBase]

theorem layoutSize_strip (symbol : Symbol) :
    symbol.strip.bind (layoutSize true) = layoutSize true symbol := by
  fun_induction strip symbol with
  | case2 | case4 | case5 => simpa
  | _ => rfl

theorem Owner.size?_type (symbol : Symbol) : (Owner.type symbol).size? = symbol.plainLayout? := by
  rw [← layoutSize_true, ← layoutSize_strip]
  change symbol.strip.bind (layoutSize false) = _
  cases isType : symbol.strip with
  | none => rfl
  | some type =>
    have isNoWrapper : type.wrapped? = none := wrapped?_of_isStripped (isStripped_of_strip isType)
    simp [layoutSize_false, isNoWrapper]

theorem exists_find?_sizeof :
    ∃ entry : Entry,
      (∀ category, find? category "sizeof" = some entry) ∧
        entry.type = .fixed (.basic .uint) ∧ entry.constant = some .size := by
  have isFound (category : Option Category) : find? category "sizeof" = generalEntries[1]? := by
    rfl
  exact ⟨_, isFound, rfl, rfl⟩

end Property

theorem Symbol.fitsWord_of_layout?
    {symbol : Symbol} {size : Nat} (isSize : symbol.layout? = some size) :
    Integer.fitsWord size := by
  fun_induction layout? symbol with
  | case1 type =>
    cases type <;> cases isSize <;> decide
  | case6 => exact (Option.filter_eq_some_iff.mp isSize).2
  | case7 _ _ _ _ _ ih | case9 _ _ _ _ _ ih =>
    exact ih isSize
  | case8 _ _ _ _ _ _ _ ih => exact ih isSize
  | case10 _ _ _ _ _ _ ih => exact ih isSize
  | case11 => cases isSize
  | _ =>
    cases isSize
    decide

/--
The size of a type, as a constant and as a member, is that of its layout, except that
there is none where an enumeration with a wrapped base is measured.
-/
theorem sizes_see_through_wrappers_above_enumerations
    (program : Program)
    (state : State)
    (symbol : Symbol) :
    let size := symbol.plainLayout?.map (Value.integer · .uint)
    Property.constant? program.tree (.type symbol) "sizeof" = size ∧
      (∃ entry : Property.Entry,
        (∀ category, Property.find? category "sizeof" = some entry) ∧
          Query.Reads program state (Property.member? symbol "sizeof")
            ((Property.ownerType? program.tree symbol).map fun type =>
              .ofShape (.member ⟨.builtin (entry.declaration type), some (.primitive .uint), .none,
                size⟩))) ∧
      ∀ bytes, symbol.layout? = some bytes → Integer.fitsWord bytes := by
  obtain ⟨entry, isEntry, isType, isConstant⟩ := Property.exists_find?_sizeof
  have isSize : (Property.Owner.type symbol).size? = symbol.plainLayout? :=
    Property.Owner.size?_type symbol
  refine ⟨?_, ⟨entry, isEntry, ?_⟩, fun _ => fitsWord_of_layout?⟩
  · simp [Property.constant?, isEntry, isConstant, Property.ConstantRule.constant?, isSize]
  · apply Query.Reads.bind .tree
    cases isOwner : Property.ownerType? program.tree symbol with
    | none => exact .pure none
    | some type =>
      simp only [isEntry, isConstant, isType, Property.ConstantRule.constant?,
        isSize]
      exact .pure _

/-- An enumeration over the integer type that a template parameter is bound to. -/
def Symbol.enumerationOverParameter : Symbol :=
  .ofShape (.enumeration ⟨3⟩ (some (.ofShape (.parameter ⟨⟨2⟩, some (.primitive .int), none⟩))))

/-- An enumeration over a bound parameter is laid out, but its size is no constant. -/
theorem enumeration_over_parameter_has_no_size :
    Symbol.enumerationOverParameter.layout? = some 4 ∧
      Property.constant? ⟨#[], #[]⟩ (.type .enumerationOverParameter) "sizeof" = none := by
  decide

end DScope
