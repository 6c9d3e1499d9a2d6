import DScope.Proofs.Coherence

namespace DScope

/-!
# Conversion of a type to itself

Where a type meets itself, its open template parameters meet themselves. So a
conversion of a type to itself binds a parameter to nothing but the parameter, and the
next place where the same parameter stands agrees with that binding.
-/

/-- Every parameter that is bound is bound to the parameter itself, left open. -/
def Bindings.IsIdentity (bindings : Bindings) : Prop :=
  ∀ parameter binding,
    bindings.get? parameter = some binding →
      ∃ type, binding = .ofType parameter type ∧ type.shape.unbound? = some parameter

theorem Bindings.isIdentity_none : Bindings.none.IsIdentity := by
  intro parameter binding isBound
  cases isBound

theorem Symbol.bindParameter_succeeds
    {source : Symbol} {parameter : NodeId} (isUnbound : source.shape.unbound? = some parameter) :
    Succeeds Bindings.IsIdentity (source.bindParameter parameter) := by
  intro bindings isIdentity
  cases isFound : bindings.get? parameter with
  | some binding =>
    obtain ⟨type, rfl, isOwn⟩ := isIdentity parameter binding isFound
    refine ⟨bindings, bindParameter_iff.mpr (.inl ⟨_, isFound, ?_, rfl⟩), isIdentity⟩
    rintro bound ⟨⟩
    rw [sameType_of_parameter (Shape.eq_of_unbound? isUnbound) (Shape.eq_of_unbound? isOwn),
      optionSameType]
  | none =>
    refine ⟨_, bindParameter_iff.mpr (.inr ⟨isFound, rfl⟩), fun other binding isBound => ?_⟩
    rw [Bindings.get?_set] at isBound
    split at isBound
    next isSame =>
      cases isBound
      subst isSame
      exact ⟨source, rfl, isUnbound⟩
    next => exact isIdentity other binding isBound

/--
Every type in which nothing is left open but template parameters, none of them bound
directly to another, converts to itself, wherever and however often a parameter stands
in it.
-/
theorem every_type_converts_to_itself
    {symbol : Symbol}
    (isComparable : symbol.IsComparable) :
    symbol.convertsTo symbol = true := by
  have areSettled : AreSettled Bindings.IsIdentity symbol.parts := fun part isPart =>
    ⟨isComparable part isPart, fun _ => Symbol.bindParameter_succeeds⟩
  have meets : Symbol.Meets Bindings.IsIdentity symbol symbol symbol :=
    ⟨Symbol.sameType_self isComparable, .inl ⟨rfl, areSettled⟩⟩
  have succeeds : Succeeds Bindings.IsIdentity (symbol.convert symbol) :=
    Symbol.convertBelow_succeeds symbol (fun _ => meets.agree) fun _ => meets.strip
  obtain ⟨deduced, converts, -⟩ := succeeds .none Bindings.isIdentity_none
  rw [Symbol.convertsTo, converts]

/-- A map from a parameter to pointers to it, together with the parameter itself. -/
theorem map_of_parameter_converts_to_itself :
    let element := Symbol.parameter (.unbound ⟨1⟩)
    let map := Symbol.ofShape (.associative (some element)
      (some (.ofShape (.pointer (some element)))))
    let both := Symbol.ofShape (.tuple [.type map, .type element])
    both.IsComparable ∧ both.convertsTo both = true := by
  intro element map both
  have isComparable : both.IsComparable := by decide +kernel
  exact ⟨isComparable, every_type_converts_to_itself isComparable⟩

end DScope
