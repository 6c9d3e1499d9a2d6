import DScope.Proofs.Sieve.Run

namespace DScope

/-!
# Inspections keep to a sieve

A client may also read off a state without running anything. What it gets is read off
the tree at places that pass, so it is the same in both trees and passes.
-/

open Composite Sieve

/-- What a client may read off a state, indexed by the type of what it gets. -/
inductive Inspection : Type → Type
  | properties (symbol : Symbol) (staticOnly : Bool) : Inspection (List BuiltinProperty)
  | category (symbol : Symbol) : Inspection (Option Property.Category)
  | constant (owner : Property.Owner) (name : String) : Inspection (Option Value)
  | bindings : Inspection (List Binding)
  | binding (parameter : NodeId) : Inspection (Option Binding)
  | isInside (node : NodeId) : Inspection Bool
  | caret : Inspection (Option Position)
  | remembered (name : String) : Inspection (Option (List Symbol))

namespace Inspection

variable {α : Type}

/-- What is read. -/
def read (tree : Tree) (state : State) : {α : Type} → Inspection α → α
  | _, properties symbol staticOnly => Property.list tree symbol staticOnly
  | _, category symbol => Property.categoryOf tree symbol
  | _, constant owner name => Property.constant? tree owner name
  | _, bindings => state.stack.bindingsInHierarchy tree
  | _, binding parameter => state.stack.binding? parameter
  | _, isInside node => tree.encloses node state.stack.top.scope
  | _, caret => state.caret? tree
  | _, remembered name => state.remembered? name

/-- The data that is handed over. -/
instance : Composite (Inspection α) where
  parts
    | properties symbol _ | category symbol => parts symbol
    | constant owner _ => parts owner
    | _ => []
  loose
    | binding node | isInside node => [node]
    | _ => []

/-- What the result of an inspection is made up of; some results name nothing. -/
@[reducible]
def result : {α : Type} → Inspection α → Composite α
  | _, properties .. => inferInstance
  | _, constant .. => inferInstance
  | _, bindings => inferInstance
  | _, binding _ => inferInstance
  | _, remembered _ => inferInstance
  | _, category _ | _, isInside _ | _, caret => ⟨fun _ => [], fun _ => []⟩

variable {sieve : Sieve} {narrow wide : Tree} {known : Nat} {state : State}

theorem read_eq (covers : sieve.Covers narrow wide) (holds : sieve.Holds known state)
    {inspection : Inspection α} (passes : sieve.Passes inspection) :
    inspection.read wide state = inspection.read narrow state := by
  cases inspection with
  | properties symbol staticOnly =>
    have isOwnerType := Passes.ownerType? passes narrow
    simp only [read, Property.list]
    rw [covers.ownerType? passes]
    cases isType : Property.ownerType? narrow symbol with
    | none => rfl
    | some type => simp only [covers.categoryOf (passes_some.mp (isType ▸ isOwnerType))]
  | category symbol => exact covers.categoryOf passes
  | constant owner name => exact covers.constant? passes name
  | bindings => exact covers.bindingsInHierarchy holds.frames
  | binding parameter => rfl
  | isInside node => exact covers.encloses holds.frames.top.scope node
  | caret =>
    simp only [read, State.caret?]
    cases isStatement : state.stack.top.statement with
    | none => rfl
    | some statement =>
      dsimp only [Option.bind_eq_bind, Option.bind_some]
      rw [covers.statement? (holds.frames.top.statement isStatement)]
  | remembered name => rfl

theorem passes_read (holds : sieve.Holds known state) (tree : Tree) {inspection : Inspection α}
    (passes : sieve.Passes inspection) :
    @Sieve.Passes α inspection.result sieve (inspection.read tree state) := by
  have namesNothing {β : Type} (item : β) : @Sieve.Passes β ⟨fun _ => [], fun _ => []⟩ sieve item :=
    ⟨fun _ isPart => absurd isPart List.not_mem_nil, fun _ isNode => absurd isNode List.not_mem_nil⟩
  cases inspection with
  | properties symbol staticOnly =>
    have isOwnerType := Passes.ownerType? passes tree
    change sieve.Passes (Property.list tree symbol staticOnly)
    unfold Property.list
    cases isType : Property.ownerType? tree symbol with
    | none => exact passes_nil
    | some type =>
      refine passes_list.mpr fun property isProperty => ?_
      obtain ⟨entry, -, rfl⟩ := List.mem_map.mp isProperty
      exact (passes_some.mp (isType ▸ isOwnerType)).declaration entry
  | constant owner name => exact passes_propertyConstant? tree owner name
  | bindings => exact holds.frames.bindingsInHierarchy tree
  | binding parameter => exact holds.frames.binding? parameter
  | remembered name => exact holds.remembered? name
  | category symbol => exact namesNothing _
  | isInside node => exact namesNothing _
  | caret => exact namesNothing _

end Inspection

end DScope
