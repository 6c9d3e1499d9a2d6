import DScope.Proofs.CallAgreement
import DScope.Proofs.Drafting
import DScope.Proofs.ModuleScope

namespace DScope

/-!
# Listed and resolved properties

The list of a symbol's properties and their resolution read the same tables: a name is
resolved to the one property that is listed under it, and to nothing where none is. Some
properties have a type that the program declares, and only the lookup of such a type can
keep a listed property from being resolved.
-/

open List Property

namespace Property

variable {program : Program} {state : State} {tree : Tree} {owner type : Symbol} {name : String}
  {listed : BuiltinProperty}

/-- The types of properties that the program declares. -/
def FixedType.declared : List FixedType :=
  [.sizeType, .stringType, .classDescription]

theorem TypeRule.exists_reads
    {rule : TypeRule} (isKnown : ∀ type ∈ FixedType.declared, rule ≠ .fixed type)
    (state : State) (owner : Symbol) :
    ∃ base, Query.Reads program state (rule.symbol? owner) base := by
  cases rule with
  | fixed type =>
    cases type with
    | basic | voidPointer => exact ⟨_, .pure _⟩
    | sizeType | stringType | classDescription => exact absurd rfl (isKnown _ (by decide))
  | _ => exact ⟨_, .pure _⟩

theorem nodup_entries (category : Option Category) : ((entries category).map (·.name)).Nodup := by
  cases category with
  | none => decide
  | some category => cases category <;> decide

theorem list_eq (isType : ownerType? tree owner = some type) (staticOnly : Bool) :
    list tree owner staticOnly =
      ((entries (categoryOf tree type)).filter
        fun entry => !staticOnly || !entry.requiresInstance).map (·.declaration type) := by
  rw [list, isType]

/-- A listed property comes from an entry of the tables that count for the owner's type. -/
theorem exists_entry (isListed : listed ∈ list tree owner false) :
    ∃ type entry,
      ownerType? tree owner = some type ∧
        find? (categoryOf tree type) listed.name = some entry ∧ entry.declaration type = listed := by
  unfold list at isListed
  split at isListed
  next => cases isListed
  next type isType =>
    obtain ⟨entry, isKept, rfl⟩ := mem_map.mp isListed
    have isEntry := (mem_filter.mp isKept).1
    exact ⟨type, entry, isType, find?_key_eq (nodup_entries _) isEntry, rfl⟩

theorem filter_list_eq (isListed : listed ∈ list tree owner false) :
    (list tree owner false).filter (·.name == listed.name) = [listed] := by
  obtain ⟨type, entry, isType, isFound, isDeclared⟩ := exists_entry isListed
  have areEntries : (entries (categoryOf tree type)).filter (·.name == listed.name) = [entry] := by
    rw [filter_key_eq (nodup_entries _)]
    exact congrArg Option.toList isFound
  have areKept :
      (entries (categoryOf tree type)).filter (fun entry => !false || !entry.requiresInstance) =
        entries (categoryOf tree type) :=
    filter_eq_self.mpr fun _ _ => rfl
  rw [list_eq isType, areKept, filter_map]
  exact (congrArg (map (·.declaration type)) areEntries).trans (congrArg ([·]) isDeclared)

/-- The list without the properties of instances leaves out those and nothing else. -/
theorem mem_list_static_iff (isListed : listed ∈ list tree owner false) :
    listed ∈ list tree owner true ↔ listed.requiresInstance = false := by
  obtain ⟨type, entry, isType, isFound, rfl⟩ := exists_entry isListed
  rw [list_eq isType, mem_map]
  constructor
  · rintro ⟨other, isKept, isSame⟩
    have isStatic : other.requiresInstance = false := by simpa using (mem_filter.mp isKept).2
    exact (congrArg BuiltinProperty.requiresInstance isSame).symm.trans isStatic
  · intro isStatic
    have isStatic : entry.requiresInstance = false := isStatic
    exact ⟨entry, mem_filter.mpr ⟨mem_of_find?_eq_some isFound, by simp [isStatic]⟩, rfl⟩

theorem reads_none (isMissing : ∀ listed ∈ list program.tree owner false, listed.name ≠ name) :
    Query.Reads program state (member? owner name) none := by
  refine .bind .tree ?_
  cases isType : ownerType? program.tree owner with
  | none => exact .pure none
  | some type =>
    dsimp only
    cases isFound : find? (categoryOf program.tree type) name with
    | none => exact .pure none
    | some entry =>
      have isNamed : entry.name = name := by simpa using find?_some isFound
      refine absurd isNamed (isMissing (entry.declaration type) ?_)
      rw [list_eq isType]
      exact mem_map_of_mem (mem_filter.mpr ⟨mem_of_find?_eq_some isFound, rfl⟩)

/-- Resolving a listed property is looking up its type. -/
theorem exists_run_eq (isListed : listed ∈ list program.tree owner false) (state : State) :
    ∃ (rule : TypeRule) (type : Symbol) (constant : Option Value), ∀ evaluator limit,
      Engine.run program evaluator limit (member? owner listed.name) state =
        Engine.run program evaluator limit
          (do return some (.ofShape (.member
            ⟨.builtin listed, ← rule.symbol? type, .none, constant⟩)))
          state := by
  obtain ⟨type, entry, isType, isFound, isDeclared⟩ := exists_entry isListed
  refine ⟨entry.type, type, entry.constant.bind (·.constant? (.type owner)), fun evaluator limit => ?_⟩
  have reads : Query.Reads program state Query.tree program.tree := .tree
  refine (Engine.run_bind_of_run (reads _ rfl)).trans ?_
  rw [isType]
  dsimp only
  rw [isFound, ← isDeclared]

end Property

/--
The properties listed for a symbol are those that resolve. Each name is listed once, and
without an instance only if it needs none. Resolving one looks up its type and does
nothing else, and so it returns unless that type is one that the library declares.
-/
theorem listed_properties_are_the_resolvable_ones
    (program : Program)
    (evaluator : Evaluator)
    (state : State)
    (limit : Nat)
    (owner : Symbol)
    (name : String) :
    let resolved :=
      Engine.run program evaluator limit (Operation.resolveProperty owner name).query state
    (∀ found final, resolved = .ok (found, final) →
        ((∃ listed ∈ list program.tree owner false, listed.name = name) ↔ found.isSome = true)) ∧
      ((∀ listed ∈ list program.tree owner false, listed.name ≠ name) →
        resolved = .ok (none, state)) ∧
      ∀ listed ∈ list program.tree owner false, listed.name = name →
        (list program.tree owner false).filter (·.name == name) = [listed] ∧
          (listed ∈ list program.tree owner true ↔ listed.requiresInstance = false) ∧
          ∃ (rule : TypeRule) (type : Symbol) (constant : Option Value),
            let member (base : Option Symbol) : Symbol :=
              .ofShape (.member ⟨.builtin listed, base, .none, constant⟩)
            resolved =
                Engine.run program evaluator limit
                  (do return some (member (← rule.symbol? type))) state ∧
              ((∀ fixed ∈ FixedType.declared, rule ≠ .fixed fixed) →
                ∃ base, resolved = .ok (some (member base), state)) := by
  intro resolved
  have isNothing (isMissing : ∀ listed ∈ list program.tree owner false, listed.name ≠ name) :
      resolved = .ok (none, state) :=
    reads_none isMissing _ rfl
  refine ⟨fun found final returned => ⟨?_, fun isFound => ?_⟩, isNothing, ?_⟩
  · rintro ⟨listed, isListed, rfl⟩
    obtain ⟨rule, type, constant, isRun⟩ := exists_run_eq isListed state
    obtain ⟨base, later, -, isReturned⟩ :=
      Query.bind_eq_ok.mp ((isRun evaluator limit).symm.trans returned)
    cases isReturned
    rfl
  · by_contra isMissing
    rw [isNothing fun listed isListed isNamed => isMissing ⟨listed, isListed, isNamed⟩] at returned
    cases returned
    cases isFound
  · rintro listed isListed rfl
    refine ⟨filter_list_eq isListed, mem_list_static_iff isListed, ?_⟩
    obtain ⟨rule, type, constant, isRun⟩ := exists_run_eq isListed state
    refine ⟨rule, type, constant, isRun evaluator limit, fun isKnown => ?_⟩
    obtain ⟨base, reads⟩ := rule.exists_reads isKnown state type
    exact ⟨base, (isRun evaluator limit).trans (Engine.run_bind_of_run (reads _ rfl))⟩

/-- An alias `string` of an array whose length cannot be negated. -/
def Draft.unmeasured : List Step :=
  [ .module "m",
    .member ⟨0⟩ "string"
      (.aliased
        (some (.sizedArray (.basic .int)
          (.unary .negate (.literal (.integer (-170141183460469231731687303715884105728) .int)))))
        none) ]

/-- `int.stringof` is listed, and looking up its type ends the program. -/
theorem property_of_unmeasured_type_is_only_listed :
    (∃ listed ∈ Property.list (.ofSteps Draft.unmeasured) (.primitive .int) false,
        listed.name = "stringof") ∧
      ∀ limit, 8 ≤ limit →
        Engine.run (.ofTree (.ofSteps Draft.unmeasured)) .standard limit
            (Operation.resolveProperty (.primitive .int) "stringof").query (.start ⟨0⟩ none) =
          .error .negationOverflow := by
  refine ⟨by decide +kernel, fun limit isHigh => ?_⟩
  have halts :
      (fun _ => ()) <$>
          Engine.run (.ofTree (.ofSteps Draft.unmeasured)) .standard 8
            (Operation.resolveProperty (.primitive .int) "stringof").query (.start ⟨0⟩ none) =
        .error .negationOverflow := by
    decide +kernel
  cases isRun :
      Engine.run (.ofTree (.ofSteps Draft.unmeasured)) .standard 8
        (Operation.resolveProperty (.primitive .int) "stringof").query (.start ⟨0⟩ none) with
  | ok result =>
    rw [isRun] at halts
    cases halts
  | error reason =>
    rw [isRun] at halts
    cases halts
    rw [Engine.run_eq_of_le (Operation.query_orderly _ _) _ isHigh (isRun ▸ nofun), isRun]

end DScope
