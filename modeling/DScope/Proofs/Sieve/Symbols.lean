import DScope.Evaluation.Typing
import DScope.Proofs.Conversion
import DScope.Proofs.Sieve

namespace DScope

/-!
# What is computed from symbols that pass a sieve

Symbols are taken apart, tagged, bound and compared on the way through a query.
Whatever comes out of symbols that pass a sieve passes it as well.
-/

open Symbol Property

namespace Sieve

variable {sieve : Sieve} {symbol : Symbol} {node : NodeId} {binding : Binding} {argument : Argument}

/-! ## Building symbols -/

@[simp]
theorem passes_withModifier {modifier : Modifier} :
    sieve.Passes (symbol.withModifier modifier) ↔ sieve.Passes symbol := by
  have own : sieve.Passes symbol ↔ _ := passes_symbol
  exact passes_symbol.trans own.symm

theorem passes_basic (type : BasicType) : sieve.Passes (primitive type) :=
  passes_primitive

theorem passes_string : sieve.Passes string := by
  have isCharacter : sieve.Passes ((primitive .char).withModifier .immutable) :=
    passes_withModifier.mpr (passes_basic .char)
  exact passes_array.mpr (passes_some.mpr isCharacter)

theorem Passes.declared
    {shape : Shape} (passes : sieve.Passes (ofShape shape)) (isNode : sieve.node node) :
    sieve.Passes (declared node shape) := by
  rw [passes_symbol] at passes ⊢
  exact ⟨passes.1, passes_some.mpr (passes_node.mpr isNode), passes.2.2⟩

theorem passes_moduleSymbol (isNode : sieve.node node) : sieve.Passes (module node) :=
  (passes_module.mpr isNode).declared isNode

theorem passes_parameterSymbol (passes : sieve.Passes binding) : sieve.Passes (parameter binding) :=
  (passes_parameter.mpr passes).declared (passes_binding.mp passes).1

theorem passes_memberSymbol {base : Option Symbol} {bindings : Bindings} (isNode : sieve.node node)
    (isBase : sieve.Passes base) (areBound : sieve.Passes bindings) :
    sieve.Passes (member node base bindings) :=
  (passes_member.mpr ⟨passes_defined.mpr isNode, isBase, areBound, passes_none⟩).declared isNode

theorem Passes.withTag (passes : sieve.Passes symbol) {tag : Tag} (isTag : sieve.PassesTag tag) :
    sieve.Passes (symbol.withTag tag) := by
  rw [passes_symbol] at passes ⊢
  refine ⟨passes.1, passes.2.1, ?_⟩
  intro other isOther
  rcases List.mem_append.mp isOther with isOld | isNew
  · exact passes.2.2 other isOld
  · rw [List.mem_singleton.mp isNew]
    exact isTag

theorem Passes.withMissingTags
    (passes : sieve.Passes symbol) {tags : List Tag} (areTags : ∀ tag ∈ tags, sieve.PassesTag tag) :
    sieve.Passes (symbol.withMissingTags tags) := by
  unfold Symbol.withMissingTags
  induction tags generalizing symbol with
  | nil => exact passes
  | cons tag rest ih =>
    rw [List.foldl_cons]
    apply ih
    · split
      · exact passes
      · exact passes.withTag (areTags tag List.mem_cons_self)
    · exact (List.forall_mem_cons.mp areTags).2

theorem Passes.tags (passes : sieve.Passes symbol) : ∀ tag ∈ symbol.tags, sieve.PassesTag tag :=
  (passes_symbol.mp passes).2.2

theorem Passes.ofCandidates? {symbols : List Symbol} (passes : sieve.Passes symbols) :
    sieve.Passes (ofCandidates? symbols) := by
  unfold Symbol.ofCandidates?
  split
  · exact passes_none
  · exact passes_some.mpr (passes_cons.mp passes).1
  · exact passes_some.mpr (passes_ambiguous.mpr passes)

section

variable (passes : sieve.Passes symbol)
include passes

theorem Passes.candidates : sieve.Passes symbol.candidates := by
  unfold Symbol.candidates
  split
  next candidates isShape => exact passes_ambiguous.mp (passes.shape isShape)
  next => exact passes_cons.mpr ⟨passes, passes_nil⟩

/-! ## Taking symbols apart -/

theorem Passes.receiver? : sieve.Passes symbol.receiver? := by
  cases isReceiver : symbol.receiver? with
  | none => exact passes_none
  | some receiver =>
    obtain ⟨tag, isTag, isFound⟩ := List.exists_of_findSome?_eq_some isReceiver
    cases tag <;> cases isFound
    exact passes_some.mpr (passes.tags _ isTag)

theorem Passes.aggregate?
    {aggregate : Aggregate} (isAggregate : symbol.aggregate? = some aggregate) :
    sieve.Passes (ofShape (.aggregate aggregate)) := by
  unfold Symbol.aggregate? at isAggregate
  split at isAggregate <;> cases isAggregate
  next isShape => exact passes.shape isShape

theorem Passes.member? {member : Member} (isMember : symbol.member? = some member) :
    sieve.Passes (ofShape (.member member)) := by
  unfold Symbol.member? at isMember
  split at isMember <;> cases isMember
  next isShape => exact passes.shape isShape

theorem Passes.strip : sieve.Passes symbol.strip := by
  fun_induction Symbol.strip symbol with
  | case1 | case3 => exact passes_none
  | case2 _ base _ _ _ _ _ ih =>
    exact ih (passes_some.mp (passes_member.mp (passes.shape rfl)).2.1)
  | case4 _ base _ _ _ ih =>
    exact ih (passes_some.mp (passes_aliased.mp (passes.shape rfl)).2.1)
  | case5 _ base _ _ _ _ ih =>
    have isBound := passes_binding.mp (passes_parameter.mp (passes.shape rfl))
    exact ih (passes_some.mp isBound.2.1)
  | case6 => exact passes_some.mpr passes

theorem Passes.stripped : sieve.Passes symbol.stripped :=
  passes.strip.getD passes

theorem Passes.pointee : sieve.Passes symbol.pointee := by
  fun_induction Symbol.pointee symbol with
  | case1 target _ _ _ ih =>
    exact ih (passes_some.mp (passes_pointer.mp (passes.shape rfl)))
  | case2 => exact passes

theorem Passes.boundTarget? : sieve.Passes symbol.boundTarget? := by
  fun_induction Symbol.boundTarget? symbol with
  | case1 => exact passes_none
  | case2 _ base _ _ _ _ ih =>
    have isBound := passes_binding.mp (passes_parameter.mp (passes.shape rfl))
    exact ih (passes_some.mp isBound.2.1)
  | case3 => exact passes_some.mpr passes

theorem Passes.definition? (isDefined : symbol.definition? = some node) : sieve.node node := by
  unfold Symbol.definition? at isDefined
  split at isDefined <;> cases isDefined
  next isShape => exact (passes_aggregate.mp (passes.shape isShape)).1
  next isShape => exact (passes_enumeration.mp (passes.shape isShape)).1
  next isShape => exact (passes_aliased.mp (passes.shape isShape)).1
  next isShape => exact passes_module.mp (passes.shape isShape)
  next isShape => exact passes_defined.mp (passes_member.mp (passes.shape isShape)).1
  next isShape => exact (passes_binding.mp (passes_parameter.mp (passes.shape isShape))).1

end

theorem passes_noBindings : sieve.Passes Bindings.none :=
  passes_slots.mpr passes_nil

theorem Passes.bindings (passes : sieve.Passes symbol) : sieve.Passes symbol.bindings := by
  unfold Symbol.bindings Symbol.bindings?
  split
  next isShape => exact (passes_aggregate.mp (passes.shape isShape)).2.2.2.1
  next isShape => exact (passes_member.mp (passes.shape isShape)).2.2.1
  next => exact passes_noBindings

theorem Passes.withBindings
    (passes : sieve.Passes symbol) {bindings : Bindings} (areBound : sieve.Passes bindings) :
    sieve.Passes (symbol.withBindings bindings) := by
  obtain ⟨isShaped, isPlaced, areTagged⟩ := passes_symbol.mp passes
  unfold Symbol.withBindings
  split
  next aggregate isShape =>
    rw [isShape] at isShaped
    obtain ⟨isNode, isBase, areInterfaces, -, bases⟩ := passes_aggregate.mp isShaped
    exact passes_symbol.mpr
      ⟨passes_aggregate.mpr ⟨isNode, isBase, areInterfaces, areBound, bases⟩, isPlaced, areTagged⟩
  next member isShape =>
    rw [isShape] at isShaped
    obtain ⟨isDefined, isBase, -, isConstant⟩ := passes_member.mp isShaped
    exact passes_symbol.mpr
      ⟨passes_member.mpr ⟨isDefined, isBase, areBound, isConstant⟩, isPlaced, areTagged⟩
  next => exact passes

/-! ## Constants, arguments and bindings -/

theorem Passes.type? (passes : sieve.Passes argument) : sieve.Passes argument.type? := by
  unfold Argument.type?
  split
  · exact passes_some.mpr (passes_argumentType.mp passes)
  · exact passes_some.mpr (passes_valueType.mp (passes_argumentValue.mp passes))
  · exact passes_none

theorem passes_int {number : Int} : sieve.Passes (Value.int number) :=
  passes_of_parts_eq_nil rfl

theorem Passes.representedType {value : Value} (passes : sieve.Passes value) :
    sieve.Passes value.representedType := by
  induction isSize : sizeOf value using Nat.strongRecOn generalizing value with
  | ind size ih =>
    cases value with
    | integer number type | float number type | bool truth | character code =>
      exact passes_some.mpr (passes_basic _)
    | string text => exact passes_some.mpr passes_string
    | array items =>
      refine passes_some.mpr (passes_array.mpr ?_)
      cases items with
      | nil => exact passes_none
      | cons first rest =>
        subst isSize
        refine ih _ ?_ (passes_cons.mp (passes_valueArray.mp passes)).1 rfl
        simp
        omega
    | type symbol => exact passes_some.mpr (passes_valueType.mp passes)
    | null | symbolic text => exact passes_none

theorem passes_unbound (isNode : sieve.node node) : sieve.Passes (Binding.unbound node) :=
  passes_binding.mpr ⟨isNode, passes_none, passes_none⟩

theorem Passes.ofType (passes : sieve.Passes symbol) (isNode : sieve.node node) :
    sieve.Passes (Binding.ofType node symbol) :=
  passes_binding.mpr ⟨isNode, passes_some.mpr passes, passes_none⟩

theorem Passes.ofValue {value : Value} (passes : sieve.Passes value) (isNode : sieve.node node) :
    sieve.Passes (Binding.ofValue node value) :=
  passes_binding.mpr ⟨isNode, passes.representedType, passes_some.mpr passes⟩

theorem passes_ofSelf (isNode : sieve.node node) : sieve.Passes (Binding.ofSelf node) :=
  (passes_parameterSymbol (passes_unbound isNode)).ofType isNode

variable {bindings : Bindings}

theorem passes_bindings : sieve.Passes bindings ↔ sieve.Passes bindings.slots := by
  obtain ⟨slots⟩ := bindings
  exact passes_slots

theorem Passes.get? (passes : sieve.Passes bindings) (parameter : NodeId) :
    sieve.Passes (bindings.get? parameter) := by
  refine ((passes_bindings.mp passes).find? _).optionBind fun slot isSlot => ?_
  cases slot with
  | empty parameter => exact passes_none
  | filled binding => exact passes_some.mpr (passes_filled.mp isSlot)

theorem Passes.filled (passes : sieve.Passes bindings) : sieve.Passes bindings.filled := by
  rw [passes_list]
  intro binding member
  obtain ⟨slot, isSlot, isFilled⟩ := List.mem_filterMap.mp member
  cases slot <;> cases isFilled
  exact passes_filled.mp ((passes_bindings.mp passes).mem isSlot)

theorem Passes.putSlot
    {slots : List Slot} (passes : sieve.Passes slots) {slot : Slot} (isSlot : sieve.Passes slot) :
    sieve.Passes (Bindings.putSlot slot slots) := by
  induction slots with
  | nil => exact passes_cons.mpr ⟨isSlot, passes_nil⟩
  | cons other rest ih =>
    rw [passes_cons] at passes
    unfold Bindings.putSlot
    split
    · exact passes_cons.mpr ⟨isSlot, passes.2⟩
    · exact passes_cons.mpr ⟨passes.1, ih passes.2⟩

theorem Passes.set (passes : sieve.Passes bindings) (isBinding : sieve.Passes binding) :
    sieve.Passes (bindings.set binding) :=
  passes_slots.mpr ((passes_bindings.mp passes).putSlot (passes_filled.mpr isBinding))

theorem Passes.declare (passes : sieve.Passes bindings) (isNode : sieve.node node) :
    sieve.Passes (bindings.declare node) := by
  unfold Bindings.declare
  split
  · exact passes
  · have isSlot : sieve.Passes [Slot.empty node] := by simpa using isNode
    exact passes_slots.mpr (passes_append.mpr ⟨passes_bindings.mp passes, isSlot⟩)

theorem Passes.clear (passes : sieve.Passes bindings) (isNode : sieve.node node) :
    sieve.Passes (bindings.clear node) := by
  unfold Bindings.clear
  split
  · exact passes_slots.mpr ((passes_bindings.mp passes).putSlot (passes_empty.mpr isNode))
  · exact passes

theorem Passes.forParameters {parameters : List NodeId} (passes : sieve.Passes parameters) :
    sieve.Passes (Bindings.forParameters parameters) :=
  passes.foldl (fun _ _ isResult isNode => isResult.declare (passes_node.mp isNode))
    passes_noBindings

theorem Passes.mergeMissing
    (passes : sieve.Passes bindings) {other : Bindings} (isOther : sieve.Passes other) :
    sieve.Passes (bindings.mergeMissing other) := by
  refine isOther.filled.foldl (fun merged binding isMerged isBinding => ?_) passes
  split
  · exact isMerged
  · exact isMerged.set isBinding

/-! ## Conversion -/

theorem Passes.deducible (passes : sieve.Passes symbol) (isOpen : node ∈ symbol.deducible) :
    sieve.node node := by
  obtain ⟨place, isPart, isUnbound⟩ := exists_open_of_deducible.1 symbol node isOpen
  apply (passes.1 place isPart).nodes
  rw [Shape.eq_of_unbound? isUnbound]
  exact List.mem_append_right _ (List.mem_singleton.mpr rfl)

theorem Passes.ofDeduces {parts : List Symbol} {places : List NodeId} {deduced : Bindings}
    (passes : sieve.Passes bindings) (deduces : bindings.Deduces parts places deduced)
    (areParts : ∀ part ∈ parts, sieve.Admits part)
    (arePlaces : ∀ place ∈ places, sieve.node place) : sieve.Passes deduced := by
  induction deduces with
  | refl => exact passes
  | @bind _ _ type _ _ isPlace areOwn _ ih =>
    have isType : sieve.Passes type :=
      ⟨fun part isPart => areParts part (areOwn isPart), fun _ isLoose => by cases isLoose⟩
    exact ih.set (isType.ofType (arePlaces _ isPlace))

theorem Passes.convert
    (passes : sieve.Passes bindings) {source target : Symbol} (isSource : sieve.Passes source)
    (isTarget : sieve.Passes target) : sieve.Passes (source.convert target bindings).2 :=
  passes.ofDeduces (convert_deduces rfl) isSource.1 fun _ => isTarget.deducible

theorem Passes.convertToAny
    (passes : sieve.Passes bindings) {source : Symbol} {expected : List Symbol}
    (isSource : sieve.Passes source) (areExpected : sieve.Passes expected) :
    sieve.Passes (Template.convertToAny source expected bindings) := by
  induction expected generalizing bindings with
  | nil => exact passes_none
  | cons first rest ih =>
    rw [passes_cons] at areExpected
    have isConverted := passes.convert isSource areExpected.1
    unfold Template.convertToAny
    split
    next converted =>
      rw [converted] at isConverted
      exact passes_some.mpr isConverted
    next converted =>
      rw [converted] at isConverted
      exact ih isConverted areExpected.2

/-! ## Template arguments -/

theorem Passes.bind? (passes : sieve.Passes argument) (isNode : sieve.node node)
    (kind : ParameterKind) : sieve.Passes (kind.bind? node argument) := by
  have ofConstant {constant : Value} (isConstant : sieve.Passes (Argument.value constant)) :
      sieve.Passes (some (Binding.ofValue node constant)) :=
    passes_some.mpr ((passes_argumentValue.mp isConstant).ofValue isNode)
  induction kind with
  | type specialization default =>
    cases argument with
    | type symbol => exact passes.type?.optionMap fun _ isType => isType.ofType isNode
    | value value =>
      exact passes.type?.optionMap fun _ isType => isType.ofType isNode
    | unresolved text => exact passes_none
  | value type specialization default =>
    cases argument with
    | value value => cases value <;> first | exact passes_none | exact ofConstant passes
    | type _ | unresolved _ => exact passes_none
  | aliased specialization default =>
    cases argument with
    | type symbol => exact passes_some.mpr ((passes_argumentType.mp passes).ofType isNode)
    | value value =>
      cases value with
      | type symbol =>
        have isType := passes_valueType.mp (passes_argumentValue.mp passes)
        exact passes_some.mpr (isType.ofType isNode)
      | _ => exact ofConstant passes
    | unresolved text => exact passes_none
  | tuple => cases argument <;> exact passes_none
  | receiver inner ih =>
    cases argument <;> first | exact passes_none | exact ih

theorem passes_tupleSymbol {items : List Argument} (areItems : sieve.Passes items) :
    sieve.Passes (tuple items) :=
  passes_tuple.mpr areItems

theorem Passes.tupleItem {type : Option Symbol} (passes : sieve.Passes type) :
    sieve.Passes (Template.tupleItem type) := by
  cases type with
  | none => exact passes_unresolved
  | some type => exact passes_argumentType.mpr (passes_some.mp passes).stripped

/-! ## Properties -/

theorem Passes.peel (passes : sieve.Passes symbol) : sieve.Passes (Property.peel symbol) := by
  fun_induction Property.peel symbol with
  | case1 _ base _ _ _ ih =>
    exact ih (passes_some.mp (passes_aliased.mp (passes.shape rfl)).2.1)
  | case2 target _ _ _ ih =>
    exact ih (passes_some.mp (passes_pointer.mp (passes.shape rfl)))
  | case3 => exact passes

theorem Passes.element? (passes : sieve.Passes symbol) :
    sieve.Passes (Property.element? symbol) := by
  unfold Property.element?
  split
  next isShape => exact passes_array.mp (passes.shape isShape)
  next => exact passes_none

theorem Passes.key? (passes : sieve.Passes symbol) : sieve.Passes (Property.key? symbol) := by
  unfold Property.key?
  split
  next isShape => exact (passes_associative.mp (passes.shape isShape)).1
  next => exact passes_none

theorem Passes.value? (passes : sieve.Passes symbol) : sieve.Passes (Property.value? symbol) := by
  unfold Property.value?
  split
  next isShape => exact (passes_associative.mp (passes.shape isShape)).2
  next => exact passes_none

theorem passes_dynamicArray {element : Option Symbol} :
    sieve.Passes (dynamicArray element) ↔ sieve.Passes element :=
  passes_array

theorem Passes.iteration (passes : sieve.Passes symbol) : sieve.Passes (iteration symbol) :=
  passes_callable.mpr ⟨passes_some.mpr passes, passes_nil⟩

theorem Passes.ofOwner? (passes : sieve.Passes symbol) (rule : TypeRule) :
    sieve.Passes (rule.ofOwner? symbol) := by
  have isKeyList := passes_dynamicArray.mpr passes.key?
  have isValueList := passes_dynamicArray.mpr passes.value?
  cases rule with
  | fixed type => exact passes_none
  | owner => exact passes_some.mpr passes
  | immutableCopy =>
    refine passes.element?.optionMap fun element isElement => ?_
    exact passes_dynamicArray.mpr (passes_some.mpr (passes_withModifier.mpr isElement))
  | elementPointer => exact passes_some.mpr (passes_pointer.mpr passes.element?)
  | keys => exact passes_some.mpr isKeyList
  | values => exact passes_some.mpr isValueList
  | keyIteration => exact passes_some.mpr isKeyList.iteration
  | valueIteration => exact passes_some.mpr isValueList.iteration
  | value => exact passes.value?
  | functionPointer =>
    unfold TypeRule.ofOwner?
    dsimp only
    split
    next isShape =>
      have isCallable := passes_callable.mp (passes.shape isShape)
      exact passes_some.mpr (passes_callable.mpr isCallable)
    next => exact passes_none

theorem Passes.declaration (passes : sieve.Passes symbol) (entry : Entry) :
    sieve.Passes (entry.declaration symbol) := by
  rw [Entry.declaration]
  cases entry.parameters with
  | none => exact passes_none
  | some rule =>
    have isKey := passes.key?
    have isValue := passes.value?
    cases rule <;> simp [ParameterRule.ofOwner, isKey, isValue]

theorem passes_constant? {rule : ConstantRule} {owner : Owner} :
    sieve.Passes (rule.constant? owner) := by
  cases isConstant : rule.constant? owner with
  | none => exact passes_none
  | some constant =>
    refine passes_some.mpr (passes_of_parts_eq_nil ?_)
    cases rule <;>
      simp [ConstantRule.constant?, Option.bind_eq_some_iff] at isConstant <;>
      grind [Value.parts, Value.int, Value.size]

/-! ## Evaluation -/

theorem Passes.concatenate
    {left right : Value} (isLeft : sieve.Passes left) (isRight : sieve.Passes right) :
    sieve.Passes (Arithmetic.concatenate left right) := by
  unfold Arithmetic.concatenate
  split
  · exact passes_ok.mpr (passes_of_parts_eq_nil rfl)
  · have areItems := passes_append.mpr ⟨passes_valueArray.mp isLeft, passes_valueArray.mp isRight⟩
    exact passes_ok.mpr (passes_valueArray.mpr areItems)
  · exact passes_error

theorem Passes.fold {left right : Value} (isLeft : sieve.Passes left) (isRight : sieve.Passes right)
    (operator : BinaryOperator) : sieve.Passes (Arithmetic.fold operator left right) := by
  have isTruth (truth : Bool) : sieve.Passes (.ok (.bool truth) : Except EvalError Value) :=
    passes_ok.mpr (passes_of_parts_eq_nil rfl)
  unfold Arithmetic.fold
  split
  · exact passes_error
  · split
    · exact isTruth _
    · exact isTruth _
    · exact isLeft.concatenate isRight
    iterate 4
      unfold Arithmetic.compareValues
      split
      · exact isTruth _
      · exact passes_error
    · dsimp only
      split
      · unfold Arithmetic.onFloats
        split
        · split
          · exact passes_ok.mpr (passes_of_parts_eq_nil rfl)
          · exact passes_error
        · exact passes_error
      · unfold Arithmetic.onIntegers
        split
        · split
          · exact passes_error
          · split
            · exact passes_ok.mpr (passes_of_parts_eq_nil rfl)
            · exact passes_error
        · exact passes_error

end Sieve

end DScope
