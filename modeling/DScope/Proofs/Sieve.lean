import DScope.Options
import DScope.Proofs.Parts

namespace DScope

/-!
# Sieves

A sieve says which declarations and statements data may name, and which symbols
it may hold at any depth. This module says when data passes a sieve, constructor
by constructor.
-/

open Symbol hiding parts
open List

/-- What queries may come across. -/
structure Sieve where
  /-- The declarations that may be named. -/
  node : NodeId → Prop
  /-- The statements that may be named. -/
  statement : StatementId → Prop
  /-- The declarations that may be named by the tag of an alias. -/
  tag : NodeId → Prop
  /-- Whether aggregates may have bases. -/
  hasBases : Prop
  /-- Whether aliases may have targets. -/
  hasTargets : Prop
  /-- The options under which a query may run. -/
  options : Options → Prop
  /-- Whether a run may end at a place outside the tree. -/
  hasGaps : Prop

/-- Whether the shape is that of an aggregate with a base class or an interface. -/
@[simp]
def Shape.hasBases : Shape → Bool
  | .aggregate ⟨_, _, baseClass, interfaces, _⟩ => baseClass.isSome || !interfaces.isEmpty
  | _ => false

/-- Whether the shape is that of an alias with a target. -/
@[simp]
def Shape.hasTarget : Shape → Bool
  | .aliased _ target => target.isSome
  | _ => false

namespace Sieve

open Composite

variable {node parameter : NodeId} {symbol : Symbol} {binding : Binding}
  {property : BuiltinProperty} {subject : String} {origin : Option NodeId}
  {candidates : List Symbol}

/-- What the sieve asks of a symbol, the other symbols inside it left aside. -/
structure Admits (sieve : Sieve) (part : Symbol) : Prop where
  nodes : ∀ node ∈ part.origin.toList ++ part.shape.nodes, sieve.node node
  tags : ∀ node ∈ part.aliasTags, sieve.tag node
  bases : part.shape.hasBases = true → sieve.hasBases
  targets : part.shape.hasTarget = true → sieve.hasTargets

/-- Whether all symbols in the data and all places that it names pass the sieve. -/
def Passes {α : Type} [Composite α] (sieve : Sieve) (item : α) : Prop :=
  (∀ part ∈ parts item, sieve.Admits part) ∧ ∀ node ∈ loose item, sieve.node node

/-- Whether a tag passes the sieve. -/
def PassesTag (sieve : Sieve) : Tag → Prop
  | .aliased node => sieve.tag node
  | .receiver symbol => sieve.Passes symbol
  | .ufcs | .dispatched _ => True

variable {α β ε : Type} [Composite α] [Composite β] {sieve : Sieve}

/-! ## Places and collections -/

@[simp]
theorem passes_node : sieve.Passes node ↔ sieve.node node := by
  simp [Passes, parts, loose]

@[simp]
theorem passes_none : sieve.Passes (none : Option α) := by
  simp [Passes, parts, loose]

@[simp]
theorem passes_some {item : α} : sieve.Passes (some item) ↔ sieve.Passes item := by
  simp [Passes, parts, loose]

theorem passes_option {item : Option α} :
    sieve.Passes item ↔ ∀ inner ∈ item, sieve.Passes inner := by
  cases item <;> simp

theorem passes_list {items : List α} : sieve.Passes items ↔ ∀ item ∈ items, sieve.Passes item := by
  simp only [Passes, parts, loose, mem_flatMap]
  constructor
  · rintro ⟨symbols, places⟩ item member
    exact ⟨fun part isPart => symbols part ⟨item, member, isPart⟩,
      fun node isNode => places node ⟨item, member, isNode⟩⟩
  · intro each
    exact ⟨fun part ⟨item, member, isPart⟩ => (each item member).1 part isPart,
      fun node ⟨item, member, isNode⟩ => (each item member).2 node isNode⟩

@[simp]
theorem passes_nil : sieve.Passes ([] : List α) := by
  simp [passes_list]

@[simp]
theorem passes_cons {item : α} {items : List α} :
    sieve.Passes (item :: items) ↔ sieve.Passes item ∧ sieve.Passes items := by
  simp [passes_list]

@[simp]
theorem passes_append {first second : List α} :
    sieve.Passes (first ++ second) ↔ sieve.Passes first ∧ sieve.Passes second := by
  simp only [passes_list, mem_append, or_imp, forall_and]

@[simp]
theorem passes_pair {first : α} {second : β} :
    sieve.Passes (first, second) ↔ sieve.Passes first ∧ sieve.Passes second := by
  simp only [Passes, parts, loose, mem_append, or_imp, forall_and]
  exact and_and_and_comm

@[simp]
theorem passes_ok {item : α} : sieve.Passes (.ok item : Except ε α) ↔ sieve.Passes item := by
  simp [Passes, parts, loose, Except.toOption]

@[simp]
theorem passes_error {error : ε} : sieve.Passes (.error error : Except ε α) := by
  simp [Passes, parts, loose, Except.toOption]

namespace Passes

section

variable {items : List α} (passes : sieve.Passes items)
include passes

theorem mem {item : α} (member : item ∈ items) : sieve.Passes item :=
  passes_list.mp passes item member

theorem subset {others : List α} (isSubset : ∀ item ∈ others, item ∈ items) : sieve.Passes others :=
  passes_list.mpr fun item member => passes.mem (isSubset item member)

theorem filter (test : α → Bool) : sieve.Passes (items.filter test) :=
  passes.subset fun _ member => (mem_filter.mp member).1

theorem map {change : α → β}
    (each : ∀ item, sieve.Passes item → sieve.Passes (change item)) :
    sieve.Passes (items.map change) := by
  rw [passes_list]
  intro changed member
  obtain ⟨item, isItem, rfl⟩ := mem_map.mp member
  exact each item (passes.mem isItem)

theorem flatMap {change : α → List β}
    (each : ∀ item, sieve.Passes item → sieve.Passes (change item)) :
    sieve.Passes (items.flatMap change) := by
  rw [passes_list]
  intro changed member
  obtain ⟨item, isItem, isChanged⟩ := mem_flatMap.mp member
  exact (each item (passes.mem isItem)).mem isChanged

theorem foldl {step : β → α → β}
    (each : ∀ result item, sieve.Passes result → sieve.Passes item → sieve.Passes (step result item))
    {start : β} (isStart : sieve.Passes start) : sieve.Passes (items.foldl step start) := by
  induction items generalizing start with
  | nil => exact isStart
  | cons item rest ih =>
    rw [passes_cons] at passes
    exact ih passes.2 (each start item isStart passes.1)

theorem head? : sieve.Passes items.head? := by
  cases items with
  | nil => exact passes_none
  | cons item rest => exact passes_some.mpr (passes_cons.mp passes).1

theorem tail : sieve.Passes items.tail := by
  cases items with
  | nil => exact passes_nil
  | cons item rest => exact (passes_cons.mp passes).2

theorem getElem? (index : Nat) : sieve.Passes items[index]? := by
  cases isItem : items[index]? with
  | none => exact passes_none
  | some item => exact passes_some.mpr (passes.mem (mem_of_getElem? isItem))

theorem find? (test : α → Bool) : sieve.Passes (items.find? test) := by
  cases isItem : items.find? test with
  | none => exact passes_none
  | some item => exact passes_some.mpr (passes.mem (mem_of_find?_eq_some isItem))

theorem findSome? {test : α → Option β}
    (each : ∀ item, sieve.Passes item → sieve.Passes (test item)) :
    sieve.Passes (items.findSome? test) := by
  rw [passes_option]
  intro found isFound
  obtain ⟨item, isItem, isFound⟩ := exists_of_findSome?_eq_some isFound
  exact passes_option.mp (each item (passes.mem isItem)) found isFound

end

theorem flatten {items : List (List α)} (passes : sieve.Passes items) :
    sieve.Passes items.flatten := by
  rw [← flatMap_id]
  exact passes.flatMap fun _ isInner => isInner

theorem filterMap_id {items : List (Option α)} (passes : sieve.Passes items) :
    sieve.Passes (items.filterMap id) := by
  rw [passes_list]
  intro item member
  obtain ⟨entry, isEntry, isItem⟩ := mem_filterMap.mp member
  subst isItem
  exact passes_some.mp (passes.mem isEntry)

theorem join {item : Option (Option α)} (passes : sieve.Passes item) : sieve.Passes item.join := by
  cases item with
  | none => exact passes_none
  | some inner => exact passes_some.mp passes

section

variable {item : Option α} (passes : sieve.Passes item)
include passes

theorem toList : sieve.Passes item.toList := by
  cases item with
  | none => exact passes_nil
  | some item => simpa using passes

theorem optionMap {change : α → β}
    (each : ∀ inner, sieve.Passes inner → sieve.Passes (change inner)) :
    sieve.Passes (item.map change) := by
  cases item with
  | none => exact passes_none
  | some inner => exact passes_some.mpr (each inner (passes_some.mp passes))

theorem optionBind {next : α → Option β}
    (each : ∀ inner, sieve.Passes inner → sieve.Passes (next inner)) :
    sieve.Passes (item.bind next) := by
  cases item with
  | none => exact passes_none
  | some inner => exact each inner (passes_some.mp passes)

theorem getD {fallback : α} (isFallback : sieve.Passes fallback) :
    sieve.Passes (item.getD fallback) := by
  cases item with
  | none => exact isFallback
  | some inner => exact passes_some.mp passes

theorem optionFilter (test : α → Bool) : sieve.Passes (item.filter test) := by
  cases isKept : item.filter test with
  | none => exact passes_none
  | some inner =>
    obtain ⟨isInner, -⟩ := Option.filter_eq_some_iff.mp isKept
    exact isInner ▸ passes

end

theorem orElse {first second : Option α} (isFirst : sieve.Passes first)
    (isSecond : sieve.Passes second) : sieve.Passes (first <|> second) := by
  cases first with
  | none => exact isSecond
  | some item => exact isFirst

end Passes

/-! ## Constants, arguments and bindings -/

@[simp]
theorem passes_valueArray {items : List Value} :
    sieve.Passes (Value.array items) ↔ sieve.Passes items := by
  simp [Passes, parts, loose, Value.allParts_eq]

@[simp]
theorem passes_valueType : sieve.Passes (Value.type symbol) ↔ sieve.Passes symbol := by
  simp [Passes, parts, loose]

theorem passes_of_parts_eq_nil {value : Value} (isPlain : value.parts = []) :
    sieve.Passes value := by
  simp [Passes, parts, loose, isPlain]

@[simp]
theorem passes_argumentType : sieve.Passes (Argument.type symbol) ↔ sieve.Passes symbol := by
  simp [Passes, parts, loose]

@[simp]
theorem passes_argumentValue {value : Value} :
    sieve.Passes (Argument.value value) ↔ sieve.Passes value := by
  simp [Passes, parts, loose]

@[simp]
theorem passes_unresolved {text : String} : sieve.Passes (Argument.unresolved text) := by
  simp [Passes, parts, loose]

theorem passes_binding :
    sieve.Passes binding ↔
      sieve.node binding.parameter ∧ sieve.Passes binding.base ∧ sieve.Passes binding.value := by
  obtain ⟨parameter, base, value⟩ := binding
  cases base <;> cases value <;>
    simp [Passes, parts, loose, or_imp,
      forall_and, and_comm]

@[simp]
theorem passes_filled : sieve.Passes (Slot.filled binding) ↔ sieve.Passes binding := by
  simp [Passes, parts, loose, Slot.parts, Slot.binding?, Slot.parameter]

@[simp]
theorem passes_empty : sieve.Passes (Slot.empty parameter) ↔ sieve.node parameter := by
  simp [Passes, parts, loose, Slot.parts, Slot.binding?, Slot.parameter]

theorem passes_slots {slots : List Slot} :
    sieve.Passes (Bindings.mk slots) ↔ sieve.Passes slots := by
  simp only [Passes, parts, loose, Bindings.parts, Slot.allParts_eq, Bindings.parameters,
    map_eq_flatMap]

@[simp]
theorem passes_propertyParameter {parameter : PropertyParameter} :
    sieve.Passes parameter ↔ sieve.Passes parameter.type := by
  simp [Passes, parts, loose, PropertyParameter.parts, optionParts_eq]

@[simp]
theorem passes_property : sieve.Passes property ↔ sieve.Passes property.parameters := by
  simp [Passes, parts, loose]

@[simp]
theorem passes_defined : sieve.Passes (Definition.node node) ↔ sieve.node node := by
  simp [Passes, parts, loose]

@[simp]
theorem passes_builtin : sieve.Passes (Definition.builtin property) ↔ sieve.Passes property := by
  obtain ⟨name, description, requiresInstance, parameters⟩ := property
  cases parameters <;>
    simp [Passes, parts, loose, PropertyParameter.allParts_eq]

theorem passes_declaration {declaration : Declaration} :
    sieve.Passes declaration ↔ sieve.node declaration.node ∧ sieve.Passes declaration.via := by
  simp [Passes, parts, loose, and_comm]

theorem passes_scan {scan : Scan} :
    sieve.Passes scan ↔ sieve.node scan.home ∧ sieve.Passes scan.found := by
  simp [Passes, parts, loose, and_left_comm]

theorem passes_nothingFound {detail : Option String} :
    sieve.Passes (Diagnostic.nothingFound subject origin detail) ↔ sieve.Passes origin := by
  cases origin <;> simp [Passes, parts, loose]

theorem passes_ambiguity :
    sieve.Passes (Diagnostic.ambiguity subject origin candidates) ↔
      sieve.Passes origin ∧ sieve.Passes candidates := by
  cases origin <;> simp [Passes, parts, loose, and_comm]

theorem passes_deduction {name reason : String} {argument : Option Argument} :
    sieve.Passes (Diagnostic.deduction parameter name argument reason) ↔
      sieve.node parameter ∧ sieve.Passes argument := by
  cases argument <;> simp [Passes, parts, loose, and_comm]

theorem passes_ambiguousSpecialization {overloads : List Symbol} :
    sieve.Passes (Diagnostic.ambiguousSpecialization subject overloads) ↔
      sieve.Passes overloads := by
  simp [Passes, parts, loose]

/-! ## Symbols -/

theorem passes_tags :
    ((∀ node ∈ symbol.aliasTags, sieve.tag node) ∧
        ∀ part ∈ symbol.tags.flatMap Tag.parts, sieve.Admits part) ↔
      ∀ tag ∈ symbol.tags, sieve.PassesTag tag := by
  simp only [aliasTags, mem_filterMap, mem_flatMap]
  constructor
  · rintro ⟨aliases, receivers⟩ tag isTag
    cases tag with
    | aliased node => exact aliases node ⟨_, isTag, rfl⟩
    | receiver receiver =>
      exact ⟨fun part isPart => receivers part ⟨_, isTag, isPart⟩, fun _ isLoose => by cases isLoose⟩
    | ufcs | dispatched name => trivial
  · intro each
    constructor
    · rintro node ⟨tag, isTag, isNode⟩
      cases tag <;> cases isNode
      exact each _ isTag
    · rintro part ⟨tag, isTag, isPart⟩
      cases tag with
      | receiver receiver => exact (each _ isTag).1 part isPart
      | aliased node | ufcs | dispatched name => cases isPart

theorem passes_symbol :
    sieve.Passes symbol ↔
      sieve.Passes (ofShape symbol.shape) ∧ sieve.Passes symbol.origin ∧
        ∀ tag ∈ symbol.tags, sieve.PassesTag tag := by
  obtain ⟨shape, origin, modifier, tags⟩ := symbol
  rw [← passes_tags]
  simp only [Passes, parts, loose, Symbol.parts, ofShape, Tag.allParts_eq,
    forall_mem_cons, forall_mem_append, flatMap_nil, append_nil]
  constructor
  · rintro ⟨⟨own, inShape, inTags⟩, -⟩
    refine ⟨⟨⟨⟨?_, ?_, own.bases, own.targets⟩, inShape⟩, ?_⟩, ⟨?_, ?_⟩, own.tags, inTags⟩
    · exact fun node isNode => own.nodes node (mem_append_right _ isNode)
    · simp [aliasTags]
    · simp
    · simp
    · simp only [mem_flatMap, mem_singleton]
      rintro node ⟨_, isOrigin, rfl⟩
      exact own.nodes node (mem_append_left _ (by simpa using isOrigin))
  · rintro ⟨⟨⟨own, inShape⟩, -⟩, ⟨-, isOrigin⟩, isTagged, inTags⟩
    refine ⟨⟨⟨?_, isTagged, own.bases, own.targets⟩, inShape, inTags⟩, by simp⟩
    intro node isNode
    rcases mem_append.mp isNode with isNode | isNode
    · exact isOrigin node (mem_flatMap.mpr ⟨node, isNode, mem_singleton_self node⟩)
    · exact own.nodes node (mem_append_right _ isNode)

theorem Passes.shape (passes : sieve.Passes symbol) {shape : Shape}
    (isShape : symbol.shape = shape) : sieve.Passes (ofShape shape) :=
  isShape ▸ (passes_symbol.mp passes).1

theorem passes_ofShape {shape : Shape} :
    sieve.Passes (ofShape shape) ↔
      (∀ node ∈ shape.nodes, sieve.node node) ∧ (∀ part ∈ shape.parts, sieve.Admits part) ∧
        (shape.hasBases = true → sieve.hasBases) ∧ (shape.hasTarget = true → sieve.hasTargets) := by
  simp only [Passes, parts, loose, Symbol.parts, ofShape, Tag.allParts, forall_mem_cons, append_nil]
  constructor
  · rintro ⟨⟨own, inShape⟩, -⟩
    exact ⟨own.nodes, inShape, own.bases, own.targets⟩
  · rintro ⟨nodes, inShape, bases, targets⟩
    refine ⟨⟨⟨nodes, ?_, bases, targets⟩, inShape⟩, ?_⟩ <;> simp [aliasTags]

theorem forall_optionParts {symbol : Option Symbol} :
    (∀ part ∈ optionParts symbol, sieve.Admits part) ↔ sieve.Passes symbol := by
  simp [Passes, parts, loose, optionParts_eq]

theorem forall_allParts {symbols : List Symbol} :
    (∀ part ∈ allParts symbols, sieve.Admits part) ↔ sieve.Passes symbols := by
  simp [Passes, parts, loose, allParts_eq]

theorem forall_valueParts {value : Option Value} :
    (∀ part ∈ Value.optionParts value, sieve.Admits part) ↔ sieve.Passes value := by
  simp [Passes, parts, loose, Value.optionParts_eq]

theorem forall_argumentParts {arguments : List Argument} :
    (∀ part ∈ Argument.allParts arguments, sieve.Admits part) ↔ sieve.Passes arguments := by
  simp [Passes, parts, loose, Argument.allParts_eq]

section Shapes

variable {inner other : Option Symbol}

attribute [local simp] passes_ofShape Shape.nodes Shape.parts forall_optionParts forall_allParts
  forall_argumentParts

@[simp]
theorem passes_primitive {type : BasicType} : sieve.Passes (ofShape (.primitive type)) := by
  simp

@[simp]
theorem passes_package {path : String} : sieve.Passes (ofShape (.package path)) := by
  simp

@[simp]
theorem passes_module : sieve.Passes (ofShape (.module node)) ↔ sieve.node node := by
  simp

@[simp]
theorem passes_pointer : sieve.Passes (ofShape (.pointer inner)) ↔ sieve.Passes inner := by
  simp

@[simp]
theorem passes_array {length : Option Nat} :
    sieve.Passes (ofShape (.array inner length)) ↔ sieve.Passes inner := by
  simp

@[simp]
theorem passes_associative :
    sieve.Passes (ofShape (.associative inner other)) ↔
      sieve.Passes inner ∧ sieve.Passes other := by
  simp [or_imp, forall_and]

@[simp]
theorem passes_callable {callable : Callable} :
    sieve.Passes (ofShape (.callable callable)) ↔
      sieve.Passes callable.result ∧ sieve.Passes callable.parameters := by
  obtain ⟨result, parameters, isFunction⟩ := callable
  simp [or_imp, forall_and]

@[simp]
theorem passes_aggregate {aggregate : Aggregate} :
    sieve.Passes (ofShape (.aggregate aggregate)) ↔
      sieve.node aggregate.node ∧ sieve.Passes aggregate.baseClass ∧
        sieve.Passes aggregate.interfaces ∧ sieve.Passes aggregate.bindings ∧
        (aggregate.baseClass.isSome || !aggregate.interfaces.isEmpty → sieve.hasBases) := by
  obtain ⟨kind, node, baseClass, interfaces, bindings⟩ := aggregate
  rw [passes_ofShape]
  simp only [Shape.nodes, Shape.parts, forall_mem_cons,
    forall_mem_append, forall_optionParts, forall_allParts]
  constructor
  · rintro ⟨⟨isNode, areParameters⟩, ⟨⟨isBase, areInterfaces⟩, areBound⟩, bases, -⟩
    exact ⟨isNode, isBase, areInterfaces, ⟨areBound, areParameters⟩, bases⟩
  · rintro ⟨isNode, isBase, areInterfaces, ⟨areBound, areParameters⟩, bases⟩
    exact ⟨⟨isNode, areParameters⟩, ⟨⟨isBase, areInterfaces⟩, areBound⟩, bases, by simp⟩

@[simp]
theorem passes_enumeration :
    sieve.Passes (ofShape (.enumeration node inner)) ↔ sieve.node node ∧ sieve.Passes inner := by
  simp

@[simp]
theorem passes_aliased :
    sieve.Passes (ofShape (.aliased node inner)) ↔
      sieve.node node ∧ sieve.Passes inner ∧ (inner.isSome → sieve.hasTargets) := by
  simp

@[simp]
theorem passes_member {member : Member} :
    sieve.Passes (ofShape (.member member)) ↔
      sieve.Passes member.definition ∧ sieve.Passes member.base ∧
        sieve.Passes member.bindings ∧ sieve.Passes member.constant := by
  obtain ⟨definition, base, bindings, constant⟩ := member
  rw [passes_ofShape]
  simp only [Shape.nodes, Shape.parts, forall_mem_append,
    forall_optionParts, forall_valueParts]
  constructor
  · rintro ⟨⟨isNamed, areParameters⟩, ⟨⟨⟨isDefined, isBase⟩, areBound⟩, isConstant⟩, -⟩
    exact ⟨⟨isDefined, isNamed⟩, isBase, ⟨areBound, areParameters⟩, isConstant⟩
  · rintro ⟨⟨isDefined, isNamed⟩, isBase, ⟨areBound, areParameters⟩, isConstant⟩
    exact ⟨⟨isNamed, areParameters⟩, ⟨⟨⟨isDefined, isBase⟩, areBound⟩, isConstant⟩, by simp⟩

@[simp]
theorem passes_parameter : sieve.Passes (ofShape (.parameter binding)) ↔ sieve.Passes binding := by
  rw [passes_ofShape]
  constructor
  · rintro ⟨isParameter, inBinding, -⟩
    exact ⟨inBinding, isParameter⟩
  · rintro ⟨inBinding, isParameter⟩
    exact ⟨isParameter, inBinding, by simp⟩

@[simp]
theorem passes_ambiguous :
    sieve.Passes (ofShape (.ambiguous candidates)) ↔ sieve.Passes candidates := by
  simp

@[simp]
theorem passes_tuple {items : List Argument} :
    sieve.Passes (ofShape (.tuple items)) ↔ sieve.Passes items := by
  simp

end Shapes

end Sieve

end DScope
