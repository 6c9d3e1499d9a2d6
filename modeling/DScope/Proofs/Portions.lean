import DScope.Proofs.Declared

namespace DScope

/-!
# Portions of template arguments

Read from left to right, every template parameter takes a portion of the given
arguments: a tuple parameter takes all that remain, and any other parameter takes the
next one. Parameters without defaults and specializations are bound to their portions,
and binding them asks nothing.
-/

open List Query Template

variable {kind : ParameterKind}

namespace ParameterKind

/-- Whether the parameter has neither default nor specialization and takes no receiver. -/
def isUnrestricted : ParameterKind → Bool
  | .type none none | .value _ none none | .aliased none none | .tuple => true
  | _ => false

/-- Whether an argument is of the kind that the parameter stands for. -/
def takes : ParameterKind → Argument → Bool
  | .type .., argument => argument.type?.isSome
  | .value .., argument => argument.value?.isSome && argument.type?.isNone
  | .aliased .., argument => argument.value?.isSome || argument.type?.isSome
  | .tuple, _ => true
  | .receiver inner, argument => inner.takes argument

theorem eq_tuple (isTuple : kind.isTuple = true) : kind = .tuple := by
  cases kind with
  | tuple => rfl
  | _ => cases isTuple

theorem isSome_bind? (isUnrestricted : kind.isUnrestricted = true)
    (isNoTuple : kind.isTuple = false) (parameter : NodeId) (argument : Argument) :
    (kind.bind? parameter argument).isSome = kind.takes argument := by
  cases kind with
  | tuple => cases isNoTuple
  | receiver inner => cases isUnrestricted
  | _ =>
    cases argument with
    | type symbol => rfl
    | value constant => cases constant <;> rfl
    | unresolved text => rfl

end ParameterKind

namespace Template

variable {parameters : List NodeId} {parameter : NodeId}

/-- A template parameter that is neither restricted nor marked with `this`. -/
def IsUnrestricted (tree : Tree) (parameter : NodeId) : Prop :=
  ∃ kind, tree.parameterKind? parameter = some kind ∧ kind.isUnrestricted = true

/-- Whether a template parameter takes all remaining arguments. -/
def isTuple (tree : Tree) (parameter : NodeId) : Bool :=
  (tree.parameterKind? parameter).any (·.isTuple)

/-- The portions of the given arguments, each with the parameter that takes it. -/
def portions (tree : Tree) : List NodeId → List Argument → List (NodeId × List Argument)
  | [], _ => []
  | parameter :: rest, given =>
    if isTuple tree parameter then
      (parameter, given) :: portions tree rest []
    else
      (parameter, given.take 1) :: portions tree rest (given.drop 1)

/-- The arguments that no parameter takes. -/
def unused (tree : Tree) : List NodeId → List Argument → List Argument
  | [], given => given
  | parameter :: rest, given =>
    if isTuple tree parameter then unused tree rest [] else unused tree rest (given.drop 1)

theorem map_fst_portions (tree : Tree) (parameters : List NodeId) (given : List Argument) :
    (portions tree parameters given).map Prod.fst = parameters := by
  induction parameters generalizing given with
  | nil => rfl
  | cons parameter rest ih =>
    rw [portions]
    split <;> rw [map_cons, ih]

theorem mem_iff_exists_portion {tree : Tree} (given : List Argument) :
    parameter ∈ parameters ↔ ∃ portion ∈ portions tree parameters given, portion.1 = parameter := by
  rw [← mem_map, map_fst_portions]

theorem flatMap_portions (tree : Tree) (parameters : List NodeId) (given : List Argument) :
    (portions tree parameters given).flatMap Prod.snd ++ unused tree parameters given = given := by
  induction parameters generalizing given with
  | nil => rfl
  | cons parameter rest ih =>
    rw [portions, unused]
    split
    · rw [flatMap_cons, append_assoc, ih, append_nil]
    · rw [flatMap_cons, append_assoc, ih, take_append_drop]

/-- What a parameter is bound to by its portion. -/
def bindingOf? (tree : Tree) (portion : NodeId × List Argument) : Option Binding :=
  match tree.parameterKind? portion.1, portion.2 with
  | some .tuple, items => some (.ofType portion.1 (.tuple items))
  | some kind, [argument] => kind.bind? portion.1 argument
  | _, _ => none

/-- Whether a parameter takes what is in its portion. -/
def fits (tree : Tree) (portion : NodeId × List Argument) : Bool :=
  portion.2.isEmpty || (bindingOf? tree portion).isSome

/-- The bindings that the portions make on top of others. -/
def withPortions (tree : Tree) (portions : List (NodeId × List Argument)) (bindings : Bindings) :
    Bindings :=
  (portions.filterMap (bindingOf? tree)).foldl Bindings.set bindings

/-- What the parameters are bound to, and the arguments left over, if all portions fit. -/
def distributed? (tree : Tree) (parameters : List NodeId) (given : List Argument)
    (bindings : Bindings) : Option (Bindings × List Argument) :=
  if (portions tree parameters given).all (fits tree) then
    some (withPortions tree (portions tree parameters given) bindings,
      unused tree parameters given)
  else
    none

section Distribution

variable {tree : Tree}

theorem isTuple_eq (isKind : tree.parameterKind? parameter = some kind) :
    isTuple tree parameter = kind.isTuple := by
  rw [isTuple, isKind, Option.any_some]

theorem bindingOf?_tuple
    (isKind : tree.parameterKind? parameter = some .tuple) (items : List Argument) :
    bindingOf? tree (parameter, items) = some (.ofType parameter (.tuple items)) := by
  rw [bindingOf?, isKind]

theorem bindingOf?_nil
    (isKind : tree.parameterKind? parameter = some kind) (isNoTuple : kind.isTuple = false) :
    bindingOf? tree (parameter, []) = none := by
  cases kind <;> simp_all [bindingOf?, ParameterKind.isTuple]

theorem bindingOf?_singleton
    (isKind : tree.parameterKind? parameter = some kind) (isNoTuple : kind.isTuple = false)
    (argument : Argument) :
    bindingOf? tree (parameter, [argument]) = kind.bind? parameter argument := by
  cases kind <;> simp_all [bindingOf?, ParameterKind.isTuple]

theorem distributed?_tuple
    (isKind : tree.parameterKind? parameter = some .tuple) (rest : List NodeId)
    (given : List Argument) (bindings : Bindings) :
    distributed? tree (parameter :: rest) given bindings =
      distributed? tree rest [] (bindings.set (.ofType parameter (.tuple given))) := by
  have isTuple : isTuple tree parameter = true := isTuple_eq isKind
  unfold distributed?
  rw [portions, unused, if_pos isTuple, if_pos isTuple]
  simp only [all_cons, fits, bindingOf?_tuple isKind, withPortions, filterMap_cons,
    foldl_cons, Option.isSome_some, Bool.or_true, Bool.true_and]

theorem distributed?_nil
    (isKind : tree.parameterKind? parameter = some kind) (isNoTuple : kind.isTuple = false)
    (rest : List NodeId) (bindings : Bindings) :
    distributed? tree (parameter :: rest) [] bindings = distributed? tree rest [] bindings := by
  have isOther : ¬ isTuple tree parameter = true := by simp [isTuple_eq isKind, isNoTuple]
  unfold distributed?
  rw [portions, unused, if_neg isOther, if_neg isOther]
  simp only [take_nil, drop_nil, all_cons, fits, bindingOf?_nil isKind isNoTuple,
    withPortions, filterMap_cons, isEmpty_nil, Bool.true_or, Bool.true_and]

theorem distributed?_cons
    (isKind : tree.parameterKind? parameter = some kind) (isNoTuple : kind.isTuple = false)
    (rest : List NodeId) (argument : Argument) (given : List Argument) (bindings : Bindings) :
    distributed? tree (parameter :: rest) (argument :: given) bindings =
      (kind.bind? parameter argument).bind fun binding =>
        distributed? tree rest given (bindings.set binding) := by
  have isOther : ¬ isTuple tree parameter = true := by simp [isTuple_eq isKind, isNoTuple]
  unfold distributed?
  rw [portions, unused, if_neg isOther, if_neg isOther]
  simp only [take_succ_cons, take_zero,
    all_cons, fits, bindingOf?_singleton isKind isNoTuple, withPortions, filterMap_cons]
  cases kind.bind? parameter argument with
  | none => rfl
  | some binding => rfl

theorem distributed?_append
    (areNoTuples :
      ∀ parameter ∈ parameters,
        ∃ kind, tree.parameterKind? parameter = some kind ∧ kind.isTuple = false)
    (others : List NodeId) (bindings : Bindings) :
    distributed? tree (parameters ++ others) [] bindings =
      distributed? tree others [] bindings := by
  induction parameters with
  | nil => rfl
  | cons parameter rest ih =>
    obtain ⟨kind, isKind, isNoTuple⟩ := areNoTuples parameter mem_cons_self
    rw [cons_append, distributed?_nil isKind isNoTuple]
    exact ih (forall_mem_cons.mp areNoTuples).2

end Distribution

variable {program : Program} {state : State} {owner : NodeId}

theorem reads_withDefault (isUnrestricted : kind.isUnrestricted = true) (parameter : NodeId)
    (bindings : Bindings) :
    Reads program state (withDefault owner parameter kind bindings) bindings := by
  have reads : Reads program state (defaultBinding? owner parameter kind bindings) none := by
    unfold ParameterKind.isUnrestricted at isUnrestricted
    split at isUnrestricted
    · exact .pure none
    · exact .pure none
    · exact .pure none
    · exact .pure none
    · cases isUnrestricted
  exact .bind reads (.pure bindings)

variable (areUnrestricted : ∀ parameter ∈ parameters, IsUnrestricted program.tree parameter)
include areUnrestricted

theorem reads_bindInOrder_distributed (receiver : Option Symbol) (usesDefaults : Bool)
    (given : List Argument) (bindings : Bindings) :
    Reads program state
      (bindInOrder owner receiver usesDefaults parameters given bindings)
      (distributed? program.tree parameters given bindings) := by
  induction parameters generalizing given bindings with
  | nil => exact .pure _
  | cons parameter rest ih =>
    obtain ⟨kind, isKind, isUnrestricted⟩ := areUnrestricted parameter mem_cons_self
    have bindsRest := ih (forall_mem_cons.mp areUnrestricted).2
    obtain ⟨entry, isEntry, isEntryKind⟩ := Option.bind_eq_some_iff.mp isKind
    apply Reads.bind (.node isEntry)
    rw [isEntryKind]
    cases kind with
    | receiver inner => cases isUnrestricted
    | tuple =>
      rw [distributed?_tuple isKind]
      exact bindsRest [] _
    | _ =>
      cases given with
      | nil =>
        rw [distributed?_nil isKind rfl]
        dsimp only [ParameterKind.withoutReceiver]
        split
        · exact .bind (reads_withDefault isUnrestricted parameter bindings) (bindsRest [] _)
        · exact bindsRest [] bindings
      | cons argument later =>
        rw [distributed?_cons isKind rfl]
        dsimp only [ParameterKind.withoutReceiver]
        split
        next binding isBinding =>
          rw [isBinding]
          exact bindsRest later _
        next isRefused =>
          rw [isRefused]
          exact .pure none

theorem reads_foldlM_applyDefault {bindings : Bindings}
    (areBound :
      ∀ parameter ∈ parameters,
        isTuple program.tree parameter = true → bindings.isSatisfied parameter = true) :
    Reads program state (parameters.foldlM (applyDefault owner) bindings) bindings := by
  induction parameters with
  | nil => exact .pure _
  | cons parameter rest ih =>
    obtain ⟨kind, isKind, isUnrestricted⟩ := areUnrestricted parameter mem_cons_self
    have appliesRest := ih
      (forall_mem_cons.mp areUnrestricted).2
      (forall_mem_cons.mp areBound).2
    have keeps : Reads program state (applyDefault owner bindings parameter) bindings := by
      obtain ⟨entry, isEntry, isEntryKind⟩ := Option.bind_eq_some_iff.mp isKind
      unfold applyDefault
      split
      · exact .pure bindings
      next isOpen =>
        have isNoTuple : ¬ isTuple program.tree parameter = true := fun isTuple =>
          isOpen (areBound parameter mem_cons_self isTuple)
        apply Reads.bind (.node isEntry)
        rw [isEntryKind]
        cases kind with
        | tuple => exact absurd (isTuple_eq isKind) isNoTuple
        | receiver inner => cases isUnrestricted
        | _ => exact reads_withDefault isUnrestricted parameter bindings
    exact .bind keeps appliesRest

theorem reads_specializeAll_of_isUnrestricted (bindings : Bindings) :
    Reads program state (specializeAll owner parameters bindings) (some bindings) := by
  induction parameters with
  | nil => exact .pure _
  | cons parameter rest ih =>
    obtain ⟨kind, isKind, isUnrestricted⟩ := areUnrestricted parameter mem_cons_self
    have specializesRest := ih (forall_mem_cons.mp areUnrestricted).2
    obtain ⟨entry, isEntry, isEntryKind⟩ := Option.bind_eq_some_iff.mp isKind
    apply Reads.bind (.node isEntry)
    rw [isEntryKind]
    cases bindings.get? parameter with
    | none => exact specializesRest
    | some bound =>
      have specializes :
          Reads program state
            (specialize owner kind.withoutReceiver bound bindings) (some bindings) := by
        unfold ParameterKind.isUnrestricted at isUnrestricted
        split at isUnrestricted
        · exact .pure _
        · exact .pure _
        · exact .pure _
        · exact .pure _
        · cases isUnrestricted
      exact .bind specializes specializesRest

end Template

/-- A template without constraint whose parameters take all arguments of their kinds. -/
structure UnrestrictedTemplate (program : Program) where
  id : NodeId
  entry : Node
  isEntry : program.tree.node? id = some entry
  isFree : entry.constraint = none
  areDistinct : entry.templateParameters.Nodup
  areUnrestricted :
    ∀ parameter ∈ entry.templateParameters, Template.IsUnrestricted program.tree parameter

namespace UnrestrictedTemplate

variable {program : Program} {evaluator : Evaluator} {state : State}
  (template : UnrestrictedTemplate program) {symbol : Symbol} {given : List Argument}

/-- The symbol is the template as a struct, with slots for none but its parameters. -/
structure Names (symbol : Symbol) : Prop where
  isStruct :
    ∃ aggregate,
      symbol.shape = .aggregate aggregate ∧
        aggregate.kind = .structType ∧ aggregate.node = template.id
  areDistinct : symbol.bindings.parameters.Nodup
  areOwn :
    ∀ parameter ∈ symbol.bindings.parameters, parameter ∈ template.entry.templateParameters

/-- The parameters of a symbol of the template, all open. -/
def opened (symbol : Symbol) : Bindings :=
  template.entry.templateParameters.foldl Bindings.clear
    (template.entry.templateParameters.foldl Bindings.declare symbol.bindings)

/-- The template with its parameters bound to the portions of the arguments, if they fit. -/
def bound? (symbol : Symbol) (given : List Argument) : Option Symbol :=
  (Template.distributed? program.tree template.entry.templateParameters given
    (template.opened symbol)).bind fun found =>
      if found.2.isEmpty && found.1.allSatisfied then some (symbol.withBindings found.1) else none

theorem bound?_of_isEmpty
    (isEmpty : template.entry.templateParameters = []) (areGiven : given ≠ []) (symbol : Symbol) :
    template.bound? symbol given = none := by
  rw [bound?, isEmpty]
  change (if given.isEmpty && _ then _ else none) = none
  rw [isEmpty_eq_false_iff.mpr areGiven]
  rfl

theorem reads_instantiateTemplate (isNoMember : symbol.isMember = false) (areGiven : given ≠ []) :
    Reads program state
      (instantiateTemplate symbol template.id template.entry.templateParameters given false)
      (template.bound? symbol given) := by
  have binds :
      Reads program state
        (bindParameters template.id symbol given false true (template.opened symbol))
        ((distributed? program.tree template.entry.templateParameters given
            (template.opened symbol)).bind fun found =>
          if found.2.isEmpty then some found.1 else none) := by
    apply Reads.bind (.node template.isEntry)
    apply Reads.bind (reads_bindInOrder_distributed template.areUnrestricted _ _ given _)
    cases distributed? program.tree template.entry.templateParameters given
      (template.opened symbol) with
    | none => exact .pure none
    | some found =>
      simp only [Bool.or_false]
      exact .pure _
  have specializes (bindings : Bindings) :
      Reads program state (specialized? template.id bindings) (some bindings) :=
    .bind (.node template.isEntry)
      (reads_specializeAll_of_isUnrestricted template.areUnrestricted bindings)
  unfold instantiateTemplate
  simp only [isEmpty_eq_false_iff.mpr areGiven]
  apply Reads.bind binds
  rw [bound?]
  cases distributed? program.tree template.entry.templateParameters given
    (template.opened symbol) with
  | none => exact .pure none
  | some found =>
    obtain ⟨bindings, left⟩ := found
    simp only [Option.bind_some]
    cases left with
    | cons argument rest => exact .pure none
    | nil =>
      cases areSatisfied : bindings.allSatisfied with
      | false =>
        simp only [isEmpty_nil, if_true, areSatisfied]
        exact .pure none
      | true =>
        simp only [isEmpty_nil, if_true, areSatisfied, isNoMember]
        exact .bind (specializes bindings) (.pure _)

theorem reads_instantiateOverload (names : template.Names symbol) (areGiven : given ≠ []) :
    Reads program state (instantiateOverload symbol given false)
      (template.bound? symbol given) := by
  obtain ⟨aggregate, isShape, -, isNode⟩ := names.isStruct
  have isNoParameter : symbol.parameter? = none := by simp [Symbol.parameter?, isShape]
  have isDefinition : symbol.definition? = some template.id := by
    simp [Symbol.definition?, isShape, isNode]
  have isOwner : ownsParameters symbol = true := by
    simp [ownsParameters, isShape]
  have isNoMember : symbol.isMember = false := by simp [Symbol.isMember, Symbol.member?, isShape]
  unfold instantiateOverload
  rw [isNoParameter]
  unfold instantiateDeclared
  rw [isDefinition]
  apply Reads.bind (.node template.isEntry)
  rw [isOwner, isEmpty_eq_false_iff.mpr areGiven]
  cases isEmpty : template.entry.templateParameters.isEmpty with
  | true =>
    rw [template.bound?_of_isEmpty (isEmpty_iff.mp isEmpty) areGiven]
    exact .pure none
  | false => exact template.reads_instantiateTemplate isNoMember areGiven

theorem yields_instantiate (names : template.Names symbol) (areGiven : given ≠ [])
    (isRunning : state.isCancelled = false) :
    Engine.Yields program evaluator state (instantiate [symbol] given false)
      (template.bound? symbol given).toList := by
  obtain ⟨aggregate, isShape, isKind, isNode⟩ := names.isStruct
  have isBound : ∀ result ∈ template.bound? symbol given,
      ∃ bindings, result.shape = .aggregate { aggregate with bindings } := by
    intro result isResult
    obtain ⟨found, -, isResult⟩ := Option.bind_eq_some_iff.mp isResult
    split at isResult
    · cases isResult
      exact ⟨found.1, by simp [Symbol.withBindings, isShape]⟩
    · cases isResult
  refine yields_instantiate_toList isRunning (by simp [Symbol.candidates, isShape])
    (.ofReads (template.reads_instantiateOverload names areGiven)) ?_ ?_
  · intro result isResult
    obtain ⟨bindings, isShape⟩ := isBound result isResult
    have isDefinition : result.definition? = some template.id := by
      simp [Symbol.definition?, isShape, isNode]
    unfold meetsConstraint
    rw [isDefinition]
    apply Engine.Yields.bind (.ofReads (.node template.isEntry))
    rw [template.isFree]
    exact .pure true
  · intro result isResult
    obtain ⟨bindings, isShape⟩ := isBound result isResult
    have isAggregate : result.aggregate? = some { aggregate with bindings } := by
      simp [Symbol.aggregate?, isShape]
    unfold expand
    simp only [isAggregate, isKind, isNode]
    split
    · exact .pure [result]
    · exact .bind (.ofReads (.node template.isEntry)) (.pure [result])

end UnrestrictedTemplate

end DScope
