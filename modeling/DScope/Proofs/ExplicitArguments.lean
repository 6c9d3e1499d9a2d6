import DScope.Proofs.Deduction
import DScope.Proofs.Drafting
import DScope.Proofs.FreeFunctions
import DScope.Proofs.Postcondition

namespace DScope

variable {program : Program} {entry : Node} {tree : Tree} {between later : Bindings}
  {binding : Binding} {parameter : NodeId} {arguments : List (Option Symbol)}
  {evaluator : Evaluator} {kind : ParameterKind}

/-!
# Explicit template arguments of a call

The explicit arguments of a call are bound first, and what is deduced from the call
arguments, from defaults and from specializations comes on top. All of this keeps
what is bound already, with one exception: where the written type of a function
parameter is a tuple parameter, that parameter is bound to the call arguments from
there on, and the explicit arguments for it are lost.
-/

open Bindings hiding none
open List Engine DeclaredSymbol Option

/-! ## Bindings that stay -/

/-- Whether a deduction leaves the binding alone: it is no open slot, nor a value without one. -/
structure Binding.IsSettled (tree : Tree) (binding : Binding) : Prop where
  isBound : binding.isBound = true
  hasValue :
    ∀ type specialization default,
      tree.parameterKind? binding.parameter = some (.value type specialization default) →
        binding.value.isSome = true

namespace Bindings

variable {bindings other : Bindings}

/-- The parameter is bound as the binding says. -/
def Has (bindings : Bindings) (binding : Binding) : Prop :=
  bindings.get? binding.parameter = some binding

/-- Every settled binding is there later as well. -/
def SettledIn (tree : Tree) (bindings later : Bindings) : Prop :=
  ∀ binding, binding.IsSettled tree → bindings.Has binding → later.Has binding

theorem SettledIn.refl (tree : Tree) (bindings : Bindings) : bindings.SettledIn tree bindings :=
  fun _ _ has => has

theorem SettledIn.trans
    (first : bindings.SettledIn tree between) (second : between.SettledIn tree later) :
    bindings.SettledIn tree later :=
  fun binding isSettled has => second binding isSettled (first binding isSettled has)

theorem KeptIn.settledIn (isKept : bindings.KeptIn later) : bindings.SettledIn tree later :=
  fun binding _ has => isKept binding.parameter binding has

theorem Has.set_self (bindings : Bindings) (binding : Binding) :
    (bindings.set binding).Has binding := by
  rw [Has, get?_set, if_pos rfl]

theorem Has.set_of_ne
    {added : Binding} (has : bindings.Has binding) (isOther : added.parameter ≠ binding.parameter) :
    (bindings.set added).Has binding := by
  rw [Has, get?_set, if_neg isOther]
  exact has

theorem Has.isSatisfied (has : bindings.Has binding) (isBound : binding.isBound = true) :
    bindings.isSatisfied binding.parameter = true := by
  rw [Bindings.isSatisfied, has]
  exact isBound

theorem settledIn_set (isOpen : bindings.isSatisfied binding.parameter = false) :
    bindings.SettledIn tree (bindings.set binding) := by
  intro settled isSettled has
  apply has.set_of_ne
  intro isSame
  rw [isSame, has.isSatisfied isSettled.isBound] at isOpen
  cases isOpen

theorem settledIn_foldl {α : Type} {step : Bindings → α → Bindings}
    (keeps : ∀ bindings item, SettledIn tree bindings (step bindings item)) (items : List α)
    (bindings : Bindings) : bindings.SettledIn tree (items.foldl step bindings) := by
  induction items generalizing bindings with
  | nil => exact .refl tree bindings
  | cons item rest ih => exact (keeps bindings item).trans (ih _)

/-- Takes over one binding if its parameter is open. -/
def merge (merged : Bindings) (added : Binding) : Bindings :=
  if merged.isSatisfied added.parameter then merged else merged.set added

theorem settledIn_merge (merged : Bindings) (added : Binding) :
    merged.SettledIn tree (merged.merge added) := by
  unfold merge
  split
  next => exact .refl tree merged
  next isUnsatisfied => exact settledIn_set (Bool.eq_false_iff.mpr isUnsatisfied)

theorem has_mergeMissing
    (isSettled : binding.IsSettled tree) (isOpen : bindings.isSatisfied binding.parameter = false)
    (has : other.Has binding) : (bindings.mergeMissing other).Has binding := by
  obtain ⟨slots⟩ := other
  obtain ⟨slot, isSlot, isBinding⟩ := bind_eq_some_iff.mp has
  change slots.find? _ = some slot at isSlot
  change ((slots.filterMap (·.binding?)).foldl merge bindings).Has binding
  clear has
  -- The first slot of the parameter is taken over, and later ones find the parameter bound.
  induction slots generalizing bindings with
  | nil => cases isSlot
  | cons first rest ih =>
    rw [find?_cons] at isSlot
    split at isSlot
    next =>
      obtain rfl : first = slot := some.inj isSlot
      rw [filterMap_cons_some isBinding, foldl_cons, merge, isOpen]
      exact settledIn_foldl settledIn_merge _ _ binding isSettled (.set_self bindings binding)
    next isOther =>
      cases first with
      | empty parameter => exact ih isOpen isSlot
      | filled added =>
        have isOther : added.parameter ≠ binding.parameter := beq_eq_false_iff_ne.mp isOther
        refine ih ?_ isSlot
        unfold merge
        split
        next => exact isOpen
        next => rwa [isSatisfied, get?_set, if_neg isOther]

end Bindings

theorem DeclaredSymbol.settledIn_attached
    (tree : Tree) (stack : Stack) (id : NodeId) (entry : Node) (given : Bindings) :
    given.SettledIn tree (attached tree stack id entry given) := by
  intro binding isSettled has
  have isOpen : (forParameters entry.templateParameters).isSatisfied binding.parameter = false := by
    rw [isSatisfied, get?_eq_none_of_filled (filled_forParameters entry.templateParameters)]
    rfl
  have own := has_mergeMissing isSettled isOpen has
  unfold attached
  split
  next =>
    refine (settledIn_foldl ?_ _ _).trans (settledIn_foldl ?_ _ _) binding
      isSettled own
    · intro bindings inherited
      unfold inherit
      split
      next takesOver =>
        exact settledIn_set (by simpa using (Bool.and_eq_true_iff.mp takesOver).2)
      next => exact .refl tree bindings
    · intro bindings parameter
      unfold bindToSelf
      split
      next => exact .refl tree bindings
      next isUnsatisfied => exact settledIn_set (Bool.eq_false_iff.mpr isUnsatisfied)
  next => exact own

/-! ## Deduction keeps what is bound -/

namespace Template

open Query

variable {bindings : Bindings}

/-- The bindings that the query returns, if any, hold what is settled in the given ones. -/
def Keeps (program : Program) (bindings : Bindings) (query : Query (Option Bindings)) : Prop :=
  query.Ensures program fun result =>
    ∀ later, result = some later → bindings.SettledIn program.tree later

namespace Keeps

theorem unchanged (bindings : Bindings) : Keeps program bindings (pure (some bindings)) := by
  apply Ensures.pure
  rintro later ⟨⟩
  exact .refl _ bindings

theorem nothing : Keeps program bindings (pure none) :=
  Ensures.pure nofun

theorem bind {α : Type} {first : Query α} {next : α → Query (Option Bindings)} {property : α → Prop}
    (before : first.Ensures program property)
    (keeps : ∀ value, property value → Keeps program bindings (next value)) :
    Keeps program bindings (first >>= next) :=
  Ensures.bind before keeps

theorem after {query : Query (Option Bindings)} (isKept : bindings.SettledIn program.tree between)
    (keeps : Keeps program between query) : Keeps program bindings query :=
  keeps.mono fun _ areKept later isLater => isKept.trans (areKept later isLater)

end Keeps

theorem settledIn_bindValue {owner : Node} {name : String} {value : Value}
    (binds : bindValue tree owner name value bindings = some later) :
    bindings.SettledIn tree later := by
  unfold bindValue at binds
  split at binds
  next =>
    cases binds
    exact .refl tree _
  next parameter isParameter =>
    split at binds
    next =>
      split at binds <;> cases binds
      exact .refl tree _
    next isNoValue =>
      -- A settled binding of the value parameter would have a value to compare with.
      cases binds
      intro binding isSettled has
      apply has.set_of_ne
      intro isSame
      change parameter = binding.parameter at isSame
      have isValue := find?_some isParameter
      rw [Has, ← isSame] at has
      split at isValue
      next type specialization default isKind =>
        have hasValue := isSettled.hasValue type specialization default (isSame ▸ isKind)
        rw [has, bind_some] at isNoValue
        rw [isNoValue] at hasValue
        cases hasValue
      next => simp at isValue

theorem bindNamed_keeps (owner : NodeId) (name : String) (value : Value) (bindings : Bindings) :
    Keeps program bindings do
      return bindValue (← Query.tree) (← Query.node owner) name value bindings := by
  refine .bind .tree fun tree isTree => .bind (.node owner) fun entry _ => ?_
  subst isTree
  exact Ensures.pure fun later => settledIn_bindValue

theorem matchResolved_keeps
    (owner : NodeId) (pattern : TypeExpr) (argument : Symbol) (bindings : Bindings) :
    Keeps program bindings (matchResolved owner pattern argument bindings) := by
  refine .bind (.anything _) fun expected _ => ?_
  split
  next => exact .unchanged bindings
  next expected _ =>
    apply Ensures.pure
    intro later isLater
    split at isLater <;> cases isLater
    exact (Symbol.convert_deduces rfl).keeps.settledIn

mutual

theorem matchType_keeps
    (owner : NodeId) (pattern : TypeExpr) (argument : Symbol) (bindings : Bindings) :
    Keeps program bindings (matchType owner pattern argument bindings) := by
  cases isStrip : argument.strip with
  | none =>
    rw [matchType_of_strip_eq_none isStrip]
    exact .unchanged bindings
  | some type =>
    unfold matchType
    cases pattern <;> simp only [isStrip]
    case modified modifier inner => exact matchType_keeps owner inner _ bindings
    case instantiated name patterns =>
      split
      · exact .nothing
      · refine .bind (.node _) fun template _ => ?_
        split
        · exact matchArguments_keeps owner patterns _ _ bindings
        · exact .nothing
    case sizedArray element _ | keyedArray element _ =>
      refine .bind .tree fun tree isTree => .bind (.node _) fun template _ => ?_
      subst isTree
      split
      · split
        next isBound =>
          exact (matchType_keeps owner element _ _).after (settledIn_bindValue isBound)
        next => exact .nothing
      · exact matchResolved_keeps owner _ _ bindings
    all_goals exact matchResolved_keeps owner _ _ bindings

theorem matchBinding_keeps
    (owner : NodeId) (pattern : WrittenArgument) (bound : Binding) (bindings : Bindings) :
    Keeps program bindings (matchBinding owner pattern bound bindings) := by
  cases pattern with
  | type pattern =>
    unfold matchBinding
    split
    · exact matchType_keeps owner pattern _ bindings
    · split
      · exact bindNamed_keeps owner _ _ bindings
      · exact .nothing
    · exact .unchanged bindings
  | value pattern =>
    unfold matchBinding
    split
    · exact bindNamed_keeps owner _ _ bindings
    · exact .unchanged bindings

theorem matchArguments_keeps
    (owner : NodeId) (patterns : List WrittenArgument) (given : Bindings) (parameters : List NodeId)
    (bindings : Bindings) :
    Keeps program bindings (matchArguments owner patterns given parameters bindings) := by
  cases patterns with
  | nil => exact .unchanged bindings
  | cons pattern patterns =>
    cases parameters with
    | nil => exact .unchanged bindings
    | cons parameter parameters =>
      unfold matchArguments
      split
      · exact .nothing
      · refine .bind (matchBinding_keeps owner pattern _ bindings) fun matched isKept => ?_
        split
        · exact (matchArguments_keeps owner patterns given parameters _).after (isKept _ rfl)
        · exact .nothing

end

/-! ## Defaults and specializations -/

theorem defaultBinding?_ensures
    (owner parameter : NodeId) (kind : ParameterKind) (bindings : Bindings) :
    (defaultBinding? owner parameter kind bindings).Ensures program
      fun found => ∀ binding, found = some binding → binding.parameter = parameter := by
  have ofType (types : Option (List Symbol)) (binding : Binding)
      (isBinding : (types.bind head?).map (.ofType parameter) = some binding) :
      binding.parameter = parameter := by
    obtain ⟨type, -, rfl⟩ := map_eq_some_iff.mp isBinding
    rfl
  unfold defaultBinding?
  split
  iterate 2 exact .bind (.anything _) fun types _ => .pure (ofType types)
  iterate 2
    refine .bind (.anything _) fun value _ => ?_
    split
    · exact .pure (by rintro binding ⟨⟩; rfl)
    · exact .pure (by rintro binding ⟨⟩)
  exact .pure (by rintro binding ⟨⟩)

theorem withDefault_settles (isOpen : bindings.isSatisfied parameter = false) (owner : NodeId)
    (kind : ParameterKind) :
    (withDefault owner parameter kind bindings).Ensures program
      fun later => bindings.SettledIn program.tree later := by
  refine .bind (defaultBinding?_ensures owner parameter kind bindings) fun found isOwn => ?_
  split
  next binding => exact .pure (settledIn_set (isOwn binding rfl ▸ isOpen))
  next => exact .pure (.refl _ bindings)

theorem applyDefault_settles (owner : NodeId) (bindings : Bindings) (parameter : NodeId) :
    (applyDefault owner bindings parameter).Ensures program
      fun later => bindings.SettledIn program.tree later := by
  unfold applyDefault
  split
  next => exact .pure (.refl _ bindings)
  next isUnsatisfied =>
    have isOpen : bindings.isSatisfied parameter = false := Bool.eq_false_iff.mpr isUnsatisfied
    refine .bind (.node parameter) fun entry _ => ?_
    split
    · exact .pure (.refl _ bindings)
    · exact .pure (settledIn_set isOpen)
    · exact withDefault_settles isOpen owner _

theorem applyDefaults_settles (owner : NodeId) (bindings : Bindings) :
    (applyDefaults owner bindings).Ensures program
      fun later => bindings.SettledIn program.tree later := by
  refine .bind (.node owner) fun entry _ => .foldlM ?_ _ (.refl _ bindings)
  intro between parameter isKept
  exact (applyDefault_settles owner between parameter).mono fun later => isKept.trans

theorem settledIn_convertToAny {source : Symbol} {expected : List Symbol}
    (converts : convertToAny source expected bindings = some later) :
    bindings.SettledIn tree later := by
  induction expected generalizing bindings with
  | nil => cases converts
  | cons first rest ih =>
    rw [convertToAny] at converts
    split at converts
    next isFirst =>
      cases converts
      exact (Symbol.convert_deduces isFirst).keeps.settledIn
    next isFirst =>
      exact (Symbol.convert_deduces isFirst).keeps.settledIn.trans (ih converts)

theorem specialize_keeps
    (owner : NodeId) (kind : ParameterKind) (bound : Binding) (bindings : Bindings) :
    Keeps program bindings (specialize owner kind bound bindings) := by
  unfold specialize
  split
  iterate 2
    split
    · exact .nothing
    · exact .bind (.anything _) fun _ _ => Ensures.pure fun _ => settledIn_convertToAny
  · refine .bind (.anything _) fun expected _ => ?_
    split
    · split
      · exact .unchanged bindings
      · exact .nothing
    · exact .nothing
  · exact .unchanged bindings

theorem specializeAll_keeps (owner : NodeId) (parameters : List NodeId) (bindings : Bindings) :
    Keeps program bindings (specializeAll owner parameters bindings) := by
  induction parameters generalizing bindings with
  | nil => exact .unchanged bindings
  | cons parameter rest ih =>
    refine .bind (.node parameter) fun entry _ => ?_
    split
    · refine .bind (specialize_keeps owner _ _ bindings) fun specialized isKept => ?_
      split
      · exact (ih _).after (isKept _ rfl)
      · exact .nothing
    · exact ih bindings

theorem specialized?_keeps (owner : NodeId) (bindings : Bindings) :
    Keeps program bindings (specialized? owner bindings) :=
  .bind (.node owner) fun entry _ => specializeAll_keeps owner entry.templateParameters bindings

end Template

/-! ## Capture of call arguments -/

/-- The captured binding if it is for the same parameter, and otherwise the binding itself. -/
def Binding.unlessCaptured (binding : Binding) (captured : Option Binding) : Binding :=
  (captured.filter (·.parameter == binding.parameter)).getD binding

theorem Binding.parameter_unlessCaptured (binding : Binding) (captured : Option Binding) :
    (binding.unlessCaptured captured).parameter = binding.parameter := by
  unfold unlessCaptured
  cases isCaptured : captured.filter (·.parameter == binding.parameter) with
  | none => rfl
  | some other => exact beq_iff_eq.mp (filter_eq_some_iff.mp isCaptured).2

namespace Bindings

variable {captured : Option Binding} {bindings : Bindings}

/-- Every settled binding is there later as well, unless its parameter was captured. -/
def SettledUpTo (tree : Tree) (captured : Option Binding) (bindings later : Bindings) : Prop :=
  ∀ binding, binding.IsSettled tree → bindings.Has binding →
    later.Has (binding.unlessCaptured captured)

theorem SettledUpTo.after
    (isKept : bindings.SettledIn tree between) (upTo : between.SettledUpTo tree captured later) :
    bindings.SettledUpTo tree captured later :=
  fun binding isSettled has => upTo binding isSettled (isKept binding isSettled has)

theorem settledUpTo_set (tree : Tree) (bindings : Bindings) (captured : Binding) :
    bindings.SettledUpTo tree (some captured) (bindings.set captured) := by
  intro binding isSettled has
  unfold Binding.unlessCaptured
  rw [filter_some]
  split
  next => exact .set_self bindings captured
  next isOther => exact has.set_of_ne fun isSame => isOther (beq_iff_eq.mpr isSame)

end Bindings

namespace Template

open Query

variable {bindings : Bindings} {method : Node} {parameters : List NodeId}

/--
The binding of a tuple parameter to call arguments.

The first function parameter whose written type is a tuple parameter takes all
arguments from its place on.
-/
def captured? (tree : Tree) (method : Node) :
    List NodeId → List (Option Symbol) → Option Binding
  | [], _ => none
  | parameter :: parameters, arguments =>
    match ((tree.node? parameter).bind (·.declaredType?)).bind (tupleParameter? tree method) with
    | some tuple => some (.ofType tuple (.tuple (arguments.map tupleItem)))
    | none => captured? tree method parameters arguments.tail

theorem isSettled_of_captured?
    (isCaptured : captured? tree method parameters arguments = some binding) :
    binding.IsSettled tree := by
  induction parameters generalizing arguments with
  | nil => cases isCaptured
  | cons parameter rest ih =>
    rw [captured?] at isCaptured
    split at isCaptured
    next tuple isTuple =>
      cases isCaptured
      refine ⟨rfl, fun type specialization default isValue => ?_⟩
      obtain ⟨pattern, -, isNamed⟩ := bind_eq_some_iff.mp isTuple
      obtain ⟨name, -, isFirst⟩ := bind_eq_some_iff.mp isNamed
      have isMatch := find?_some isFirst
      have isKind := (Bool.and_eq_true_iff.mp isMatch).2
      change tree.parameterKind? tuple = _ at isValue
      rw [isValue] at isKind
      cases isKind
    next => exact ih isCaptured

theorem isSettled_unlessCaptured (isSettled : binding.IsSettled tree) :
    (binding.unlessCaptured (captured? tree method parameters arguments)).IsSettled tree := by
  unfold Binding.unlessCaptured
  cases isCaptured :
      (captured? tree method parameters arguments).filter (·.parameter == binding.parameter) with
  | none => exact isSettled
  | some other => exact isSettled_of_captured? (filter_eq_some_iff.mp isCaptured).1

theorem matchCall_settles {method : NodeId} (isEntry : program.tree.node? method = some entry)
    (parameters : List NodeId) (arguments : List (Option Symbol)) (bindings : Bindings) :
    (matchCall method parameters arguments bindings).Ensures program fun result =>
      ∀ later, result = some later →
        bindings.SettledUpTo program.tree (captured? program.tree entry parameters arguments)
          later := by
  induction parameters generalizing arguments bindings with
  | nil =>
    refine .pure fun later isLater => ?_
    split at isLater <;> cases isLater
    exact fun _ _ has => has
  | cons parameter rest ih =>
    unfold matchCall captured?
    refine .bind (.node parameter) fun parameterEntry isParameter => ?_
    rw [isParameter, bind_some]
    cases parameterEntry.declaredType? with
    | none => exact ih arguments.tail bindings
    | some pattern =>
      refine .bind .tree fun tree isTree => .bind (.node method) fun owner isOwner => ?_
      subst isTree
      cases isEntry.symm.trans isOwner
      rw [bind_some]
      cases tupleParameter? program.tree entry pattern with
      | some tuple =>
        refine .pure ?_
        rintro later ⟨⟩
        exact settledUpTo_set _ _ _
      | none =>
        dsimp only
        split
        · split
          · exact ih [] bindings
          · exact .pure (by rintro later ⟨⟩)
        · exact ih _ bindings
        · refine .bind (matchType_keeps method pattern _ bindings) fun matched isKept => ?_
          split
          · refine (ih _ _).mono fun result upTo later isLater => ?_
            exact (upTo later isLater).after (isKept _ rfl)
          · exact .pure (by rintro later ⟨⟩)

end Template

/-! ## Explicit arguments -/

/-- The binding of a parameter to an argument. -/
def Argument.bindTo? (parameter : NodeId) : Argument → Option Binding
  | .type symbol | .value (.type symbol) => some (.ofType parameter symbol)
  | .value constant => some (.ofValue parameter constant)
  | .unresolved _ => none

namespace ParameterKind

variable {argument : Argument}

theorem bindTo?_of_bind? (binds : kind.bind? parameter argument = some binding) :
    argument.bindTo? parameter = some binding := by
  induction kind with
  | receiver inner ih =>
    cases argument with
    | unresolved text => cases binds
    | _ => exact ih binds
  | _ =>
    cases argument with
    | type symbol => simp_all [bind?, Argument.bindTo?, Argument.type?]
    | value constant => cases constant <;> simp_all [bind?, Argument.bindTo?, Argument.type?]
    | unresolved text => simp [bind?] at binds

theorem isBound_of_bindTo? (binds : argument.bindTo? parameter = some binding) :
    binding.parameter = parameter ∧ binding.isBound = true := by
  unfold Argument.bindTo? at binds
  split at binds <;> cases binds <;> simp [Binding.ofType, Binding.ofValue, Binding.isBound]

theorem isSettled_of_bind? (isKind : tree.parameterKind? parameter = some kind)
    (binds : kind.bind? parameter argument = some binding) : binding.IsSettled tree := by
  obtain ⟨isParameter, isBound⟩ := isBound_of_bindTo? (bindTo?_of_bind? binds)
  refine ⟨isBound, fun type specialization default isValue => ?_⟩
  rw [isParameter, isKind] at isValue
  cases isValue
  -- A value parameter turns down everything but a constant.
  cases argument with
  | type symbol => cases binds
  | value constant => cases constant <;> cases binds <;> rfl
  | unresolved text => cases binds

end ParameterKind

namespace Template

open Query

variable {bindings : Bindings} {rest : List NodeId}

/--
The bindings that explicit arguments make.

Arguments are taken in the order of the parameters. A tuple parameter takes all that
remain, if any do.
-/
def assigned (tree : Tree) : List NodeId → List Argument → List Binding
  | parameter :: parameters, argument :: arguments =>
    match tree.parameterKind? parameter with
    | none => assigned tree parameters (argument :: arguments)
    | some .tuple => [.ofType parameter (.tuple (argument :: arguments))]
    | some _ => (argument.bindTo? parameter).toList ++ assigned tree parameters arguments
  | _, _ => []

theorem assigned_nil (tree : Tree) (parameters : List NodeId) :
    assigned tree parameters [] = [] := by
  cases parameters <;> rfl

theorem assigned_cons (isKind : tree.parameterKind? parameter = some kind)
    (isNoTuple : kind ≠ .tuple) (parameters : List NodeId) (argument : Argument)
    (arguments : List Argument) :
    assigned tree (parameter :: parameters) (argument :: arguments) =
      (argument.bindTo? parameter).toList ++ assigned tree parameters arguments := by
  rw [assigned, isKind]
  cases kind with
  | tuple => exact absurd rfl isNoTuple
  | _ => rfl

/-- Whether the template parameters are distinct and none of them is a `this` parameter. -/
structure TakesArguments (tree : Tree) (parameters : List NodeId) : Prop where
  areDistinct : parameters.Nodup
  areNoReceivers :
    ∀ parameter ∈ parameters, ∀ inner, tree.parameterKind? parameter ≠ some (.receiver inner)

theorem TakesArguments.tail (takes : TakesArguments tree (parameter :: rest)) :
    parameter ∉ rest ∧ TakesArguments tree rest :=
  ⟨(nodup_cons.mp takes.areDistinct).1, (nodup_cons.mp takes.areDistinct).2,
    (forall_mem_cons.mp takes.areNoReceivers).2⟩

/-- How bindings change when explicit arguments are bound to parameters. -/
structure Assigns
    (tree : Tree)
    (parameters : List NodeId)
    (given : List Argument)
    (bindings later : Bindings) : Prop where
  keepsOthers :
    ∀ binding, binding.parameter ∉ parameters → bindings.Has binding → later.Has binding
  binds :
    ∀ binding ∈ assigned tree parameters given, binding.IsSettled tree ∧ later.Has binding

namespace Assigns

variable {given left : List Argument}

theorem skip (assigns : Assigns tree rest given bindings later)
    (isSame : assigned tree (parameter :: rest) given = assigned tree rest given) :
    Assigns tree (parameter :: rest) given bindings later where
  keepsOthers binding isOther :=
    assigns.keepsOthers binding fun isRest => isOther (mem_cons_of_mem parameter isRest)
  binds binding isAssigned := assigns.binds binding (isSame ▸ isAssigned)

theorem set {added : Binding} (isParameter : added.parameter = parameter) (isNew : parameter ∉ rest)
    (assigns : Assigns tree rest left (bindings.set added) later) (isSettled : added.IsSettled tree)
    (areAssigned : assigned tree (parameter :: rest) given ⊆ added :: assigned tree rest left) :
    Assigns tree (parameter :: rest) given bindings later where
  keepsOthers binding isOther has := by
    rw [mem_cons, not_or] at isOther
    refine assigns.keepsOthers binding isOther.2 (has.set_of_ne fun isSame => isOther.1 ?_)
    rw [← isSame, isParameter]
  binds binding isAssigned := by
    rcases mem_cons.mp (areAssigned isAssigned) with rfl | isRest
    · exact ⟨isSettled, assigns.keepsOthers binding (isParameter ▸ isNew) (.set_self _ _)⟩
    · exact assigns.binds binding isRest

end Assigns

/-- Explicit arguments are bound in the order of the parameters. -/
theorem bindInOrder_assigns (owner : NodeId) (receiver : Option Symbol) {parameters : List NodeId}
    (takes : TakesArguments program.tree parameters) (given : List Argument) (bindings : Bindings) :
    (bindInOrder owner receiver false parameters given bindings).Ensures program fun result =>
      ∀ later left, result = some (later, left) →
        Assigns program.tree parameters given bindings later := by
  induction parameters generalizing given bindings with
  | nil =>
    refine .pure ?_
    rintro later left ⟨⟩
    exact ⟨fun _ _ has => has, fun _ isAssigned => by cases isAssigned⟩
  | cons parameter rest ih =>
    obtain ⟨isNew, takesRest⟩ := takes.tail
    have inRest := ih takesRest
    unfold bindInOrder
    refine .bind (.node parameter) fun entry isEntry => ?_
    have sameKind : program.tree.parameterKind? parameter = entry.parameterKind? := by
      rw [Tree.parameterKind?, isEntry, bind_some]
    split
    next isKind =>
      refine (inRest given bindings).mono fun result assigns later left isLater => ?_
      apply (assigns later left isLater).skip
      cases given with
      | nil => rw [assigned_nil, assigned_nil]
      | cons argument arguments => rw [assigned, sameKind, isKind]
    next inner _ isKind =>
      have isNoReceiver := takes.areNoReceivers parameter mem_cons_self inner
      exact absurd (sameKind.trans isKind) isNoReceiver
    next kind isKind _ =>
      have isKind := sameKind.trans isKind
      have isOwn : kind.withoutReceiver = kind := by
        cases kind with
        | receiver inner =>
          exact absurd isKind (takes.areNoReceivers parameter mem_cons_self inner)
        | _ => rfl
      rw [isOwn]
      split
      next =>
        refine (inRest [] _).mono fun result assigns later left isLater => ?_
        refine (assigns later left isLater).set rfl isNew ⟨rfl, ?_⟩ ?_
        · intro type specialization default isValue
          cases isKind.symm.trans isValue
        · cases given with
          | nil => rw [assigned_nil]; exact nil_subset _
          | cons argument arguments =>
            rw [assigned, isKind]
            exact cons_subset_cons _ (nil_subset _)
      next argument arguments notTuple =>
        split
        next binding binds =>
          have isAssigned := ParameterKind.bindTo?_of_bind? binds
          refine (inRest arguments _).mono fun result assigns later left isLater => ?_
          refine (assigns later left isLater).set (ParameterKind.isBound_of_bindTo? isAssigned).1
            isNew (ParameterKind.isSettled_of_bind? isKind binds) ?_
          rw [assigned_cons isKind notTuple rest argument arguments, isAssigned]
          exact Subset.refl _
        next => exact .pure (by rintro later left ⟨⟩)
      next =>
        refine (inRest [] bindings).mono fun result assigns later left isLater => ?_
        apply (assigns later left isLater).skip
        rw [assigned_nil, assigned_nil]

theorem bindParameters_binds {owner : NodeId} (isEntry : program.tree.node? owner = some entry)
    (takes : TakesArguments program.tree entry.templateParameters) (overload : Symbol)
    (given : List Argument) (atCall : Bool) (bindings : Bindings) :
    (bindParameters owner overload given atCall false bindings).Ensures program fun result =>
      ∀ later, result = some later →
        ∀ binding ∈ assigned program.tree entry.templateParameters given,
          binding.IsSettled program.tree ∧ later.Has binding := by
  refine .bind (.node owner) fun found isFound => ?_
  cases isEntry.symm.trans isFound
  refine .bind (bindInOrder_assigns owner _ takes given bindings) fun result assigns => ?_
  split
  next later left =>
    refine .pure fun kept isKept => ?_
    split at isKept <;> cases isKept
    exact (assigns later left rfl).binds
  next => exact .pure (by rintro later ⟨⟩)

end Template

/-! ## Chosen overloads -/

theorem DeclaredSymbol.visit_method
    (isMethod : entry.isMethod = true) (id : NodeId) (reach : Reach) (bindings : Bindings) :
    (visit id entry reach bindings).Ensures program fun found =>
      ∃ base, found = some (.member id base bindings) := by
  unfold Node.isMethod at isMethod
  split at isMethod
  next isKind =>
    unfold visit
    rw [isKind]
    dsimp only
    split <;> exact .bind (.anything _) fun base _ => .pure ⟨base, rfl⟩
  next => cases isMethod

/-- The symbol of a method carries the bindings that are attached to it. -/
theorem Query.delivers_symbolOf_method {limit : Nat} {method : NodeId}
    (isEntry : program.tree.node? method = some entry) (isMethod : entry.isMethod = true)
    (bindings : Bindings) :
    (Query.symbolOf method bindings).Delivers
      { program, evaluator, answer := answer program evaluator limit }
      fun found =>
        ∃ base stack,
          found =
            some (.member method base (attached program.tree stack method entry bindings)) := by
  intro state result final returned isRunning
  have isStartRunning : ¬state.isCancelled = true := by
    intro isCancelled
    rw [answer_staysCancelled _ _ _ _ returned isCancelled] at isRunning
    cases isRunning
  cases limit with
  | zero => cases returned
  | succ limit =>
    obtain ⟨found, later, isNode, returned⟩ := Query.bind_eq_ok.mp returned
    obtain ⟨isFound, rfl⟩ := Query.node_eq_ok.mp isNode
    cases isEntry.symm.trans isFound
    obtain ⟨tree, _, ⟨⟩, returned⟩ := Query.bind_eq_ok.mp returned
    obtain ⟨options, _, ⟨⟩, returned⟩ := Query.bind_eq_ok.mp returned
    obtain ⟨read, _, ⟨⟩, returned⟩ := Query.bind_eq_ok.mp returned
    rw [Query.visiting_apply] at returned
    split at returned
    next value later isVisit =>
      cases returned
      obtain ⟨found, framed, isFramed, ⟨⟩⟩ := Query.bind_eq_ok.mp isVisit
      rw [Query.withFrame_apply, if_neg isStartRunning] at isFramed
      split at isFramed
      next inner _ isInner =>
        cases isFramed
        obtain ⟨base, rfl⟩ := visit_method isMethod method _ _ rfl isInner
        exact ⟨base, _, rfl⟩
      next => cases isFramed
    next => cases returned

namespace Template

open PlainFunction (callArguments)

variable {limit : Nat} {explicit : List Argument}

/-- How a symbol that takes a call stands to the overload that it is an instance of. -/
structure IsInstance
    (program : Program)
    (explicit : List Argument)
    (arguments : List (Option Symbol))
    (overload symbol : Symbol)
    (method : NodeId)
    (entry : Node) : Prop where
  isOverloaded : overload.definition? = some method
  isEntry : program.tree.node? method = some entry
  isDefined : symbol.definition? = some method
  binds :
    TakesArguments program.tree entry.templateParameters →
      ∀ binding ∈ assigned program.tree entry.templateParameters explicit,
        symbol.bindings.get? binding.parameter =
          some (binding.unlessCaptured
            (captured? program.tree entry entry.parameters (callArguments overload arguments)))

theorem instantiateMember_delivers {method : NodeId}
    (isEntry : program.tree.node? method = some entry) (isMethod : entry.isMethod = true)
    (overload : Symbol) (bindings : Bindings) :
    (instantiateMember overload method bindings).Delivers
      { program, evaluator, answer := answer program evaluator limit }
      fun symbol =>
        symbol.definition? = some method ∧ bindings.SettledIn program.tree symbol.bindings := by
  refine .map (Query.delivers_symbolOf_method isEntry isMethod bindings) ?_
  rintro found ⟨base, stack, rfl⟩
  rw [Symbol.definition?, Symbol.bindings, Symbol.bindings?, Symbol.shape_withMissingTags]
  exact ⟨rfl, settledIn_attached program.tree stack method entry bindings⟩

/-- An instance of an overload binds the explicit arguments, up to what is captured. -/
theorem instantiateForCall_delivers (overload : Symbol) :
    (instantiateForCall explicit arguments overload).Delivers
      { program, evaluator, answer := answer program evaluator limit }
      fun found =>
        ∀ symbol, found = some symbol →
          ∃ method entry, IsInstance program explicit arguments overload symbol method entry := by
  have nothing {holds : Symbol → Prop} :
      Query.Delivers { program, evaluator, answer := answer program evaluator limit }
        (pure none) fun found => ∀ symbol, found = some symbol → holds symbol :=
    .pure (by rintro symbol ⟨⟩)
  unfold instantiateForCall
  split
  next method isOverloaded =>
    refine .bind (.node method) fun entry isEntry => ?_
    split
    next => exact nothing
    next isMethod =>
      have isMethod : entry.isMethod = true := by simpa using isMethod
      have binds :
          (bindParameters method overload explicit false false
              ((forParameters entry.templateParameters).mergeMissing
                overload.bindings)).Ensures program fun result =>
            ∀ later, result = some later → TakesArguments program.tree entry.templateParameters →
              ∀ binding ∈ assigned program.tree entry.templateParameters explicit,
                binding.IsSettled program.tree ∧ later.Has binding :=
        fun _ _ _ _ isProgram returned later isLater takes =>
          bindParameters_binds isEntry takes _ _ _ _ isProgram returned later isLater
      refine .bind binds fun bound areBound => ?_
      split
      next bound =>
        refine .bind (matchCall_settles isEntry _ _ bound) fun matched isMatched => ?_
        split
        next matched =>
          refine .bind (applyDefaults_settles method matched) fun completed isCompleted => ?_
          split
          next => exact nothing
          next =>
            refine .bind (specialized?_keeps method completed) fun specialized isSpecialized => ?_
            split
            next bindings =>
              refine .map (instantiateMember_delivers isEntry isMethod overload bindings) ?_
              rintro symbol ⟨isDefined, isAttached⟩ _ ⟨⟩
              refine ⟨method, entry, isOverloaded, isEntry, isDefined, ?_⟩
              intro takes binding isAssigned
              -- What is captured is settled as well, so it stays from the capture on.
              obtain ⟨isSettled, isBound⟩ := areBound bound rfl takes binding isAssigned
              have isKept := (isCompleted.trans (isSpecialized bindings rfl)).trans isAttached
              have has := isKept _ (isSettled_unlessCaptured isSettled)
                (isMatched matched rfl binding isSettled isBound)
              rw [Has, Binding.parameter_unlessCaptured] at has
              exact has
            next => exact nothing
        next => exact nothing
      next => exact nothing
  next => exact nothing

theorem narrow_ensures (overloads : List Symbol) :
    (narrow overloads).Ensures program (· ⊆ overloads) := by
  refine .bind .tree fun tree _ => .bind (.filterM _ overloads) fun kept areKept => .pure ?_
  exact Subset.trans (filter_subset_self _) areKept

theorem selectForCall_delivers (overloads : List Symbol) :
    (selectForCall overloads explicit arguments).Delivers
      { program, evaluator, answer := answer program evaluator limit }
      fun found =>
        ∀ symbol ∈ found,
          ∃ overload ∈ overloads.flatMap Symbol.candidates,
            ∃ method entry, IsInstance program explicit arguments overload symbol method entry := by
  refine .narrowed (.collect fun overload isOverload => ?_) narrow_ensures fun instances => ?_
  · refine .map (instantiateForCall_delivers overload) fun found areInstances symbol isSymbol => ?_
    exact ⟨overload, isOverload, areInstances symbol (mem_toList.mp isSymbol)⟩
  · have orderly : Orderly program (fun _ _ => True) .plain (fun _ => True) (narrow instances) :=
      (narrow_confined (fun _ _ => trivial) (Sieve.passes_whole instances)).orderly
    exact orderly.staysCancelled _ rfl (answer_staysCancelled program evaluator limit)

end Template

/--
Explicit arguments win over what is deduced, except for a captured tuple parameter.

A symbol that takes a call, in a query that is not cancelled, is an instance of one of
the overloads. Its template parameters that have explicit arguments are bound to them,
up to the tuple parameter that the function parameters name first: that one is bound to
the types of the call arguments from its place on.
-/
theorem explicit_arguments_hold_unless_captured
    {program : Program}
    {evaluator : Evaluator}
    {limit : Nat}
    {overloads found : List Symbol}
    {explicit : List Argument}
    {arguments : List (Option Symbol)}
    {state final : State}
    (returned :
      Engine.run program evaluator limit
          (Operation.deduceCall overloads explicit arguments).query state =
        .ok (found, final))
    (isRunning : final.isCancelled = false)
    {symbol : Symbol}
    (isFound : symbol ∈ found) :
    ∃ overload ∈ overloads.flatMap Symbol.candidates,
      ∃ method entry,
        Template.IsInstance program explicit arguments overload symbol method entry :=
  Template.selectForCall_delivers overloads returned isRunning symbol isFound

theorem Engine.exists_single_of_any {outcome : Except Halt (List Symbol × State)}
    (isSingle :
      outcome.toOption.any (fun found => found.1.length == 1 && !found.2.isCancelled) = true) :
    ∃ symbol final, outcome = .ok ([symbol], final) ∧ final.isCancelled = false := by
  obtain ⟨⟨found, final⟩, isOutcome, passes⟩ := exists_of_any isSingle
  simp only [Bool.and_eq_true, beq_iff_eq, length_eq_one_iff, Bool.not_eq_true'] at passes
  obtain ⟨⟨symbol, rfl⟩, isRunning⟩ := passes
  exact ⟨symbol, final, isOutcome, isRunning⟩

/-- Two functions with tuple parameters, `f(T, V...)(T first, V others)` and `g(V...)(V all)`. -/
def Program.variadic : Program :=
  .ofTree (.ofSteps
    [ .module "m",
      .member ⟨0⟩ "f" (.method (some (.basic .void)) [] none),
      .templateParameter ⟨1⟩ "T" (.type none none),
      .templateParameter ⟨1⟩ "V" .tuple,
      .parameter ⟨1⟩ "first" (.named "T"),
      .parameter ⟨1⟩ "others" (.named "V"),
      .member ⟨0⟩ "g" (.method (some (.basic .void)) [] none),
      .templateParameter ⟨6⟩ "V" .tuple,
      .parameter ⟨6⟩ "all" (.named "V") ])

/-- The call `f!(long, char)(int, bool)` takes its first type from the explicit arguments. -/
theorem explicit_type_holds_beside_captured_tuple :
    ∃ symbol final,
      Engine.run .variadic .standard 9
            (Operation.deduceCall [.member ⟨1⟩ none .none]
              [.type (.primitive .long), .type (.primitive .char)]
              [some (.primitive .int), some (.primitive .bool)]).query
            (.start ⟨0⟩ none) =
          .ok ([symbol], final) ∧
        final.isCancelled = false ∧
          symbol.bindings.get? ⟨2⟩ = some (.ofType ⟨2⟩ (.primitive .long)) ∧
          symbol.bindings.get? ⟨3⟩ =
            some (.ofType ⟨3⟩ (.tuple [.type (.primitive .bool)])) := by
  have run :
      (run .variadic .standard 9
          (Operation.deduceCall [.member ⟨1⟩ none .none]
            [.type (.primitive .long), .type (.primitive .char)]
            [some (.primitive .int), some (.primitive .bool)]).query
          (.start ⟨0⟩ none)).toOption.any
        (fun outcome => outcome.1.length == 1 && !outcome.2.isCancelled) =
        true := by
    decide +kernel
  obtain ⟨symbol, final, returned, isRunning⟩ := exists_single_of_any run
  obtain ⟨overload, isOverload, method, entry, isInstance⟩ :=
    explicit_arguments_hold_unless_captured returned isRunning (mem_singleton.mpr rfl)
  obtain rfl : overload = .member ⟨1⟩ none .none := mem_singleton.mp isOverload
  cases isInstance.isOverloaded
  have isEntry := isInstance.isEntry
  cases isEntry
  have takes : Template.TakesArguments Program.variadic.tree [⟨2⟩, ⟨3⟩] := by
    refine ⟨by decide, fun parameter isParameter inner isReceiver => ?_⟩
    simp only [mem_cons, not_mem_nil, or_false] at isParameter
    rcases isParameter with rfl | rfl <;> cases isReceiver
  have binds := isInstance.binds takes
  exact ⟨symbol, final, returned, isRunning,
    binds (.ofType ⟨2⟩ (.primitive .long)) mem_cons_self,
    binds (.ofType ⟨3⟩ (.tuple [.type (.primitive .char)])) (mem_cons_of_mem _ mem_cons_self)⟩

/-- The call `g!(char)(bool)` binds the tuple parameter to the call argument. -/
theorem captured_tuple_loses_explicit_arguments :
    ∃ symbol final,
      Engine.Settles .variadic .standard
          (Operation.deduceCall [.member ⟨6⟩ none .none] [.type (.primitive .char)]
            [some (.primitive .bool)]).query
          (.start ⟨0⟩ none) [symbol] final ∧
        final.isCancelled = false ∧
          Template.assigned Program.variadic.tree [⟨7⟩] [.type (.primitive .char)] =
              [.ofType ⟨7⟩ (.tuple [.type (.primitive .char)])] ∧
          symbol.bindings.get? ⟨7⟩ =
            some (.ofType ⟨7⟩ (.tuple [.type (.primitive .bool)])) := by
  have run :
      (run .variadic .standard 9
          (Operation.deduceCall [.member ⟨6⟩ none .none] [.type (.primitive .char)]
            [some (.primitive .bool)]).query
          (.start ⟨0⟩ none)).toOption.any
        (fun outcome => outcome.1.length == 1 && !outcome.2.isCancelled) =
        true := by
    decide +kernel
  obtain ⟨symbol, final, returned, isRunning⟩ := exists_single_of_any run
  have settles := Settles.ofRun (Operation.query_orderly _ _) returned
  obtain ⟨overload, isOverload, method, entry, isInstance⟩ :=
    Template.selectForCall_delivers _ returned isRunning symbol (mem_singleton.mpr rfl)
  obtain rfl : overload = .member ⟨6⟩ none .none := mem_singleton.mp isOverload
  cases isInstance.isOverloaded
  have isEntry := isInstance.isEntry
  cases isEntry
  have takes : Template.TakesArguments Program.variadic.tree [⟨7⟩] := by
    refine ⟨by decide, fun parameter isParameter inner isReceiver => ?_⟩
    obtain rfl := mem_singleton.mp isParameter
    cases isReceiver
  exact ⟨symbol, final, settles, isRunning, rfl,
    isInstance.binds takes (.ofType ⟨7⟩ (.tuple [.type (.primitive .char)])) mem_cons_self⟩

end DScope
