import DScope.Proofs.ExplicitArguments
import DScope.Proofs.Slots

namespace DScope

/-!
# Arguments of struct templates

A struct template that is given arguments is bound to them as they were distributed over
its parameters. No argument gets lost and none is used twice: what the parameters are
bound to, one after the other, is what was given. The template is turned down where a
parameter is left without an argument of its kind, or an argument without a parameter.
-/

open List Template Argument Option

variable {tree : Tree} {parameters : List NodeId} {given : List Argument}
  {portion : NodeId × List Argument} {parameter : NodeId} {binding : Binding} {bindings : Bindings}

namespace Argument

/-- The argument, where a type in the place of a constant counts as that type. -/
def asType : Argument → Argument
  | .value (.type symbol) => .type symbol
  | argument => argument

theorem asType_asType (argument : Argument) : argument.asType.asType = argument.asType := by
  cases argument with
  | value constant => cases constant <;> rfl
  | _ => rfl

theorem argument?_of_bindTo? {argument : Argument}
    (binds : argument.bindTo? parameter = some binding) :
    binding.argument? = some argument.asType := by
  cases argument with
  | type symbol => cases binds; rfl
  | value constant => cases constant <;> cases binds <;> rfl
  | unresolved text => cases binds

end Argument

/-! ## Bound portions -/

namespace Template

variable {portions : List (NodeId × List Argument)}

/-- Whether a template parameter stands for arguments of the kind of the given one. -/
def takes (tree : Tree) (parameter : NodeId) (argument : Argument) : Bool :=
  (tree.parameterKind? parameter).any (·.takes argument)

/-- The arguments that a template parameter is bound to; a tuple stands for its items. -/
def boundArguments (tree : Tree) (bindings : Bindings) (parameter : NodeId) : List Argument :=
  match bindings.get? parameter with
  | none => []
  | some binding =>
    match isTuple tree parameter, binding.base.map Symbol.shape with
    | true, some (.tuple items) => items
    | _, _ => binding.argument?.toList

theorem isBound_of_bindingOf? (binds : bindingOf? tree portion = some binding) :
    binding.parameter = portion.1 ∧ binding.isBound = true := by
  unfold bindingOf? at binds
  split at binds
  · cases binds
    exact ⟨rfl, rfl⟩
  · exact ParameterKind.isBound_of_bindTo? (ParameterKind.bindTo?_of_bind? binds)
  · cases binds

theorem length_le_one_of_mem_portions
    (isPortion : portion ∈ Template.portions tree parameters given)
    (isNoTuple : isTuple tree portion.1 = false) : portion.2.length ≤ 1 := by
  induction parameters generalizing given with
  | nil => cases isPortion
  | cons parameter rest ih =>
    rw [Template.portions] at isPortion
    split at isPortion
    next isTuple =>
      rcases mem_cons.mp isPortion with rfl | isLater
      · rw [isTuple] at isNoTuple
        cases isNoTuple
      · exact ih isLater
    next =>
      rcases mem_cons.mp isPortion with rfl | isLater
      · exact length_take_le 1 given
      · exact ih isLater

theorem bindingOf?_eq_none_iff (isUnrestricted : IsUnrestricted tree portion.1)
    (isShort : isTuple tree portion.1 = false → portion.2.length ≤ 1) :
    bindingOf? tree portion = none ↔
      isTuple tree portion.1 = false ∧
        ∀ argument ∈ portion.2, takes tree portion.1 argument = false := by
  obtain ⟨parameter, arguments⟩ := portion
  obtain ⟨kind, isKind, isUnrestricted⟩ := isUnrestricted
  simp only [isTuple_eq isKind, takes, isKind] at isShort ⊢
  cases isTuple : kind.isTuple with
  | true =>
    obtain rfl : kind = .tuple := ParameterKind.eq_tuple isTuple
    simp [bindingOf?_tuple isKind]
  | false =>
    match arguments, isShort isTuple with
    | [], _ => simp [bindingOf?_nil isKind isTuple]
    | [argument], _ =>
      have isTaken := ParameterKind.isSome_bind? isUnrestricted isTuple parameter argument
      rw [bindingOf?_singleton isKind isTuple]
      simp [← isTaken]

theorem withPortions_cons (portion : NodeId × List Argument) (rest : List (NodeId × List Argument))
    (bindings : Bindings) :
    withPortions tree (portion :: rest) bindings =
      withPortions tree rest ((bindingOf? tree portion).elim bindings bindings.set) := by
  unfold withPortions
  cases isBound : bindingOf? tree portion with
  | none => rw [filterMap_cons_none isBound]; rfl
  | some binding => rw [filterMap_cons_some isBound]; rfl

theorem parameters_withPortions
    (areContained : ∀ portion ∈ portions, portion.1 ∈ bindings.parameters) :
    (withPortions tree portions bindings).parameters = bindings.parameters := by
  induction portions generalizing bindings with
  | nil => rfl
  | cons first rest ih =>
    have isKept :
        ((bindingOf? tree first).elim bindings bindings.set).parameters = bindings.parameters := by
      cases isBound : bindingOf? tree first with
      | none => rfl
      | some binding =>
        apply Bindings.parameters_set
        rw [(isBound_of_bindingOf? isBound).1]
        exact areContained first mem_cons_self
    rw [withPortions_cons, ih, isKept]
    intro portion isLater
    rw [isKept]
    exact areContained portion (mem_cons_of_mem first isLater)

theorem get?_withPortions_of_notMem (isOther : parameter ∉ portions.map Prod.fst) :
    (withPortions tree portions bindings).get? parameter = bindings.get? parameter := by
  induction portions generalizing bindings with
  | nil => rfl
  | cons first rest ih =>
    rw [map_cons, mem_cons, not_or] at isOther
    rw [withPortions_cons, ih isOther.2]
    cases isBound : bindingOf? tree first with
    | none => rfl
    | some binding =>
      rw [elim_some, Bindings.get?_set, (isBound_of_bindingOf? isBound).1,
        if_neg (Ne.symm isOther.1)]

theorem get?_withPortions (areDistinct : (portions.map Prod.fst).Nodup)
    (areOpen : ∀ portion ∈ portions, bindings.get? portion.1 = none)
    (isPortion : portion ∈ portions) :
    (withPortions tree portions bindings).get? portion.1 = bindingOf? tree portion := by
  induction portions generalizing bindings with
  | nil => cases isPortion
  | cons first rest ih =>
    obtain ⟨isNew, areDistinct⟩ := nodup_cons.mp areDistinct
    rw [withPortions_cons]
    rcases mem_cons.mp isPortion with rfl | isLater
    · rw [get?_withPortions_of_notMem isNew]
      cases isBound : bindingOf? tree portion with
      | none => exact areOpen portion mem_cons_self
      | some binding =>
        rw [elim_some, Bindings.get?_set, if_pos (isBound_of_bindingOf? isBound).1]
    · apply ih areDistinct _ isLater
      intro later isLater
      have isOpen := areOpen later (mem_cons_of_mem first isLater)
      cases isBound : bindingOf? tree first with
      | none => exact isOpen
      | some binding =>
        have isOther : first.1 ≠ later.1 := fun isSame =>
          isNew (isSame ▸ mem_map_of_mem isLater)
        rw [elim_some, Bindings.get?_set, (isBound_of_bindingOf? isBound).1, if_neg isOther]
        exact isOpen

theorem boundArguments_eq (isShort : isTuple tree portion.1 = false → portion.2.length ≤ 1)
    (isBound : bindingOf? tree portion = some binding)
    (isHeld : bindings.get? portion.1 = some binding) :
    (boundArguments tree bindings portion.1).map asType = portion.2.map asType := by
  obtain ⟨parameter, arguments⟩ := portion
  rw [boundArguments, isHeld]
  cases isKind : tree.parameterKind? parameter with
  | none => simp [bindingOf?, isKind] at isBound
  | some kind =>
    cases isTuple : kind.isTuple with
    | true =>
      obtain rfl := ParameterKind.eq_tuple isTuple
      rw [bindingOf?_tuple isKind] at isBound
      cases isBound
      simp [isTuple_eq isKind, Binding.ofType, Symbol.tuple, Symbol.ofShape, ParameterKind.isTuple]
    | false =>
      rw [isTuple_eq isKind] at isShort ⊢
      cases arguments with
      | nil => simp [bindingOf?_nil isKind isTuple] at isBound
      | cons argument rest =>
        obtain rfl : rest = [] := by simpa using isShort isTuple
        rw [bindingOf?_singleton isKind isTuple] at isBound
        have isArgument := argument?_of_bindTo? (ParameterKind.bindTo?_of_bind? isBound)
        simp [isTuple, isArgument, asType_asType]

end Template

namespace Template

section Completion

variable (areDistinct : parameters.Nodup) (areOpen : bindings.AreOpenFor parameters)

include areDistinct areOpen

theorem get?_distributed (isPortion : portion ∈ portions tree parameters given) :
    (withPortions tree (portions tree parameters given) bindings).get? portion.1 =
      bindingOf? tree portion := by
  refine get?_withPortions ?_ (fun other isOther => ?_) isPortion
  · rw [map_fst_portions]
    exact areDistinct
  · exact areOpen.areOpen other.1 ((mem_iff_exists_portion given).mpr ⟨other, isOther, rfl⟩)

theorem isSatisfied_distributed (isPortion : portion ∈ portions tree parameters given) :
    (withPortions tree (portions tree parameters given) bindings).isSatisfied portion.1 =
      (bindingOf? tree portion).isSome := by
  rw [Bindings.isSatisfied, get?_distributed areDistinct areOpen isPortion]
  cases isBound : bindingOf? tree portion with
  | none => rfl
  | some binding => exact (isBound_of_bindingOf? isBound).2

theorem forall_isSatisfied_iff :
    (∀ parameter ∈ parameters,
        (withPortions tree (portions tree parameters given) bindings).isSatisfied parameter =
          true) ↔
      ∀ portion ∈ portions tree parameters given, (bindingOf? tree portion).isSome = true := by
  constructor
  · intro areSatisfied portion isPortion
    rw [← isSatisfied_distributed areDistinct areOpen isPortion]
    exact areSatisfied portion.1 ((mem_iff_exists_portion given).mpr ⟨portion, isPortion, rfl⟩)
  · intro areBound parameter isMember
    obtain ⟨portion, isPortion, rfl⟩ := (mem_iff_exists_portion given).mp isMember
    rw [isSatisfied_distributed areDistinct areOpen isPortion]
    exact areBound portion isPortion

theorem allSatisfied_distributed :
    (withPortions tree (portions tree parameters given) bindings).allSatisfied = true ↔
      ∀ portion ∈ portions tree parameters given, (bindingOf? tree portion).isSome = true := by
  have areKept :
      (withPortions tree (portions tree parameters given) bindings).parameters =
        bindings.parameters :=
    parameters_withPortions fun portion isPortion =>
      (areOpen.haveSlots portion.1).mpr
        ((mem_iff_exists_portion given).mpr ⟨portion, isPortion, rfl⟩)
  rw [Bindings.allSatisfied_iff (areKept ▸ areOpen.areDistinct), areKept,
    ← forall_isSatisfied_iff areDistinct areOpen]
  exact forall_congr' fun parameter => by rw [areOpen.haveSlots]

theorem map_asType_boundArguments
    (areBound : ∀ portion ∈ portions tree parameters given, (bindingOf? tree portion).isSome = true)
    (areUsed : unused tree parameters given = []) :
    (parameters.flatMap (boundArguments tree
          (withPortions tree (portions tree parameters given) bindings))).map asType =
      given.map asType := by
  have isHeld (portion) (isPortion : portion ∈ portions tree parameters given) :
      (boundArguments tree (withPortions tree (portions tree parameters given) bindings)
          portion.1).map asType =
        portion.2.map asType := by
    obtain ⟨binding, isBound⟩ := isSome_iff_exists.mp (areBound portion isPortion)
    apply boundArguments_eq (length_le_one_of_mem_portions isPortion) isBound
    rw [get?_distributed areDistinct areOpen isPortion, isBound]
  calc
    _ = ((portions tree parameters given).map Prod.fst).flatMap fun parameter =>
          (boundArguments tree (withPortions tree (portions tree parameters given) bindings)
            parameter).map asType := by
      rw [map_fst_portions, map_flatMap]
    _ = (portions tree parameters given).flatMap fun portion =>
          portion.2.map asType := by
      rw [flatMap_map]
      exact flatMap_congr isHeld
    _ = ((portions tree parameters given).flatMap Prod.snd ++
          unused tree parameters given).map asType := by
      rw [areUsed, append_nil, map_flatMap]
    _ = given.map asType := by rw [flatMap_portions]

end Completion

/-- A parameter is left without an argument of its kind, or an argument without a parameter. -/
def Misfits (tree : Tree) (parameters : List NodeId) (given : List Argument) : Prop :=
  (∃ portion ∈ portions tree parameters given,
      isTuple tree portion.1 = false ∧
        ∀ argument ∈ portion.2, takes tree portion.1 argument = false) ∨
    unused tree parameters given ≠ []

instance (tree : Tree) (parameters : List NodeId) (given : List Argument) :
    Decidable (Misfits tree parameters given) :=
  inferInstanceAs (Decidable (_ ∨ _))

theorem not_misfits_iff
    (areUnrestricted : ∀ parameter ∈ parameters, IsUnrestricted tree parameter) :
    ¬ Misfits tree parameters given ↔
      (∀ portion ∈ portions tree parameters given, (bindingOf? tree portion).isSome = true) ∧
        unused tree parameters given = [] := by
  have isUnbound (portion) (isPortion : portion ∈ portions tree parameters given) :
      (isTuple tree portion.1 = false ∧
          ∀ argument ∈ portion.2, takes tree portion.1 argument = false) ↔
        ¬ (bindingOf? tree portion).isSome = true := by
    have isParameter : portion.1 ∈ parameters :=
      (mem_iff_exists_portion given).mpr ⟨portion, isPortion, rfl⟩
    rw [← bindingOf?_eq_none_iff (areUnrestricted portion.1 isParameter)
      (length_le_one_of_mem_portions isPortion)]
    simp
  rw [Misfits, not_or, not_not]
  refine and_congr_left' ⟨fun isFitting portion isPortion => ?_, ?_⟩
  · by_contra isOpen
    exact isFitting ⟨portion, isPortion, (isUnbound portion isPortion).mpr isOpen⟩
  · rintro areBound ⟨portion, isPortion, isMisfit⟩
    exact (isUnbound portion isPortion).mp isMisfit (areBound portion isPortion)

end Template

namespace UnrestrictedTemplate

variable {program : Program} (template : UnrestrictedTemplate program) {symbol : Symbol}

/-- The template is turned down if the arguments do not fit; otherwise it has all of them. -/
theorem bound?_cases (given : List Argument) (names : template.Names symbol) :
    (Misfits program.tree template.entry.templateParameters given ∧
        template.bound? symbol given = none) ∨
      ¬ Misfits program.tree template.entry.templateParameters given ∧
        ∃ bindings,
          template.bound? symbol given = some (symbol.withBindings bindings) ∧
            (∀ parameter ∈ template.entry.templateParameters,
              bindings.isSatisfied parameter = true) ∧
            (template.entry.templateParameters.flatMap
                (boundArguments program.tree bindings)).map asType =
              given.map asType := by
  have areOpen : (template.opened symbol).AreOpenFor template.entry.templateParameters :=
    Bindings.areOpenFor_cleared names.areDistinct names.areOwn
  have isFitting := @not_misfits_iff program.tree _ given template.areUnrestricted
  have isFilled := @allSatisfied_distributed program.tree _ given _ template.areDistinct areOpen
  by_cases misfits : Misfits program.tree template.entry.templateParameters given
  · refine .inl ⟨misfits, eq_none_iff_forall_not_mem.mpr fun result isResult => ?_⟩
    obtain ⟨found, isFound, isKept⟩ := bind_eq_some_iff.mp isResult
    obtain ⟨-, isFound⟩ := ite_none_right_eq_some.mp isFound
    obtain ⟨isComplete, -⟩ := ite_none_right_eq_some.mp isKept
    cases isFound
    rw [Bool.and_eq_true, List.isEmpty_iff, isFilled] at isComplete
    exact isFitting.mpr isComplete.symm misfits
  · obtain ⟨areBound, areUsed⟩ := isFitting.mp misfits
    have areFitting :
        (portions program.tree template.entry.templateParameters given).all
          (fits program.tree) = true :=
      List.all_eq_true.mpr fun portion isPortion => by
        rw [fits, areBound portion isPortion, Bool.or_true]
    refine .inr ⟨misfits, _, ?_,
      (forall_isSatisfied_iff template.areDistinct areOpen).mpr areBound,
      map_asType_boundArguments template.areDistinct areOpen areBound areUsed⟩
    rw [bound?, distributed?, if_pos areFitting, bind_some, areUsed, isFilled.mpr areBound]
    rfl

end UnrestrictedTemplate

/--
Template arguments are neither lost nor duplicated.

A struct template that is given arguments is found with all its parameters bound, and
what they are bound to in order of declaration is what was given. It is turned down if
the arguments, distributed from left to right, leave a parameter without an argument of
its kind or an argument without a parameter, and for no other reason.
-/
theorem template_arguments_are_neither_lost_nor_duplicated
    {program : Program}
    (evaluator : Evaluator)
    (template : UnrestrictedTemplate program)
    {symbol : Symbol}
    (names : template.Names symbol)
    (given : List Argument)
    (areGiven : given ≠ [])
    (state : State)
    (isRunning : state.isCancelled = false) :
    ∃ found,
      Engine.Settles program evaluator (Operation.deduceAndFilter [symbol] given false).query
          state found state ∧
        (found = [] ↔
            Template.Misfits program.tree template.entry.templateParameters given) ∧
        (found ≠ [] →
          ∃ bindings,
            found = [symbol.withBindings bindings] ∧
              (∀ parameter ∈ template.entry.templateParameters,
                bindings.isSatisfied parameter = true) ∧
              (template.entry.templateParameters.flatMap
                  (Template.boundArguments program.tree bindings)).map Argument.asType =
                given.map Argument.asType) := by
  refine ⟨_, template.yields_instantiate names areGiven isRunning, ?_⟩
  rcases template.bound?_cases given names with
    ⟨misfits, isNone⟩ | ⟨isFitting, bindings, isBound, areSatisfied, areKept⟩
  · rw [isNone]
    exact ⟨iff_of_true rfl misfits, fun isFound => absurd rfl isFound⟩
  · rw [isBound]
    exact ⟨iff_of_false (cons_ne_nil _ _) isFitting,
      fun _ => ⟨bindings, rfl, areSatisfied, areKept⟩⟩

/-- A template `S(T, int n, alias A, V...)`. -/
def Program.assorted : Program :=
  .ofTree (.ofSteps
    [ .module "m",
      .member ⟨0⟩ "S" (.aggregate .structType false []),
      .templateParameter ⟨1⟩ "T" (.type none none),
      .templateParameter ⟨1⟩ "n" (.value (.basic .int) none none),
      .templateParameter ⟨1⟩ "A" (.aliased none none),
      .templateParameter ⟨1⟩ "V" .tuple ])

theorem Program.assorted_areUnrestricted :
    ∀ parameter ∈ [⟨2⟩, ⟨3⟩, ⟨4⟩, ⟨5⟩], IsUnrestricted Program.assorted.tree parameter := by
  simp only [forall_mem_cons]
  exact ⟨⟨_, rfl, rfl⟩, ⟨_, rfl, rfl⟩, ⟨_, rfl, rfl⟩, ⟨_, rfl, rfl⟩, forall_mem_nil _⟩

def UnrestrictedTemplate.assorted : UnrestrictedTemplate .assorted where
  id := ⟨1⟩
  entry := (Program.assorted.tree.node? ⟨1⟩).get (by decide +kernel)
  isEntry := (Option.some_get _).symm
  isFree := rfl
  areDistinct := by decide +kernel
  areUnrestricted := Program.assorted_areUnrestricted

/-- The symbol of the template, with its parameters open. -/
def Symbol.assorted : Symbol :=
  .declared ⟨1⟩ (.aggregate ⟨.structType, ⟨1⟩, none, [], .ofOpen [⟨2⟩, ⟨3⟩, ⟨4⟩, ⟨5⟩]⟩)

theorem UnrestrictedTemplate.names_assorted : assorted.Names .assorted where
  isStruct := ⟨_, rfl, rfl, rfl⟩
  areDistinct := by decide +kernel
  areOwn := fun _ isMember => isMember

/-- `S!(int, 3, char, bool, 4)` has its five arguments, and `S!(int, 3)` has none for `A`. -/
theorem assorted_template_arguments_are_kept :
    (∃ bindings,
      Engine.Settles .assorted .standard
          (Operation.deduceAndFilter [.assorted]
            [.type (.primitive .int), .value (.int 3), .value (.type (.primitive .char)),
              .type (.primitive .bool), .value (.int 4)] false).query
          (.start ⟨0⟩ none) [Symbol.assorted.withBindings bindings] (.start ⟨0⟩ none) ∧
        ([⟨2⟩, ⟨3⟩, ⟨4⟩, ⟨5⟩].flatMap
            (Template.boundArguments Program.assorted.tree bindings)).map Argument.asType =
          [.type (.primitive .int), .value (.int 3), .type (.primitive .char),
            .type (.primitive .bool), .value (.int 4)]) ∧
      Engine.Settles .assorted .standard
        (Operation.deduceAndFilter [.assorted] [.type (.primitive .int), .value (.int 3)]
          false).query
        (.start ⟨0⟩ none) [] (.start ⟨0⟩ none) := by
  constructor
  · have isFitting :
        ¬ Misfits Program.assorted.tree [⟨2⟩, ⟨3⟩, ⟨4⟩, ⟨5⟩]
          [.type (.primitive .int), .value (.int 3), .value (.type (.primitive .char)),
            .type (.primitive .bool), .value (.int 4)] := by
      decide +kernel
    obtain ⟨found, settles, isTurnedDown, isBound⟩ :=
      template_arguments_are_neither_lost_nor_duplicated .standard .assorted
        UnrestrictedTemplate.names_assorted
        [.type (.primitive .int), .value (.int 3), .value (.type (.primitive .char)),
          .type (.primitive .bool), .value (.int 4)]
        (cons_ne_nil _ _) (.start ⟨0⟩ none) rfl
    obtain ⟨bindings, rfl, -, areKept⟩ := isBound fun isNone => isFitting (isTurnedDown.mp isNone)
    exact ⟨bindings, settles, areKept⟩
  · have misfits :
        Misfits Program.assorted.tree [⟨2⟩, ⟨3⟩, ⟨4⟩, ⟨5⟩]
          [.type (.primitive .int), .value (.int 3)] := by
      decide +kernel
    obtain ⟨found, settles, isTurnedDown, -⟩ :=
      template_arguments_are_neither_lost_nor_duplicated .standard .assorted
        UnrestrictedTemplate.names_assorted [.type (.primitive .int), .value (.int 3)]
        (cons_ne_nil _ _) (.start ⟨0⟩ none) rfl
    obtain rfl : found = [] := isTurnedDown.mpr misfits
    exact settles

end DScope
