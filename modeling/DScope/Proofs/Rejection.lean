import DScope.Proofs.Drafting
import DScope.Proofs.Settling

namespace DScope

/-!
# Rejected template arguments

A diagnostic that blames a template argument is found by going through parameters and
arguments side by side, apart from the binding of the parameters. The two agree: where an
argument is blamed, the ones before it are bound and the template turns the arguments
down, in every state. No other diagnostic of this kind gets into a log.
-/

open Template
open Engine (Yields)
open Query (Reads)

namespace Template

variable {program : Program} {state : State} {tree : Tree} {overload : Symbol} {owner : NodeId}
  {parameters : List NodeId} {given : List Argument} {diagnostic : Diagnostic}

/-- Whether the arguments before a place are bound and the one at the place is not. -/
structure RejectsAt (tree : Tree) (parameters : List NodeId) (given : List Argument) (place : Nat)
    (parameter : NodeId) (argument : Argument) : Prop where
  isParameter : parameters[place]? = some parameter
  isArgument : given[place]? = some argument
  isRejected : (tree.parameterKind? parameter).bind (·.bind? parameter argument) = none
  areBound :
    ∀ earlier < place, ∃ other bound,
      parameters[earlier]? = some other ∧
        given[earlier]? = some bound ∧
        ((tree.parameterKind? other).bind (·.bind? other bound)).isSome = true

theorem exists_rejectsAt (rejected : firstRejected? tree parameters given = some diagnostic) :
    ∃ place parameter argument,
      diagnostic =
          .deduction parameter (tree.nameOf parameter) (some argument)
            "argument does not fit the parameter kind" ∧
        RejectsAt tree parameters given place parameter argument := by
  fun_induction firstRejected? tree parameters given with
  | case4 first rest argument later kind _ _ isKind binding isBound ih =>
    obtain ⟨place, parameter, blamed, isDiagnostic, rejects⟩ := ih rejected
    refine ⟨place + 1, parameter, blamed, isDiagnostic,
      ⟨rejects.isParameter, rejects.isArgument, rejects.isRejected, ?_⟩⟩
    intro earlier isEarlier
    cases earlier with
    | zero => exact ⟨first, argument, rfl, rfl, by simp [isKind, isBound]⟩
    | succ earlier => exact rejects.areBound earlier (Nat.lt_of_succ_lt_succ isEarlier)
  | case5 parameter rest argument later kind _ _ isKind isNone =>
    cases rejected
    exact ⟨0, parameter, argument, rfl, rfl, rfl, by simp [isKind, isNone], nofun⟩
  | _ => cases rejected

theorem reads_bindInOrder_cons {parameter : NodeId} {kind : ParameterKind} {argument : Argument}
    {receiver : Option Symbol} {usesDefaults : Bool} {bindings : Bindings}
    {result : Option (Bindings × List Argument)}
    (isKind : program.tree.parameterKind? parameter = some kind) (isNoTuple : kind ≠ .tuple)
    (isNoReceiver : ∀ inner, kind ≠ .receiver inner)
    (continues :
      Reads program state
        ((kind.bind? parameter argument).elim (pure none) fun binding =>
          bindInOrder owner receiver usesDefaults parameters given (bindings.set binding))
        result) :
    Reads program state
      (bindInOrder owner receiver usesDefaults (parameter :: parameters) (argument :: given) bindings)
      result := by
  obtain ⟨entry, isEntry, isParameter⟩ := Option.bind_eq_some_iff.mp isKind
  refine .bind (.node isEntry) ?_
  rw [isParameter]
  cases kind with
  | tuple => exact absurd rfl isNoTuple
  | receiver inner => exact absurd rfl (isNoReceiver inner)
  | _ =>
    simp only [ParameterKind.withoutReceiver]
    split
    next binding isBound => rwa [isBound] at continues
    next isNone => rwa [isNone] at continues

theorem reads_bindInOrder_none
    (rejected : firstRejected? program.tree parameters given = some diagnostic)
    (owner : NodeId) (receiver : Option Symbol) (usesDefaults : Bool) (bindings : Bindings) :
    Reads program state (bindInOrder owner receiver usesDefaults parameters given bindings) none := by
  fun_induction firstRejected? program.tree parameters given generalizing bindings with
  | case4 parameter rest argument later kind isNoTuple isNoReceiver isKind binding isBound ih =>
    apply reads_bindInOrder_cons isKind isNoTuple isNoReceiver
    rw [isBound]
    exact ih rejected _
  | case5 parameter rest argument later kind isNoTuple isNoReceiver isKind isNone =>
    apply reads_bindInOrder_cons isKind isNoTuple isNoReceiver
    rw [isNone]
    exact .pure none
  | _ => cases rejected

theorem given_ne_nil (rejected : firstRejected? tree parameters given = some diagnostic) :
    parameters ≠ [] ∧ given ≠ [] := by
  unfold firstRejected? at rejected
  split at rejected
  next => simp
  next => cases rejected

/-- A template of whose arguments one is blamed turns them down. -/
theorem reads_instantiateDeclared_none
    (rejected : rejectedArgument? program.tree overload given = some diagnostic) :
    Reads program state (instantiateDeclared overload given false) none := by
  obtain ⟨entry, isDefined, rejected⟩ := Option.bind_eq_some_iff.mp rejected
  obtain ⟨owner, isDefinition, isEntry⟩ := Option.bind_eq_some_iff.mp isDefined
  obtain ⟨haveParameters, areGiven⟩ := given_ne_nil rejected
  have isGiven : given.isEmpty = false := by simpa using areGiven
  unfold instantiateDeclared
  rw [isDefinition]
  refine .bind (.node isEntry) ?_
  rw [isGiven]
  split
  next => exact .pure none
  next =>
    unfold instantiateTemplate
    rw [isGiven]
    have rejects (bindings : Bindings) :
        Reads program state (bindParameters owner overload given false true bindings) none :=
      .bind (.node isEntry) (.bind (reads_bindInOrder_none rejected _ _ _ _) (.pure none))
    exact .bind (rejects _) (.pure none)

theorem reads_instantiate_nil (isTemplate : overload.parameter? = none)
    (rejected : rejectedArgument? program.tree overload given = some diagnostic) :
    Reads program state (instantiate [overload] given false) [] := by
  have isLone : overload.candidates = [overload] := by
    obtain ⟨entry, isDefined, -⟩ := Option.bind_eq_some_iff.mp rejected
    unfold Symbol.candidates
    split
    next isShape => simp [Symbol.definition?, isShape] at isDefined
    next => rfl
  have isTurnedDown : Reads program state (instantiateOverload overload given false) none := by
    unfold instantiateOverload
    rw [isTemplate]
    exact reads_instantiateDeclared_none rejected
  have collects :
      Reads program state
        (Query.collect
          (fun overload => do return (← instantiateOverload overload given false).toList) [overload])
        [] := by
    refine .bind .isCancelled ?_
    split
    next => exact .pure []
    next => exact .bind (.bind isTurnedDown (.pure [])) (.pure [])
  unfold instantiate
  rw [List.flatMap_cons, isLone]
  have narrows : Reads program state (narrow []) [] :=
    .bind .tree (.bind (.bind (.pure []) (.pure [])) (.pure []))
  have expands : Reads program state (([] : List Symbol).mapM expand) [] := .pure []
  exact .bind collects (.bind narrows (.bind expands (.pure [])))

end Template

namespace Resolution

variable {program : Program} {evaluator : Evaluator} {limit : Nat} {name : String}
  {arguments : List WrittenArgument} {state final : State} {found : List Symbol}

/--
What is tried for a name with template arguments: its overloads are looked up, the
arguments are resolved, and the overloads are given these arguments.
-/
def Tries (program : Program) (evaluator : Evaluator) (limit : Nat) (name : String)
    (arguments : List WrittenArgument) (state : State) (overloads : List Symbol)
    (given : List Argument) (found : List Symbol) (tried : State) : Prop :=
  ∃ sought resolved,
    Engine.run program evaluator limit (Lookup.candidates name) state = .ok (overloads, sought) ∧
      Engine.run program evaluator limit (Template.resolveArguments arguments) sought =
          .ok (given, resolved) ∧
      Engine.run program evaluator limit (Template.instantiate overloads given false) resolved =
        .ok (found, tried)

/-- What is reported after a try: nothing was found, and if an argument is blamed, then by the
only overload for the arguments that it was given. -/
structure Reports (tree : Tree) (overloads : List Symbol) (given : List Argument)
    (found : List Symbol) (tried : State) (diagnostic : Diagnostic) : Prop where
  isNothing : found = []
  isRunning : tried.isCancelled = false
  isRejected :
    diagnostic.isDeduction = true →
      ∃ overload,
        overloads = [overload] ∧ Template.rejectedArgument? tree overload given = some diagnostic

theorem exists_rejected {tree : Tree} {overloads : List Symbol} {given : List Argument}
    {text : String} {diagnostic : Diagnostic}
    (isReason :
      ((lone? overloads).bind fun overload =>
        rejectedArgument? tree overload given).getD (.nothingFound text none none) =
          diagnostic)
    (isBlaming : diagnostic.isDeduction = true) :
    ∃ overload,
      overloads = [overload] ∧
        rejectedArgument? tree overload given = some diagnostic := by
  subst isReason
  rcases overloads with _ | ⟨overload, _ | ⟨_, _⟩⟩
  · cases isBlaming
  · cases isRejected : rejectedArgument? tree overload given with
    | none => simp [lone?, isRejected, Diagnostic.isDeduction] at isBlaming
    | some diagnostic => simp [lone?, isRejected]
  · cases isBlaming

theorem exists_tries
    (returned :
      Engine.run program evaluator limit (ofInstance name arguments) state = .ok (found, final)) :
    ∃ overloads given tried,
      Tries program evaluator limit name arguments state overloads given found tried ∧
        (final = tried ∨
          ∃ diagnostic,
            final = tried.report diagnostic ∧
              Reports program.tree overloads given found tried diagnostic) := by
  obtain ⟨overloads, sought, isSought, returned⟩ := Query.bind_eq_ok.mp returned
  obtain ⟨given, resolved, isResolved, returned⟩ := Query.bind_eq_ok.mp returned
  obtain ⟨all, tried, isTried, returned⟩ := Query.bind_eq_ok.mp returned
  obtain ⟨reports, _, ⟨⟩, returned⟩ := Query.bind_eq_ok.mp returned
  have tries : Tries program evaluator limit name arguments state overloads given all tried :=
    ⟨sought, resolved, isSought, isResolved, isTried⟩
  split at returned
  next isFailing =>
    obtain ⟨_, _, ⟨⟩, ⟨⟩⟩ := Query.bind_eq_ok.mp returned
    simp only [Bool.and_eq_true, Bool.not_eq_true', List.isEmpty_iff] at isFailing
    obtain ⟨isNothing, -, isRunning⟩ := isFailing
    exact ⟨overloads, given, tried, tries,
      .inr ⟨_, rfl, isNothing, isRunning, exists_rejected rfl⟩⟩
  next =>
    cases returned
    exact ⟨overloads, given, _, tries, .inl rfl⟩

end Resolution

/--
Where a diagnostic that blames an argument comes from: a name with template arguments
stood for one overload, which gave nothing for the arguments that were resolved for it.
-/
def Diagnostic.IsFounded (program : Program) (evaluator : Evaluator) (log : List Diagnostic)
    (diagnostic : Diagnostic) : Prop :=
  ∃ limit name arguments state overload given tried,
    Resolution.Tries program evaluator limit name arguments state [overload] given [] tried ∧
      tried.isCancelled = false ∧
      tried.log = log ∧
        Template.rejectedArgument? program.tree overload given = some diagnostic

/-- What a query adds to the log: each argument is blamed where it was turned down. -/
structure State.LogsFounded (program : Program) (evaluator : Evaluator)
    (before after : State) : Prop where
  isExtended : before.log <+: after.log
  areFounded :
    ∀ place diagnostic,
      before.log.length ≤ place → after.log[place]? = some diagnostic →
        diagnostic.isDeduction = true →
        diagnostic.IsFounded program evaluator (after.log.take place)

namespace State.LogsFounded

variable {program : Program} {evaluator : Evaluator} {first second third state after : State}

theorem ofSame (isSame : after.log = state.log) : LogsFounded program evaluator state after := by
  refine ⟨isSame ▸ List.prefix_rfl, fun place diagnostic isLater isLogged => ?_⟩
  rw [isSame, List.getElem?_eq_none isLater] at isLogged
  cases isLogged

theorem trans (before : LogsFounded program evaluator first second)
    (after : LogsFounded program evaluator second third) :
    LogsFounded program evaluator first third := by
  refine ⟨before.isExtended.trans after.isExtended, fun place diagnostic isLater isLogged => ?_⟩
  by_cases isNew : second.log.length ≤ place
  · exact after.areFounded place diagnostic isNew isLogged
  · obtain ⟨added, isThird⟩ := after.isExtended
    have isOld := Nat.lt_of_not_le isNew
    rw [← isThird, List.getElem?_append_left isOld] at isLogged
    rw [← isThird, List.take_append_of_le_length (Nat.le_of_lt isOld)]
    exact before.areFounded place diagnostic isLater isLogged

theorem report {diagnostic : Diagnostic}
    (isFounded :
      diagnostic.isDeduction = true → diagnostic.IsFounded program evaluator state.log) :
    LogsFounded program evaluator state (state.report diagnostic) := by
  refine ⟨List.prefix_append _ _, fun place other isLater isLogged isBlaming => ?_⟩
  change (state.log ++ [diagnostic])[place]? = some other at isLogged
  rw [List.getElem?_append_right isLater, List.getElem?_singleton] at isLogged
  split at isLogged
  next isLast =>
    cases isLogged
    have isPlace : place = state.log.length := by omega
    have isBefore : (state.report diagnostic).log.take place = state.log :=
      isPlace ▸ List.take_left
    exact isBefore.symm ▸ isFounded isBlaming
  next => cases isLogged

/-- Every move but one that blames an argument adds nothing that needs a ground. -/
theorem isKept (program : Program) (evaluator : Evaluator) :
    State.IsKept False evaluator (LogsFounded program evaluator) where
  refl _ := ofSame rfl
  trans := trans
  report _ _ isOwn := report fun isBlaming => (isOwn isBlaming).elim
  evaluationStart _ := ofSame (by cases evaluator <;> rfl)
  concluded state name found := by
    have remembers (reported : State) :
        LogsFounded program evaluator reported (reported.remember name found) := by
      unfold State.remember
      split <;> exact ofSame rfl
    have reports : LogsFounded program evaluator state (Query.reportedMissing state name) := by
      unfold Query.reportedMissing
      split
      · exact report nofun
      · exact ofSame rfl
    unfold Query.concluded
    split
    · exact reports.trans (remembers _)
    · exact remembers _
  closing inner := ⟨inner.isExtended, inner.areFounded⟩
  unmarking _ inner := ⟨inner.isExtended, inner.areFounded⟩
  leaving inner := ⟨inner.isExtended, inner.areFounded⟩

end State.LogsFounded

section

variable {program : Program} {evaluator : Evaluator} {limit : Nat}

/-- What is tried for a name with template arguments blames arguments only by further questions. -/
theorem Resolution.Tries.logsFounded {name : String} {arguments : List WrittenArgument}
    {state tried : State} {overloads found : List Symbol} {given : List Argument}
    (tries : Tries program evaluator limit name arguments state overloads given found tried)
    (answers :
      ∀ question,
        Attempt.Keeps (State.LogsFounded program evaluator)
          (Engine.answer program evaluator limit question)) :
    state.LogsFounded program evaluator tried := by
  have keeps {α : Type} {query : Query α}
      (moves : Moves program (fun _ _ => True) False .plain (fun _ => True) query) :
      Attempt.Keeps (State.LogsFounded program evaluator)
        (Engine.run program evaluator limit query) :=
    moves.keeps ⟨program, evaluator, Engine.answer program evaluator limit⟩ rfl
      (State.LogsFounded.isKept program evaluator) answers
  obtain ⟨sought, resolved, isSought, isResolved, isTried⟩ := tries
  have seeks := keeps (Lookup.candidates_confined (fun _ _ => trivial) name).orderly isSought
  have resolves :=
    keeps (resolveArguments_confined (by decide) fun _ _ => trivial).orderly isResolved
  have instantiates :=
    keeps (instantiate_confined (fun _ _ => trivial) (Sieve.passes_whole overloads)
      (Sieve.passes_whole given) false).orderly isTried
  exact seeks.trans (resolves.trans instantiates)

theorem Engine.answer_logsFounded (question : Question) :
    Attempt.Keeps (State.LogsFounded program evaluator)
      (answer program evaluator limit question) := by
  induction limit generalizing question with
  | zero => rintro state result final ⟨⟩
  | succ limit inductionHypothesis =>
    by_cases isInstance : question.isInstance = true
    · obtain ⟨name, arguments, rfl⟩ :
          ∃ name arguments, question = .type (.instantiated name arguments) := by
        unfold Question.isInstance at isInstance
        split at isInstance
        next name arguments => exact ⟨name, arguments, rfl⟩
        next => cases isInstance
      intro state found final returned
      obtain ⟨isCancelled, _, ⟨⟩, returned⟩ := Query.bind_eq_ok.mp returned
      split at returned
      · cases returned
        exact .ofSame rfl
      · obtain ⟨overloads, given, tried, tries, isFinal⟩ := Resolution.exists_tries returned
        have isTried := tries.logsFounded inductionHypothesis
        rcases isFinal with rfl | ⟨diagnostic, rfl, reports⟩
        · exact isTried
        · refine isTried.trans (.report fun isBlaming => ?_)
          obtain ⟨overload, rfl, isRejected⟩ := reports.isRejected isBlaming
          cases reports.isNothing
          exact ⟨limit, name, arguments, state, overload, given, tried, tries, reports.isRunning,
            rfl, isRejected⟩
    · have moves : Moves program (fun _ _ => True) False .plain (fun _ => True) (respond question) :=
        Realm.Relates.orderly (respond_confined program.tree.admits_all
          (Standing.permits_of_ne_overridden (by decide) question) (fun _ _ => trivial)
          (fun _ _ => trivial) (fun isOther => absurd isOther isInstance)
          (Sieve.passesQuestion_whole question))
      exact moves.keeps ⟨program, evaluator, answer program evaluator limit⟩ rfl
        (State.LogsFounded.isKept program evaluator) inductionHypothesis

end

/--
Where an argument is blamed, it stands at the place of the parameter, the arguments before
it are bound and the template turns all of them down. Resolving a type blames an argument
only where a template was looked up alone and gave nothing for the arguments resolved for
it, and resolving a name with template arguments does so itself only for its own template.
-/
theorem deduction_diagnostics_are_truthful
    (program : Program)
    (evaluator : Evaluator) :
    (∀ overload given diagnostic,
        overload.parameter? = none →
          Template.rejectedArgument? program.tree overload given = some diagnostic →
          (∃ owner entry place parameter argument,
              overload.definition? = some owner ∧
                program.tree.node? owner = some entry ∧
                diagnostic =
                  .deduction parameter (program.tree.nameOf parameter) (some argument)
                    "argument does not fit the parameter kind" ∧
                Template.RejectsAt program.tree entry.templateParameters given place parameter
                  argument) ∧
            ∀ state,
              Yields program evaluator state
                (Operation.deduceAndFilter [overload] given false).query []) ∧
      (∀ type limit state found final,
        Engine.run program evaluator limit (Operation.resolveType type).query state =
            .ok (found, final) →
          state.LogsFounded program evaluator final) ∧
      ∀ name arguments limit state found final,
        Engine.run program evaluator (limit + 1)
              (Operation.resolveType (.instantiated name arguments)).query state =
            .ok (found, final) →
          state.isCancelled = true ∧ found = [] ∧ final = state ∨
            ∃ overloads given tried,
              Resolution.Tries program evaluator limit name arguments state overloads given found
                  tried ∧
                (final = tried ∨
                  ∃ diagnostic,
                    final = tried.report diagnostic ∧
                      Resolution.Reports program.tree overloads given found tried
                        diagnostic) := by
  refine ⟨?_, fun _ _ _ _ _ returned => Engine.answer_logsFounded _ returned, ?_⟩
  · intro overload given diagnostic isTemplate rejected
    obtain ⟨entry, isDefined, isFirst⟩ := Option.bind_eq_some_iff.mp rejected
    obtain ⟨owner, isDefinition, isEntry⟩ := Option.bind_eq_some_iff.mp isDefined
    obtain ⟨place, parameter, argument, isDiagnostic, rejects⟩ := exists_rejectsAt isFirst
    refine ⟨⟨owner, entry, place, parameter, argument, isDefinition, isEntry, isDiagnostic, rejects⟩,
      fun state => ?_⟩
    exact .ofReads (reads_instantiate_nil isTemplate rejected)
  · intro name arguments limit state found final returned
    obtain ⟨isCancelled, _, ⟨⟩, returned⟩ := Query.bind_eq_ok.mp returned
    split at returned
    next isCancelled =>
      cases returned
      exact .inl ⟨isCancelled, rfl, rfl⟩
    next => exact .inr (Resolution.exists_tries returned)

/-- A type is blamed where a `struct` asks for a number, and the `struct` turns it down. -/
theorem type_is_turned_down_for_number :
    let program : Program :=
      .ofTree (.ofSteps
        [ .module "m", .member ⟨0⟩ "S" (.aggregate .structType false []),
          .templateParameter ⟨1⟩ "n" (.value (.basic .int) none none) ])
    let struct := Symbol.declared ⟨1⟩ (.aggregate ⟨.structType, ⟨1⟩, none, [], .none⟩)
    let given := [Argument.type (.primitive .int)]
    (rejectedArgument? program.tree struct given).isSome = true ∧
      Yields program .standard (.start ⟨0⟩ none)
        (Operation.deduceAndFilter [struct] given false).query [] := by
  intro program struct given
  have isSome : (rejectedArgument? program.tree struct given).isSome = true := by
    decide +kernel
  obtain ⟨diagnostic, rejected⟩ := Option.isSome_iff_exists.mp isSome
  exact ⟨isSome, ((deduction_diagnostics_are_truthful program .standard).1 struct given diagnostic
    rfl rejected).2 _⟩

end DScope
