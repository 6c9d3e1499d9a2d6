import DScope.Proofs.InstancePatterns

namespace DScope

/-!
# The chosen overload and the type of a call

A call is asked about in two ways: which declaration takes it, and what type it has.
The first question offers all overloads of the name, the second one only the methods
among them. What is no method never takes a call and leaves no trace, so both
questions choose the same overload.
-/

open Query Engine Template Typing

variable {program : Program} {state : State} {limit : Nat} {evaluator : Evaluator}
  {overloads : List Symbol}

namespace Symbol

def isAmbiguous (symbol : Symbol) : Bool :=
  match symbol.shape with
  | .ambiguous _ => true
  | _ => false

theorem candidates_of_isAmbiguous
    {symbol : Symbol} (isSingle : symbol.isAmbiguous = false) : symbol.candidates = [symbol] := by
  unfold candidates
  split
  next candidates isShape =>
    rw [isAmbiguous, isShape] at isSingle
    cases isSingle
  next => rfl

end Symbol

namespace Engine

variable {later : State} {α β : Type} {query : Query α} {within : Nat → Question → Prop}
  {standing : Standing} {asks : Question → Prop} {next : α → Query β}

theorem run_bind_of_run {value : α}
    (returned : run program evaluator limit query state = .ok (value, later)) :
    run program evaluator limit (query >>= next) state =
      run program evaluator limit (next value) later := by
  rw [run_apply] at returned
  rw [run_apply, bind_apply, returned]
  rfl

/-- Items that give nothing may be left out where nothing cancels. -/
theorem run_collectFrom_filter {give : α → Query (List β)} {test : α → Bool} {items : List α}
    (orderly : ∀ item, Orderly program within standing asks (give item))
    (skips : ∀ item ∈ items, test item = false → ∀ state, Reads program state (give item) [])
    (isRunning : state.isCancelled = false) (found : List β) :
    run program .standard limit (collectFrom give found items) state =
      run program .standard limit (collectFrom give found (items.filter test)) state := by
  induction items generalizing found state with
  | nil => rfl
  | cons item rest ih =>
    have skipsRest := (List.forall_mem_cons.mp skips).2
    have step (others : List α) :
        run program .standard limit (collectFrom give found (item :: others)) state =
          run program .standard limit
            (give item >>= fun more => collectFrom give (found ++ more) others) state := by
      simp [run_apply, collectFrom, bind_apply, isCancelled_apply, isRunning]
    cases isKept : test item with
    | false =>
      rw [List.filter_cons_of_neg (by simp [isKept]), step,
        run_bind_of_run (skips item List.mem_cons_self isKept state _ rfl), List.append_nil]
      exact ih skipsRest isRunning found
    | true =>
      rw [List.filter_cons_of_pos isKept, step, step]
      simp only [run_apply, bind_apply]
      split
      next more later isGiven =>
        have laterIsRunning := ((orderly item).isCancelled_of_run isGiven).trans isRunning
        exact ih skipsRest laterIsRunning (found ++ more)
      next => rfl

theorem run_bind_congr {first : Query α}
    (same : run program evaluator limit query state = run program evaluator limit first state) :
    run program evaluator limit (query >>= next) state =
      run program evaluator limit (first >>= next) state := by
  rw [run_apply, run_apply] at same
  rw [run_apply, run_apply, bind_apply, bind_apply, same]

theorem settles_iff_of_run_eq {other : Query β} {change : α → β} {bound shift : Nat}
    (orderly : Orderly program within standing asks query)
    (same :
      ∀ limit, bound ≤ limit →
        run program .standard (limit + shift) other state =
          run program .standard limit (query >>= fun value => pure (change value)) later)
    (result : β) (final : State) :
    Settles program .standard other state result final ↔
      ∃ value, Settles program .standard query later value final ∧ change value = result := by
  constructor
  · rintro ⟨high, returns⟩
    have returned := returns (max bound high + shift) (by omega)
    rw [same _ (Nat.le_max_left bound high)] at returned
    obtain ⟨value, _, isFirst, ⟨⟩⟩ := bind_eq_ok.mp returned
    exact ⟨value, .ofRun orderly isFirst, rfl⟩
  · rintro ⟨value, ⟨high, returns⟩, rfl⟩
    refine ⟨max bound high + shift, fun limit isHigh => ?_⟩
    obtain ⟨lower, rfl⟩ : ∃ lower, limit = lower + shift := ⟨limit - shift, by omega⟩
    rw [same lower (by omega)]
    exact bind_eq_ok.mpr ⟨value, final, returns lower (by omega), rfl⟩

end Engine

namespace Template

variable {final : State}

/-- Whether an overload is declared in the tree, if at all, and is a member if by a method. -/
def isProper (tree : Tree) (overload : Symbol) : Bool :=
  overload.definition?.all fun id =>
    (tree.node? id).any fun entry => !entry.isMethod || overload.isMember

theorem reads_instantiateForCall
    {overload : Symbol} (proper : isProper program.tree overload = true)
    (isNoMethod : Typing.isMethod program.tree overload = false) (explicit : List Argument)
    (arguments : List (Option Symbol)) (state : State) :
    Reads program state (instantiateForCall explicit arguments overload) none := by
  unfold instantiateForCall
  cases isDefinition : overload.definition? with
  | none => exact .pure none
  | some id =>
    rw [isProper, isDefinition, Option.all_some, Option.any_eq_true] at proper
    obtain ⟨entry, isEntry, isMember⟩ := proper
    have isNotMethod : entry.isMethod = false := by
      rw [Bool.eq_false_iff]
      intro isMethod
      simp [Typing.isMethod, isDefinition, isEntry, isMethod] at isMember isNoMethod
      simp [isMember] at isNoMethod
    refine .bind (.node isEntry) ?_
    rw [isNotMethod]
    exact .pure none

/-- Only methods are chosen among. -/
theorem run_selectForCall_filter
    (areSingle : ∀ overload ∈ overloads, overload.isAmbiguous = false)
    (areProper : ∀ overload ∈ overloads, isProper program.tree overload = true)
    (isRunning : state.isCancelled = false) (explicit : List Argument)
    (arguments : List (Option Symbol)) :
    run program .standard limit (selectForCall overloads explicit arguments) state =
      run program .standard limit
        (selectForCall (overloads.filter (isMethod program.tree)) explicit arguments)
        state := by
  have areCandidates := fun overload isOverload =>
    Symbol.candidates_of_isAmbiguous (areSingle overload isOverload)
  have isOrderly (overload : Symbol) :
      Orderly program (fun _ _ => True) .plain (fun _ => True) (do
        return (← instantiateForCall explicit arguments overload).toList) :=
    .bind (Realm.Relates.orderly (instantiateForCall_confined (fun _ _ => trivial)
      (Sieve.passes_whole explicit) (Sieve.passes_whole arguments) (Sieve.passes_whole overload)))
      fun _ => .pure _
  have skips : ∀ overload ∈ overloads, isMethod program.tree overload = false →
      ∀ state, Reads program state (do
        return (← instantiateForCall explicit arguments overload).toList) [] := by
    intro overload isOverload isNoMethod state
    exact .bind (reads_instantiateForCall (areProper overload isOverload) isNoMethod explicit
      arguments state) (.pure [])
  unfold selectForCall
  rw [Symbol.flatMap_candidates areCandidates, Symbol.flatMap_candidates fun overload isKept =>
      areCandidates overload (List.mem_filter.mp isKept).1]
  exact run_bind_congr (run_collectFrom_filter isOrderly skips isRunning [])

theorem theOnly_ensures (overloads : List Symbol) (subject : String) :
    (theOnly overloads subject).Ensures program fun chosen =>
      ∀ overload, chosen = some overload → overload ∈ overloads := by
  unfold theOnly
  split
  · refine .pure ?_
    rintro _ ⟨⟩
    exact List.mem_singleton_self _
  · exact .bind (.anything _) fun _ _ => .pure fun _ isNone => by cases isNone
  · exact .bind (.anything _) fun _ _ => .pure fun _ isNone => by cases isNone

end Template

namespace Typing

variable {typed found final : State} {name : String} {arguments : List Expr}
  {types : List (Option Symbol)}

/-- The choice among the methods that a name offers to a call. -/
def choice (name : String) (methods : List Symbol) (types : List (Option Symbol)) :
    Query (Option Symbol) := do
  Template.theOnly (← Template.selectForCall methods [] types) name

theorem choice_orderly
    (program : Program) (name : String) (methods : List Symbol) (types : List (Option Symbol)) :
    Orderly program (fun _ _ => True) .plain (fun _ => True) (choice name methods types) :=
  .bind ((Operation.deduceCall methods [] types).query_orderly program)
    fun candidates => (Operation.selectSingle candidates name).query_orderly program

theorem overloadsNamed_isOrderly (program : Program) (name : String) :
    Orderly program (fun _ _ => True) .plain (fun _ => True) (overloadsNamed name) :=
  Realm.Relates.orderly (overloadsNamed_confined (fun _ _ => trivial) name)

theorem exists_method_of_choice {methods : List Symbol} {chosen : Symbol}
    (settles : Settles program evaluator (choice name methods types) state (some chosen) final) :
    ∃ method, chosen.definition? = some method := by
  obtain ⟨limit, returned⟩ := settles.returns
  obtain ⟨candidates, _, areCandidates, isOnly⟩ := bind_eq_ok.mp returned
  have isCandidate := theOnly_ensures candidates name rfl isOnly chosen rfl
  obtain ⟨instances, _, isCollected, isNarrowed⟩ := bind_eq_ok.mp areCandidates
  have isInstance := narrow_ensures instances rfl isNarrowed isCandidate
  rcases exists_of_mem_collectFrom isCollected isInstance with isStart | isGiven
  · cases isStart
  obtain ⟨overload, -, before, more, after, isGiven, isMore⟩ := isGiven
  obtain ⟨outcome, _, isOutcome, ⟨⟩⟩ := bind_eq_ok.mp isGiven
  obtain rfl := Option.mem_toList.mp isMore
  obtain ⟨method, entry, bound, matched, bindings, isDefinition, isEntry, isMethod, -, _, _,
    isMember⟩ := of_instantiateForCall isOutcome
  exact ⟨method, definition?_of_instantiateMember isEntry isMethod isDefinition isMember⟩

section Found

variable
  (areTypes :
    run program .standard limit (arguments.mapM typingOf) state = .ok (types, typed))
  (areFound :
    run program .standard limit (overloadsNamed name) typed = .ok (overloads, found))

include areTypes areFound

theorem run_resolveCall (isRunning : found.isCancelled = false)
    (areSingle : ∀ overload ∈ overloads, overload.isAmbiguous = false)
    (areProper : ∀ overload ∈ overloads, isProper program.tree overload = true) :
    run program .standard (limit + 0)
        (Operation.resolveCall (.call (.named name) arguments)).query state =
      run program .standard limit
        (choice name (overloads.filter (isMethod program.tree)) types >>= fun chosen =>
          pure (chosen.bind Symbol.definition?))
        found := by
  have nothingWritten : run program .standard limit (resolveArguments []) typed = .ok ([], typed) :=
    rfl
  refine (run_bind_of_run areTypes).trans ?_
  refine (run_bind_of_run nothingWritten).trans ?_
  refine (run_bind_of_run areFound).trans ?_
  rw [choice, bind_assoc]
  exact run_bind_congr (run_selectForCall_filter areSingle areProper isRunning [] types)

theorem run_evaluateType (isRunning : state.isCancelled = false)
    (hasMethod : ∃ overload ∈ overloads, isMethod program.tree overload = true) :
    run program .standard (limit + 1)
        (Operation.evaluateType (.call (.named name) arguments)).query state =
      run program .standard limit
        (choice name (overloads.filter (isMethod program.tree)) types >>= fun chosen =>
          pure ((chosen.bind Symbol.member?).bind (·.base)))
        found := by
  have isUncancelled : run program .standard limit isCancelled state = .ok (false, state) := by
    rw [run_apply, isCancelled_apply, isRunning]
  have isTree : run program .standard limit tree found = .ok (program.tree, found) := rfl
  have isCall :
      run program .standard (limit + 1)
          (Operation.evaluateType (.call (.named name) arguments)).query state =
        run program .standard limit (ofExpression (.call (.named name) arguments)) state :=
    rfl
  obtain ⟨method, isOverload, isMethod⟩ := hasMethod
  have isKept := List.mem_filter.mpr ⟨isOverload, isMethod⟩
  refine isCall.trans ((run_bind_of_run isUncancelled).trans ?_)
  refine (run_bind_of_run areTypes).trans ?_
  refine (run_bind_of_run areFound).trans ?_
  refine (run_bind_of_run isTree).trans ?_
  generalize overloads.filter (Typing.isMethod program.tree) = methods at isKept
  cases methods with
  | nil => cases isKept
  | cons first rest =>
    rw [choice, bind_assoc]
    rfl

end Found

end Typing

/--
The overload that a call chooses and the type of the call agree.

Where a name offers a method and nothing ambiguous, and only members among its
overloads are methods, a declaration takes the call exactly if it is that of the only
method that is left, whose type the call then has. Otherwise there is neither.
-/
theorem chosen_overload_and_call_type_agree
    {program : Program}
    {state typed found : State}
    {name : String}
    {arguments : List Expr}
    {types : List (Option Symbol)}
    {overloads : List Symbol}
    (isRunning : state.isCancelled = false)
    (areTypes :
      Engine.Settles program .standard (arguments.mapM Query.typingOf) state types typed)
    (areFound :
      Engine.Settles program .standard (Typing.overloadsNamed name) typed overloads found)
    (hasMethod : ∃ overload ∈ overloads, Typing.isMethod program.tree overload = true)
    (areSingle : ∀ overload ∈ overloads, overload.isAmbiguous = false)
    (areProper : ∀ overload ∈ overloads, Template.isProper program.tree overload = true) :
    let choice := Typing.choice name (overloads.filter (Typing.isMethod program.tree)) types
    let call : Expr := .call (.named name) arguments
    (∀ node final,
      Engine.Settles program .standard (Operation.resolveCall call).query state (some node)
          final ↔
        ∃ chosen,
          Engine.Settles program .standard choice found (some chosen) final ∧
            chosen.definition? = some node ∧
            Engine.Settles program .standard (Operation.evaluateType call).query state
              (chosen.member?.bind (·.base)) final) ∧
      (∀ final,
        Engine.Settles program .standard (Operation.resolveCall call).query state none final ↔
          Engine.Settles program .standard choice found none final) ∧
      ∀ result final,
        Engine.Settles program .standard (Operation.evaluateType call).query state result
            final ↔
          ∃ chosen,
            Engine.Settles program .standard choice found chosen final ∧
              (chosen.bind Symbol.member?).bind (·.base) = result := by
  obtain ⟨typesBound, typesReturn⟩ := areTypes
  obtain ⟨foundBound, foundReturns⟩ := areFound
  have typesOrderly :
      Orderly program (fun _ _ => True) .plain (fun _ => True) (arguments.mapM typingOf) :=
    Realm.Relates.orderly (arguments_confined (by decide) fun _ _ => trivial)
  have typedIsRunning := (typesOrderly.isCancelled_of_run (typesReturn _ (Nat.le_refl _))).trans
    isRunning
  have foundIsRunning := ((overloadsNamed_isOrderly program name).isCancelled_of_run
    (foundReturns _ (Nat.le_refl _))).trans typedIsRunning
  have orderly := choice_orderly program name (overloads.filter (isMethod program.tree)) types
  have calls := settles_iff_of_run_eq orderly
    fun limit (isHigh : max typesBound foundBound ≤ limit) =>
      run_resolveCall (typesReturn limit (by omega)) (foundReturns limit (by omega))
        foundIsRunning areSingle areProper
  have isTyped := settles_iff_of_run_eq orderly
    fun limit (isHigh : max typesBound foundBound ≤ limit) =>
      run_evaluateType (typesReturn limit (by omega)) (foundReturns limit (by omega))
        isRunning hasMethod
  refine ⟨fun node final => ?_, fun final => ?_, isTyped⟩
  · rw [calls (some node) final]
    constructor
    · rintro ⟨_ | chosen, settles, isNode⟩
      · cases isNode
      · exact ⟨chosen, settles, isNode, (isTyped _ final).mpr ⟨some chosen, settles, rfl⟩⟩
    · rintro ⟨chosen, settles, isNode, -⟩
      exact ⟨some chosen, settles, isNode⟩
  · rw [calls none final]
    constructor
    · rintro ⟨_ | chosen, settles, isNone⟩
      · exact settles
      · obtain ⟨method, isDefinition⟩ := exists_method_of_choice settles
        rw [Option.bind_some, isDefinition] at isNone
        cases isNone
    · exact fun settles => ⟨none, settles, rfl⟩

/-- Overloads of three kinds: `T* f(T)(T x)`, `bool f(bool* x)` and a variable `f`. -/
def Program.offering : Program :=
  .ofTree (.ofSteps
    [ .module "m",
      .member ⟨0⟩ "f" (.method (some (.pointer (.named "T"))) [] none),
      .templateParameter ⟨1⟩ "T" (.type none none),
      .parameter ⟨1⟩ "x" (.named "T"),
      .member ⟨0⟩ "f" (.method (some (.basic .bool)) [] none),
      .parameter ⟨4⟩ "x" (.pointer (.basic .bool)),
      .member ⟨0⟩ "f" (.var (some (.basic .int)) none) ])

/-- The template takes the call beside a variable and another function of the same name. -/
theorem template_is_chosen_beside_variable :
    ∃ (chosen : Symbol) (final : State),
      Engine.Settles .offering .standard
          (Operation.resolveCall (.call (.named "f") [.literal (.integer 1 .int)])).query
          (.start ⟨0⟩ none) (some ⟨1⟩) final ∧
        chosen.definition? = some ⟨1⟩ ∧
        Engine.Settles .offering .standard
          (Operation.evaluateType (.call (.named "f") [.literal (.integer 1 .int)])).query
          (.start ⟨0⟩ none) (chosen.member?.bind (·.base)) final := by
  have finds :
      (run .offering .standard 9 (overloadsNamed "f") (.start ⟨0⟩ none)).toOption.any
        (fun found =>
          found.1.any (isMethod Program.offering.tree) &&
            found.1.all fun overload =>
              !overload.isAmbiguous && isProper Program.offering.tree overload) =
        true := by
    decide +kernel
  have calls :
      (run .offering .standard 9
          (Operation.resolveCall (.call (.named "f") [.literal (.integer 1 .int)])).query
          (.start ⟨0⟩ none)).toOption.any
        (fun called => called.1 == some ⟨1⟩) =
        true := by
    decide +kernel
  obtain ⟨⟨overloads, found⟩, isFound, passes⟩ := exists_of_any finds
  obtain ⟨⟨_, final⟩, isCalled, isFirst⟩ := exists_of_any calls
  obtain rfl := beq_iff_eq.mp isFirst
  rw [Bool.and_eq_true, List.any_eq_true, List.all_eq_true] at passes
  obtain ⟨hasMethod, arePassing⟩ := passes
  have settles := Settles.ofRun (Operation.query_orderly _ _) isCalled
  obtain ⟨chosen, -, isDefinition, isTyped⟩ :=
    ((chosen_overload_and_call_type_agree rfl
      (PlainFunction.yields_argumentTypes rfl [.integer 1 .int])
      (.ofRun (overloadsNamed_isOrderly _ _) isFound) hasMethod
      (fun overload isOverload => by simpa using (Bool.and_eq_true_iff.mp
        (arePassing overload isOverload)).1)
      (fun overload isOverload => (Bool.and_eq_true_iff.mp
        (arePassing overload isOverload)).2)).1 ⟨1⟩ final).mp settles
  exact ⟨chosen, final, settles, isDefinition, isTyped⟩

/-- A function `g(U)`, and `S(T)` with an alias `f` of `T!int` beside a function `f`. -/
def Program.disguise : Program :=
  .ofTree (.ofSteps
    [ .module "m",
      .member ⟨0⟩ "g" (.method (some (.basic .bool)) [] none),
      .templateParameter ⟨1⟩ "U" (.type none none),
      .member ⟨0⟩ "S" (.aggregate .structType false []),
      .templateParameter ⟨3⟩ "T" (.type none none),
      .member ⟨3⟩ "f" (.aliased (some (.instantiated "T" [.type (.basic .int)])) none),
      .member ⟨3⟩ "f" (.method (some (.basic .int)) [] none) ])

/-- Inside `S`, where `T` is bound to a struct that claims to be declared by `g`. -/
def State.disguised : State :=
  (State.start ⟨3⟩ none).push
    { scope := ⟨3⟩
      bindings := .ofTypes [⟨4⟩] [.ofShape (.aggregate ⟨.structType, ⟨1⟩, none, [], .none⟩)] }

/-- An overload that is declared by a method but no member competes only for the declaration. -/
theorem disguised_method_takes_call_without_typing_it :
    (Engine.run .disguise .standard 9 (Typing.overloadsNamed "f") .disguised).toOption.any
          (fun found =>
            found.1.any (Typing.isMethod Program.disguise.tree) &&
              found.1.all fun overload => !overload.isAmbiguous) =
        true ∧
      (Engine.run .disguise .standard 9
            (Operation.resolveCall (.call (.named "f") [])).query .disguised).toOption.any
          (fun called => called.1.isNone) =
        true ∧
      (Engine.run .disguise .standard 9
            (Operation.evaluateType (.call (.named "f") [])).query .disguised).toOption.any
          (fun typed => typed.1.isSome) =
        true := by
  decide +kernel

end DScope
