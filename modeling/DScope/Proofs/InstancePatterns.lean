import DScope.Proofs.ExplicitArguments

namespace DScope

/-!
# Patterns for instances

A parameter of type `Name!(..)` takes arguments whose types are aggregates declared
under that name and bound where there is a pattern. What the name stands for at the
function is not asked: where several declarations have it, the parameter takes
instances of all of them.
-/

theorem Symbol.definition?_of_aggregate?
    {symbol : Symbol} {aggregate : Aggregate} (isAggregate : symbol.aggregate? = some aggregate) :
    symbol.definition? = some aggregate.node := by
  unfold aggregate? at isAggregate
  unfold definition?
  split at isAggregate
  next isShape =>
    cases isAggregate
    rw [isShape]
  next => cases isAggregate

namespace Template

open PlainFunction (callArguments)

variable {program : Program} {method : NodeId} {entry : Node} {state final : State}
  {overload symbol : Symbol} {arguments : List (Option Symbol)}

/-- The symbol is an aggregate declared under the name, and bound where there is a pattern. -/
def IsInstanceNamed (tree : Tree) (name : String) (patterns : List WrittenArgument)
    (symbol : Symbol) : Prop :=
  ∃ aggregate template,
    symbol.aggregate? = some aggregate ∧
      tree.node? aggregate.node = some template ∧
      template.name = name ∧
        ∀ parameter ∈ template.templateParameters.take patterns.length,
          (aggregate.bindings.get? parameter).isSome = true

theorem matchArguments_ensures
    (patterns : List WrittenArgument) (given : Bindings) (parameters : List NodeId)
    (bindings : Bindings) :
    (matchArguments method patterns given parameters bindings).Ensures program fun matched =>
      matched.isSome = true →
        ∀ parameter ∈ parameters.take patterns.length, (given.get? parameter).isSome = true := by
  induction patterns generalizing parameters bindings with
  | nil => exact .mono (.anything _) (by simp)
  | cons pattern rest ih =>
    cases parameters with
    | nil => exact .mono (.anything _) (by simp)
    | cons first others =>
      rw [matchArguments]
      cases isBound : given.get? first with
      | none => exact .nothing
      | some bound =>
        refine .bind (.anything _) fun matched _ => ?_
        split
        next later =>
          refine (ih others later).mono fun result areBound isSome => ?_
          intro parameter isParameter
          rcases List.mem_cons.mp isParameter with rfl | isLater
          · rw [isBound]
            rfl
          · exact areBound isSome parameter isLater
        next => exact .nothing

theorem matchType_ensures (pattern : TypeExpr) (argument : Symbol) (bindings : Bindings) :
    (matchType method pattern argument bindings).Ensures program fun matched =>
      matched.isSome = true →
        ∀ name patterns stripped,
          pattern = .instantiated name patterns →
          argument.strip = some stripped →
          IsInstanceNamed program.tree name patterns stripped := by
  cases pattern with
  | instantiated name patterns =>
    rw [matchType]
    cases argument.strip with
    | none => exact .pure fun _ _ _ _ _ isStripped => by cases isStripped
    | some stripped =>
      dsimp only
      cases isAggregate : stripped.aggregate? with
      | none => exact .nothing
      | some aggregate =>
        refine .bind (.node aggregate.node) fun template isTemplate => ?_
        split
        next isNamed =>
          refine (matchArguments_ensures patterns _ _ bindings).mono ?_
          rintro matched areBound isSome _ _ _ ⟨⟩ ⟨⟩
          exact ⟨aggregate, template, isAggregate, isTemplate, beq_iff_eq.mp isNamed,
            areBound isSome⟩
        next => exact .nothing
  | _ => exact .mono (.anything _) fun _ _ _ _ _ _ isPattern => by cases isPattern

/-! ## Places of a call -/

/-- The type that a function parameter is declared with. -/
def writtenType? (tree : Tree) (parameter : NodeId) : Option TypeExpr :=
  (tree.node? parameter).bind (·.declaredType?)

/--
The pattern and the known argument at one place of a call.

A parameter that names a tuple parameter takes all arguments from its place on, so
there is none before.
-/
structure Faces
    (tree : Tree)
    (method : Node)
    (parameters : List NodeId)
    (arguments : List (Option Symbol))
    (place : Nat)
    (pattern : TypeExpr)
    (argument : Symbol) : Prop where
  isWritten : parameters[place]?.bind (writtenType? tree) = some pattern
  isGiven : arguments[place]? = some (some argument)
  isReached :
    ∀ earlier ∈ parameters.take place,
      (writtenType? tree earlier).bind (tupleParameter? tree method) = none

namespace Faces

variable {tree : Tree} {parameter : NodeId} {parameters : List NodeId} {place : Nat}
  {pattern : TypeExpr} {argument : Symbol}

theorem cases_cons
    (faces : Faces tree entry (parameter :: parameters) arguments place pattern argument) :
    (writtenType? tree parameter = some pattern ∧ arguments.head? = some (some argument)) ∨
      (writtenType? tree parameter).bind (tupleParameter? tree entry) = none ∧
        ∃ later, Faces tree entry parameters arguments.tail later pattern argument := by
  obtain ⟨isWritten, isGiven, isReached⟩ := faces
  cases place with
  | zero =>
    rw [← List.head?_eq_getElem?] at isGiven
    exact .inl ⟨isWritten, isGiven⟩
  | succ later =>
    rw [← List.getElem?_tail] at isGiven
    refine .inr ⟨isReached parameter List.mem_cons_self, later, isWritten, isGiven, ?_⟩
    intro earlier isEarlier
    exact isReached earlier (List.mem_cons_of_mem parameter isEarlier)

end Faces

/-- A call that is matched is matched at every place. -/
theorem matchCall_ensures
    {holds : TypeExpr → Symbol → Prop} (isEntry : program.tree.node? method = some entry)
    (each :
      ∀ pattern argument bindings,
        (matchType method pattern argument bindings).Ensures program fun matched =>
          matched.isSome = true → holds pattern argument)
    (parameters : List NodeId) (arguments : List (Option Symbol)) (bindings : Bindings) :
    (matchCall method parameters arguments bindings).Ensures program fun matched =>
      matched.isSome = true →
        ∀ place pattern argument,
          Faces program.tree entry parameters arguments place pattern argument →
            tupleParameter? program.tree entry pattern = none → holds pattern argument := by
  induction parameters generalizing arguments bindings with
  | nil =>
    refine .mono (.anything _) fun _ _ _ place pattern argument faces _ => ?_
    cases faces.isWritten
  | cons parameter rest ih =>
    refine .bind (.node parameter) fun node isNode => ?_
    have isType : writtenType? program.tree parameter = node.declaredType? := by
      rw [writtenType?, isNode]
      rfl
    cases isDeclared : node.declaredType? with
    | none =>
      rw [isDeclared] at isType
      refine (ih arguments.tail bindings).mono fun matched areHeld isSome => ?_
      intro place pattern argument faces isNoTuple
      rcases faces.cases_cons with ⟨isWritten, -⟩ | ⟨-, later, faces⟩
      · cases isWritten.symm.trans isType
      · exact areHeld isSome later pattern argument faces isNoTuple
    | some written =>
      rw [isDeclared] at isType
      refine .bind .tree fun tree isTree => .bind (.node method) fun owner isOwner => ?_
      subst isTree
      cases isEntry.symm.trans isOwner
      cases isTuple : tupleParameter? program.tree entry written with
      | some tuple =>
        refine .pure fun _ place pattern argument faces isNoTuple => ?_
        rcases faces.cases_cons with ⟨isWritten, -⟩ | ⟨isReached, -⟩
        · cases isWritten.symm.trans isType
          cases isNoTuple.symm.trans isTuple
        · rw [isType, Option.bind_some, isTuple] at isReached
          cases isReached
      | none =>
        dsimp only
        split
        next =>
          split
          · refine (ih [] bindings).mono fun matched areHeld isSome => ?_
            intro place pattern argument faces isNoTuple
            cases faces.isGiven
          · exact .nothing
        next others =>
          refine (ih others bindings).mono fun matched areHeld isSome => ?_
          intro place pattern argument faces isNoTuple
          rcases faces.cases_cons with ⟨-, isGiven⟩ | ⟨-, later, faces⟩
          · cases isGiven
          · exact areHeld isSome later pattern argument faces isNoTuple
        next argument others =>
          refine .bind (each written argument bindings) fun matched isHeld => ?_
          split
          next later =>
            refine (ih others later).mono fun result areHeld isSome => ?_
            intro place pattern other faces isNoTuple
            rcases faces.cases_cons with ⟨isWritten, isGiven⟩ | ⟨-, later, faces⟩
            · cases isWritten.symm.trans isType
              cases isGiven
              exact isHeld rfl
            · exact areHeld isSome later pattern other faces isNoTuple
          next => exact .nothing

/-! ## Overloads that take a call -/

/-- An overload that takes a call was matched, and gives an instance of its own. -/
theorem of_instantiateForCall {environment : Environment} {explicit : List Argument}
    (returned :
      instantiateForCall explicit arguments overload environment state = .ok (some symbol, final)) :
    ∃ method entry bound matched bindings,
      overload.definition? = some method ∧
        environment.program.tree.node? method = some entry ∧
        entry.isMethod = true ∧
          (∃ before after,
            matchCall method entry.parameters (callArguments overload arguments) bound
                environment before =
              .ok (some matched, after)) ∧
          ∃ before after,
            instantiateMember overload method bindings environment before =
              .ok (symbol, after) := by
  unfold instantiateForCall at returned
  rcases isDefinition : overload.definition? with _ | method <;> rw [isDefinition] at returned
  · cases returned
  obtain ⟨entry, _, isRead, afterEntry⟩ := Query.bind_eq_ok.mp returned
  obtain ⟨isEntry, rfl⟩ := Query.node_eq_ok.mp isRead
  rcases isMethod : entry.isMethod <;> rw [isMethod] at afterEntry
  · cases afterEntry
  obtain ⟨_ | bound, _, -, afterBinding⟩ := Query.bind_eq_ok.mp afterEntry
  · cases afterBinding
  obtain ⟨_ | matched, _, isMatched, afterMatching⟩ := Query.bind_eq_ok.mp afterBinding
  · cases afterMatching
  obtain ⟨completed, _, -, afterDefaults⟩ := Query.bind_eq_ok.mp afterMatching
  rcases isComplete : completed.allSatisfied <;> simp only [isComplete] at afterDefaults
  · cases afterDefaults
  obtain ⟨_ | bindings, _, -, afterChecks⟩ := Query.bind_eq_ok.mp afterDefaults
  · cases afterChecks
  obtain ⟨member, _, isMember, ⟨⟩⟩ := Query.bind_eq_ok.mp afterChecks
  exact ⟨method, entry, bound, matched, bindings, rfl, isEntry, isMethod, ⟨_, _, isMatched⟩, _, _,
    isMember⟩

theorem of_method_ensures
    (isEntry : program.tree.node? method = some entry) (isMethod : entry.isMethod = true)
    (bindings : Bindings) :
    (DeclaredSymbol.of method bindings).Ensures program fun found =>
      ∀ symbol, found = some symbol → symbol.definition? = some method := by
  refine .bind (.node method) fun node isNode => ?_
  cases isEntry.symm.trans isNode
  refine .bind (.anything _) fun tree _ => .bind (.anything _) fun options _ => ?_
  refine .bind (.anything _) fun state _ => .visiting (fun depth => ?_) method
  refine .bind (.withFrame (DeclaredSymbol.visit_method isMethod method _ _) _) ?_
  intro found areMembers
  refine .pure fun symbol isSymbol => ?_
  cases found with
  | none => cases isSymbol
  | some visited =>
    obtain ⟨base, rfl⟩ := areMembers visited rfl
    cases isSymbol
    rfl

theorem definition?_of_instantiateMember {evaluator : Evaluator} {limit : Nat} {bindings : Bindings}
    (isEntry : program.tree.node? method = some entry) (isMethod : entry.isMethod = true)
    (isDefinition : overload.definition? = some method)
    (returned :
      Engine.run program evaluator limit (instantiateMember overload method bindings) state =
        .ok (symbol, final)) :
    symbol.definition? = some method := by
  obtain ⟨found, _, isFound, ⟨⟩⟩ := Query.bind_eq_ok.mp returned
  rw [Symbol.definition?, Symbol.shape_withMissingTags]
  cases found with
  | none => exact isDefinition
  | some found =>
    cases limit with
    | zero => cases isFound
    | succ limit => exact of_method_ensures isEntry isMethod bindings rfl isFound found rfl

end Template

/--
Patterns for instances are matched by name.

A symbol that takes a call is an instance of one of the overloads, and each known
argument that faces a pattern `Name!(..)` is an aggregate declared under that name and
bound where there is a pattern. It is one of those that the name stands for at the
function if all declarations of that name are among them.
-/
theorem instance_patterns_are_matched_by_name
    {program : Program}
    {evaluator : Evaluator}
    {limit : Nat}
    {overloads found : List Symbol}
    {explicit : List Argument}
    {arguments : List (Option Symbol)}
    {state final : State}
    (returned :
      Engine.run program evaluator limit
          (Operation.deduceCall overloads explicit arguments).query state =
        .ok (found, final))
    {symbol : Symbol}
    (isFound : symbol ∈ found) :
    ∃ overload ∈ overloads.flatMap Symbol.candidates,
      ∃ method entry,
        overload.definition? = some method ∧
          program.tree.node? method = some entry ∧
          symbol.definition? = some method ∧
          ∀ place name patterns argument stripped,
            Template.Faces program.tree entry entry.parameters
              (PlainFunction.callArguments overload arguments) place
              (.instantiated name patterns) argument →
            argument.strip = some stripped →
            Template.IsInstanceNamed program.tree name patterns stripped ∧
              ∀ meant after,
                Engine.Settles program evaluator (Operation.resolveOverloads name).query
                  (.start method none) meant after →
                (∀ id node,
                  program.tree.node? id = some node →
                  node.name = name →
                  ∃ one ∈ meant, one.definition? = some id) →
                ∃ one ∈ meant, one.definition? = stripped.definition? := by
  obtain ⟨instances, _, isCollected, isNarrowed⟩ := Query.bind_eq_ok.mp returned
  have isCandidate := Template.narrow_ensures instances rfl isNarrowed isFound
  rcases Query.exists_of_mem_collectFrom isCollected isCandidate with isStart | isGiven
  · cases isStart
  obtain ⟨overload, isOverload, before, more, after, isGiven, isMore⟩ := isGiven
  obtain ⟨outcome, _, isOutcome, ⟨⟩⟩ := Query.bind_eq_ok.mp isGiven
  obtain rfl := Option.mem_toList.mp isMore
  obtain ⟨method, entry, bound, matched, bindings, isDefinition, isEntry, isMethod,
    ⟨_, _, isMatched⟩, _, _, isMember⟩ := Template.of_instantiateForCall isOutcome
  refine ⟨overload, isOverload, method, entry, isDefinition, isEntry,
    Template.definition?_of_instantiateMember isEntry isMethod isDefinition isMember, ?_⟩
  intro place name patterns argument stripped faces isStripped
  have isInstance :=
    Template.matchCall_ensures isEntry Template.matchType_ensures entry.parameters _ bound rfl
      isMatched rfl place _ argument faces rfl name patterns stripped rfl isStripped
  refine ⟨isInstance, fun meant _ _ areMeant => ?_⟩
  obtain ⟨aggregate, template, isAggregate, isTemplate, isName, -⟩ := isInstance
  obtain ⟨one, isOne, isSame⟩ := areMeant aggregate.node template isTemplate isName
  exact ⟨one, isOne, isSame.trans (Symbol.definition?_of_aggregate? isAggregate).symm⟩

/-- Two modules with a `struct` each, and `void f(U)(Box!U x)` beside the second one, `Box`. -/
def Program.boxing (other : String) : Program :=
  .ofTree (.ofSteps
    [ .module "a",
      .member ⟨0⟩ other (.aggregate .structType false []),
      .templateParameter ⟨1⟩ "T" (.type none none),
      .module "b",
      .member ⟨3⟩ "Box" (.aggregate .structType false []),
      .templateParameter ⟨4⟩ "T" (.type none none),
      .member ⟨3⟩ "f" (.method (some (.basic .void)) [] none),
      .templateParameter ⟨6⟩ "U" (.type none none),
      .parameter ⟨6⟩ "x" (.instantiated "Box" [.type (.named "U")]) ])

/-- The instance of a struct for the type `int`. -/
def Symbol.boxed (struct parameter : NodeId) : Symbol :=
  .declared struct
    (.aggregate ⟨.structType, struct, none, [], .ofTypes [parameter] [.primitive .int]⟩)

theorem Engine.exists_defined_of_any {outcome : Except Halt (List Symbol × State)} {id : NodeId}
    (isSingle :
      outcome.toOption.any (fun found => found.1.map Symbol.definition? == [some id]) = true) :
    ∃ symbol final, outcome = .ok ([symbol], final) ∧ symbol.definition? = some id := by
  obtain ⟨⟨found, final⟩, isOutcome, passes⟩ := exists_of_any isSingle
  obtain ⟨symbol, rfl, isDefined⟩ := List.map_eq_singleton_iff.mp (beq_iff_eq.mp passes)
  exact ⟨symbol, final, isOutcome, isDefined⟩

/-- With only one `Box`, the function takes an instance of the `Box` that it names. -/
theorem only_box_is_matched_by_name :
    ∃ symbol final meant after,
      Engine.run (.boxing "Crate") .standard 9
            (Operation.deduceCall [.member ⟨6⟩ none .none] [] [some (.boxed ⟨4⟩ ⟨5⟩)]).query
            (.start ⟨3⟩ none) =
          .ok ([symbol], final) ∧
        Engine.Settles (.boxing "Crate") .standard (Operation.resolveOverloads "Box").query
          (.start ⟨6⟩ none) [meant] after ∧
        Template.IsInstanceNamed (Program.boxing "Crate").tree "Box" [.type (.named "U")]
          (.boxed ⟨4⟩ ⟨5⟩) ∧
        meant.definition? = some ⟨4⟩ := by
  have accepts :
      (Engine.run (.boxing "Crate") .standard 9
          (Operation.deduceCall [.member ⟨6⟩ none .none] [] [some (.boxed ⟨4⟩ ⟨5⟩)]).query
          (.start ⟨3⟩ none)).toOption.any
        (fun outcome => outcome.1.map Symbol.definition? == [some ⟨6⟩]) =
        true := by
    decide +kernel
  have resolves :
      (Engine.run (.boxing "Crate") .standard 9 (Operation.resolveOverloads "Box").query
          (.start ⟨6⟩ none)).toOption.any
        (fun outcome => outcome.1.map Symbol.definition? == [some ⟨4⟩]) =
        true := by
    decide +kernel
  obtain ⟨symbol, final, returned, -⟩ := Engine.exists_defined_of_any accepts
  obtain ⟨meant, after, isResolved, isNear⟩ := Engine.exists_defined_of_any resolves
  have settles := Engine.Settles.ofRun (Operation.query_orderly _ _) isResolved
  obtain ⟨overload, isOverload, method, entry, isDefinition, isEntry, -, areInstances⟩ :=
    instance_patterns_are_matched_by_name returned (List.mem_singleton.mpr rfl)
  obtain rfl : overload = .member ⟨6⟩ none .none := List.mem_singleton.mp isOverload
  cases isDefinition
  have faces :
      Template.Faces (Program.boxing "Crate").tree entry entry.parameters
        [some (.boxed ⟨4⟩ ⟨5⟩)] 0 (.instantiated "Box" [.type (.named "U")])
        (.boxed ⟨4⟩ ⟨5⟩) := by
    cases isEntry
    exact ⟨rfl, rfl, nofun⟩
  obtain ⟨isInstance, isMeant⟩ := areInstances 0 "Box" _ _ (.boxed ⟨4⟩ ⟨5⟩) faces rfl
  have areOther :
      ∀ index < (Program.boxing "Crate").tree.nodes.size,
        ((Program.boxing "Crate").tree.node? ⟨index⟩).any (·.name == "Box") = true →
        index = 4 := by
    decide +kernel
  obtain ⟨one, isOne, isSame⟩ := isMeant [meant] after settles <| by
    rintro ⟨index⟩ node isNode isName
    have isOnly := areOther index (Tree.holds_iff_lt.mp (Tree.holds_of_node? isNode))
    rw [isNode] at isOnly
    cases isOnly (beq_iff_eq.mpr isName)
    exact ⟨meant, List.mem_singleton.mpr rfl, isNear⟩
  obtain rfl := List.mem_singleton.mp isOne
  exact ⟨symbol, final, one, after, returned, settles, isInstance, isSame⟩

/-- `Box` is the second struct for the function, which takes an instance of the first one. -/
theorem distant_box_is_taken :
    ∃ symbol final meant after,
      Engine.Settles (.boxing "Box") .standard
          (Operation.deduceCall [.member ⟨6⟩ none .none] [] [some (.boxed ⟨1⟩ ⟨2⟩)]).query
          (.start ⟨3⟩ none) [symbol] final ∧
        symbol.definition? = some ⟨6⟩ ∧
        Engine.Settles (.boxing "Box") .standard (Operation.resolveOverloads "Box").query
          (.start ⟨6⟩ none) [meant] after ∧
        meant.definition? = some ⟨4⟩ ∧
        (Symbol.boxed ⟨1⟩ ⟨2⟩).strip = some (.boxed ⟨1⟩ ⟨2⟩) ∧
        (Symbol.boxed ⟨1⟩ ⟨2⟩).aggregate?.map (·.node) = some ⟨1⟩ := by
  have accepts :
      (Engine.run (.boxing "Box") .standard 9
          (Operation.deduceCall [.member ⟨6⟩ none .none] [] [some (.boxed ⟨1⟩ ⟨2⟩)]).query
          (.start ⟨3⟩ none)).toOption.any
        (fun outcome => outcome.1.map Symbol.definition? == [some ⟨6⟩]) =
        true := by
    decide +kernel
  have resolves :
      (Engine.run (.boxing "Box") .standard 9 (Operation.resolveOverloads "Box").query
          (.start ⟨6⟩ none)).toOption.any
        (fun outcome => outcome.1.map Symbol.definition? == [some ⟨4⟩]) =
        true := by
    decide +kernel
  obtain ⟨symbol, final, isAccepted, isFunction⟩ := Engine.exists_defined_of_any accepts
  obtain ⟨meant, after, isResolved, isNear⟩ := Engine.exists_defined_of_any resolves
  exact ⟨symbol, final, meant, after,
    .ofRun (Operation.query_orderly _ _) isAccepted, isFunction,
    .ofRun (Operation.query_orderly _ _) isResolved, isNear, rfl, rfl⟩

end DScope
