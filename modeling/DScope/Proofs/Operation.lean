import DScope.Proofs.Balance
import DScope.Tree.Draft

namespace DScope

/-!
# The operations of the library

What a client may ask of a session. Every operation is an orderly query, so it
leaves frames, guard and default options as they were.
-/

variable {α : Type}

/-- An operation that a client runs, indexed by the type of its result. -/
inductive Operation : Type → Type
  | lookup (name : String) (filter : Filter) : Operation (List Declaration)
  | enumerate (filter : Filter) : Operation (List Declaration)
  | searchMembers (owner : Symbol) (name : String) (filter : Filter) :
      Operation (List Declaration)
  | resolveType (type : TypeExpr) : Operation (List Symbol)
  | resolveSingle (type : TypeExpr) : Operation (Option Symbol)
  | resolveIdentifier (name : String) : Operation (List Symbol)
  | resolveOverloads (name : String) : Operation (List Symbol)
  | declarationSymbol (node : NodeId) (via : Option Symbol) : Operation (Option Symbol)
  | declarationSymbols (declarations : List Declaration) : Operation (List Symbol)
  | methodReturnType (method : NodeId) : Operation (Option Symbol)
  | mixinInstance (mixin : NodeId) : Operation (Option Symbol)
  | memberAccess (owner : Symbol) (name : String) (arguments : Option (List WrittenArgument))
      (ufcs : Bool) : Operation (List Symbol)
  | resolveFurther (owner : Symbol) (name : String) (ufcs : Bool) : Operation (List Symbol)
  | evaluateValue (expression : Expr) : Operation (Except EvalError Value)
  | evaluateType (expression : Expr) : Operation (Option Symbol)
  | resolveCall (call : Expr) : Operation (Option NodeId)
  | resolveArguments (arguments : List WrittenArgument) : Operation (List Argument)
  | deduceAndFilter (overloads : List Symbol) (given : List Argument) (atCall : Bool) :
      Operation (List Symbol)
  | deduceCall (overloads : List Symbol) (explicit : List Argument)
      (arguments : List (Option Symbol)) : Operation (List Symbol)
  | selectSingle (overloads : List Symbol) (subject : String) : Operation (Option Symbol)
  | resolveProperty (owner : Symbol) (name : String) : Operation (Option Symbol)

open Composite Sieve

namespace Operation

def query : {α : Type} → Operation α → Query α
  | _, lookup name filter => Lookup.visible name filter
  | _, enumerate filter => Lookup.everything filter
  | _, searchMembers owner name filter => Lookup.members owner name filter
  | _, resolveType type => Query.resolve type
  | _, resolveSingle type => Query.resolveOne type
  | _, resolveIdentifier name => Resolution.ofName name
  | _, resolveOverloads name => Lookup.candidates name
  | _, declarationSymbol node via => Query.symbolThrough node via
  | _, declarationSymbols declarations => Query.symbolsOf declarations
  | _, methodReturnType method => ReturnType.insideMethod method
  | _, mixinInstance mixin => Query.mixedIn mixin
  | _, memberAccess owner name arguments ufcs => MemberAccess.symbols owner name arguments ufcs
  | _, resolveFurther owner name ufcs => MemberAccess.candidates owner name ufcs
  | _, evaluateValue expression => Query.evaluate expression
  | _, evaluateType expression => Query.evaluateType expression
  | _, resolveCall call => Typing.calledMethod call
  | _, resolveArguments arguments => Template.resolveArguments arguments
  | _, deduceAndFilter overloads given atCall => Template.instantiate overloads given atCall
  | _, deduceCall overloads explicit arguments =>
    Template.selectForCall overloads explicit arguments
  | _, selectSingle overloads subject => Template.theOnly overloads subject
  | _, resolveProperty owner name => Property.member? owner name

/-- The data that is handed over. -/
instance {α : Type} : Composite (Operation α) where
  parts
    | searchMembers owner .. | memberAccess owner .. | resolveFurther owner ..
    | resolveProperty owner _ => parts owner
    | declarationSymbol node via => parts (node, via)
    | declarationSymbols declarations => parts declarations
    | deduceAndFilter overloads given _ => parts (overloads, given)
    | deduceCall overloads explicit arguments => parts (overloads, explicit, arguments)
    | selectSingle overloads _ => parts overloads
    | _ => []
  loose
    | methodReturnType method => [method]
    | mixinInstance mixin => [mixin]
    | declarationSymbol node via => loose (node, via)
    | declarationSymbols declarations => loose declarations
    | deduceAndFilter overloads given _ => loose (overloads, given)
    | deduceCall overloads explicit arguments => loose (overloads, explicit, arguments)
    | selectSingle overloads _ => loose overloads
    | _ => []

/-- What the result of an operation is made up of. -/
@[reducible]
def result : {α : Type} → Operation α → Composite α
  | _, lookup .. | _, enumerate _ | _, searchMembers .. => inferInstance
  | _, resolveType _ | _, resolveIdentifier _ | _, resolveOverloads _ | _, declarationSymbols _
  | _, memberAccess .. | _, resolveFurther .. | _, deduceAndFilter .. | _, deduceCall .. =>
    inferInstance
  | _, resolveSingle _ | _, declarationSymbol .. | _, methodReturnType _ | _, mixinInstance _
  | _, evaluateType _ | _, selectSingle .. | _, resolveProperty .. => inferInstance
  | _, evaluateValue _ => inferInstance
  | _, resolveCall _ => inferInstance
  | _, resolveArguments _ => inferInstance

/-- An operation on what passes keeps to the realm. -/
theorem query_confined {realm : Realm} {operation : Operation α} (passes : realm.Passes operation) :
    realm.Relates .plain (fun _ => True) operation.query operation.query
      (@Sieve.Passes α operation.result realm.toSieve) := by
  have isPlain : Standing.plain ≠ .overridden := by decide
  have raised : ∀ question, realm.narrow.tree.Raises question → True := fun _ _ => trivial
  cases operation with
  | lookup name filter => exact Lookup.visible_confined raised name filter
  | enumerate filter => exact Lookup.everything_confined raised filter
  | searchMembers owner name filter => exact Lookup.members_confined raised passes name filter
  | resolveType type => exact .resolve isPlain trivial
  | resolveSingle type => exact .resolveOne isPlain trivial
  | resolveIdentifier name => exact Resolution.ofName_confined raised isPlain name
  | resolveOverloads name => exact Lookup.candidates_confined raised name
  | declarationSymbol node via =>
    obtain ⟨isNode, isVia⟩ := passes_pair.mp passes
    exact .symbolThrough raised (passes_node.mp isNode) isVia
  | declarationSymbols declarations => exact Query.symbolsOf_confined raised passes
  | methodReturnType method =>
    exact ReturnType.insideMethod_confined raised (passes_node.mp passes)
  | mixinInstance mixin => exact Query.mixedIn_confined raised (passes_node.mp passes)
  | memberAccess owner name arguments ufcs =>
    exact MemberAccess.symbols_confined raised isPlain (fun _ _ _ _ => trivial) passes name ufcs
  | resolveFurther owner name ufcs =>
    exact MemberAccess.candidates_confined raised passes name ufcs
  | evaluateValue expression => exact .evaluate isPlain trivial
  | evaluateType expression => exact .evaluateType isPlain trivial
  | resolveCall call => exact Typing.calledMethod_confined raised isPlain fun _ _ => trivial
  | resolveArguments arguments =>
    exact Template.resolveArguments_confined isPlain fun _ _ => trivial
  | deduceAndFilter overloads given atCall =>
    obtain ⟨areOverloads, areGiven⟩ := passes_pair.mp passes
    exact Template.instantiate_confined raised areOverloads areGiven atCall
  | deduceCall overloads explicit arguments =>
    obtain ⟨areOverloads, areOthers⟩ := passes_pair.mp passes
    obtain ⟨areExplicit, areArguments⟩ := passes_pair.mp areOthers
    exact Template.selectForCall_confined raised areOverloads areExplicit areArguments
  | selectSingle overloads subject => exact Template.theOnly_confined passes subject
  | resolveProperty owner name => exact Property.member?_confined raised passes name

theorem query_orderly (program : Program) (operation : Operation α) :
    Orderly program (fun _ _ => True) .plain (fun _ => True) operation.query :=
  Realm.Relates.orderly (query_confined (Sieve.passes_whole operation))

/--
An operation that returns leaves every frame, the guard and the default options
exactly as they were, and the old log is a prefix of the new one, whether or not
the query is cancelled on the way.
-/
theorem run_restores_state
    {α : Type}
    (program : Program)
    (evaluator : Evaluator)
    (limit : Nat)
    (operation : Operation α)
    {state final : State}
    {result : α}
    (isPositive : ∀ entry ∈ state.guard.counts, 0 < entry.2)
    (returned :
      Engine.run program evaluator limit operation.query state = .ok (result, final)) :
    final.stack = state.stack ∧
      final.guard = state.guard ∧
      final.defaults = state.defaults ∧ state.log <+: final.log := by
  have orderly := operation.query_orderly program
  have balances := orderly.run_isBalanced evaluator limit isPositive returned
  exact ⟨balances.stack, balances.guard, balances.defaults, balances.log⟩

end Operation

theorem exists_of_any {outcome : Except Halt α} {test : α → Bool}
    (passes : outcome.toOption.any test = true) :
    ∃ value, outcome = .ok value ∧ test value = true := by
  cases outcome with
  | error reason => cases passes
  | ok value => exact ⟨value, rfl, passes⟩

theorem exists_returned {β : Type} {outcome : Except Halt (α × β)} {holds : α → β → Prop}
    (test : α × β → Bool) (passes : outcome.toOption.any test = true)
    (shows : ∀ value state,
      outcome = .ok (value, state) → test (value, state) = true → holds value state) :
    ∃ value state, outcome = .ok (value, state) ∧ holds value state := by
  obtain ⟨⟨value, state⟩, returned, passes⟩ := exists_of_any passes
  exact ⟨value, state, returned, shows value state returned passes⟩

/-- Whether two outcomes are results that differ in a property of their symbols. -/
def differ {β : Type} [DecidableEq β] (property : Symbol → β)
    (first second : Except Halt (List Symbol × State)) : Bool :=
  first.toOption.any fun found =>
    second.toOption.any fun other => found.1.map property != other.1.map property

theorem exists_of_differ {β : Type} [DecidableEq β] {property : Symbol → β}
    {first second : Except Halt (List Symbol × State)}
    (isDifferent : differ property first second = true) :
    ∃ found final other otherFinal,
      first = .ok (found, final) ∧ second = .ok (other, otherFinal) ∧ found ≠ other := by
  obtain ⟨⟨found, final⟩, isFirst, isDifferent⟩ := exists_of_any isDifferent
  obtain ⟨⟨other, otherFinal⟩, isSecond, isDifferent⟩ := exists_of_any isDifferent
  refine ⟨found, final, other, otherFinal, isFirst, isSecond, ?_⟩
  rintro rfl
  simp at isDifferent

/-- A program with a single variable, whose type is that of its initializer. -/
def Program.inferredVariable : Program :=
  let drafting : Drafting Unit := do
    let module ← Draft.addModule "m"
    discard <| Draft.addMember module "x" (.var none (some (.literal (.integer 1 .int))))
  .ofTree (drafting.run {}).2.tree

namespace Operation

/-- A state in the middle of resolving both declarations of the program. -/
def inFlight : State :=
  { State.start ⟨0⟩ none with guard := { resolving := [⟨0⟩], counts := [(⟨1⟩, 2)] } }

/-- The state is restored when the query is cancelled while the initializer is typed. -/
theorem run_restores_state_when_cancelled :
    (∀ entry ∈ inFlight.guard.counts, 0 < entry.2) ∧
      ∃ result final,
        Engine.run .inferredVariable (.cancelling 1) 9 (resolveOverloads "x").query inFlight =
            .ok (result, final) ∧
          final.isCancelled = true ∧
          final.stack = inFlight.stack ∧
            final.guard = inFlight.guard ∧
            final.defaults = inFlight.defaults ∧ inFlight.log <+: final.log := by
  have isPositive : ∀ entry ∈ inFlight.guard.counts, 0 < entry.2 := by decide
  refine ⟨isPositive, exists_returned (·.2.isCancelled) (by decide +kernel) ?_⟩
  intro result final returned isCancelled
  exact ⟨isCancelled, run_restores_state _ _ _ _ isPositive returned⟩

end Operation

end DScope
