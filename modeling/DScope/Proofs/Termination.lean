import Mathlib.Algebra.GroupWithZero.Nat
import Mathlib.Algebra.Order.BigOperators.Group.List
import Mathlib.Algebra.Order.Group.Nat
import DScope.Proofs.Limit

namespace DScope

/-!
# Guarded termination

A program of modules, aggregates, enumerations, variables, aliases and imports of
whole modules raises no questions but those that its declarations hold, and those
are asked only inside a declaration that has not been entered too often. Each
such entry uses up a part of a finite budget, and between two entries questions
get lighter. The depth to which questions nest is therefore bounded, however
the declarations refer to each other.
-/

variable {tree : Tree}

namespace Node

/--
Whether the declaration is a module, an aggregate, an enumeration or one of its
members, a variable, an alias or an import, without a constraint.
-/
def isElementary (node : Node) : Bool :=
  node.constraint.isNone &&
    match node.kind with
    | .module | .aggregate .. | .enumeration _ | .enumerator _ | .var .. | .aliased ..
    | .importModule .. | .moduleAlias _ => true
    | .method .. | .eponymous .. | .templateParameter _ | .importBinding .. | .mixin _ => false

variable {node : Node}

theorem sharedQuestions_eq_nil (isElementary : node.isElementary) : node.sharedQuestions = [] := by
  unfold Node.isElementary at isElementary
  unfold sharedQuestions
  cases kind : node.kind <;> simp_all

theorem parameters_eq_nil (isElementary : node.isElementary) : node.parameters = [] := by
  unfold Node.isElementary at isElementary
  unfold parameters
  cases kind : node.kind <;> simp_all

theorem not_isForwarding (isElementary : node.isElementary) : ¬node.isForwarding := by
  unfold Node.isElementary at isElementary
  unfold isForwarding
  cases kind : node.kind <;> simp_all

/-- The questions that are asked inside a declaration, its initializer included. -/
def heldQuestions (node : Node) : List Question :=
  node.ownQuestions ++ node.initializer?.toList.map .value

end Node

namespace Tree

/-- Whether all declarations are elementary and there are no function bodies. -/
def isElementary (tree : Tree) : Bool :=
  tree.nodes.all Node.isElementary && tree.statements.isEmpty

/-- More than any question weighs that is asked inside a declaration. -/
def heaviest (tree : Tree) : Nat :=
  ((tree.nodes.toList.flatMap Node.heldQuestions).map Question.weight).sum + 1

variable {id : NodeId} {entry : Node} {question : Question}

theorem isElementary_of_node?
    (isElementary : tree.isElementary) (found : tree.node? id = some entry) :
    entry.isElementary := by
  simp only [Tree.isElementary, Bool.and_eq_true, Array.all_eq_true_iff_forall_mem] at isElementary
  exact isElementary.1 entry (Array.mem_of_getElem? found)

theorem Raises.weight_eq_zero (isElementary : tree.isElementary) (raised : tree.Raises question) :
    question.weight = 0 := by
  cases raised with
  | symbol node bindings =>
    rfl
  | declaration found isHeld isPart =>
    rw [Node.sharedQuestions_eq_nil (isElementary_of_node? isElementary found)] at isHeld
    cases isHeld
  | parameter found isParameter foundParameter isTyped isPart =>
    rw [Node.parameters_eq_nil (isElementary_of_node? isElementary found)] at isParameter
    cases isParameter
  | statement found isHeld =>
    have isEmpty : tree.statements = #[] := by simp_all [Tree.isElementary]
    simp [statement?, isEmpty] at found

theorem weight_lt_heaviest
    (found : tree.node? id = some entry) (isHeld : question ∈ entry.heldQuestions) :
    question.weight < tree.heaviest := by
  have member : entry ∈ tree.nodes.toList := Array.mem_toList_iff.mpr (Array.mem_of_getElem? found)
  refine Nat.lt_succ_of_le (List.le_sum_of_mem (List.mem_map_of_mem ?_))
  exact List.mem_flatMap.mpr ⟨entry, member, isHeld⟩

end Tree

namespace Guard

/-- How many more times declarations may be entered before constants are cut off. -/
def budget (guard : Guard) (tree : Tree) : Nat :=
  (tree.nodeIds.map fun id => evaluationLimit - guard.depth id).sum

variable {guard : Guard} {node : NodeId}

theorem depth_le_depth_enter (guard : Guard) (node other : NodeId) :
    guard.depth other ≤ (guard.enter node).depth other := by
  by_cases same : node = other
  · subst same
    rw [depth_enter_self]
    exact Nat.le_succ _
  · rw [depth_enter_of_ne same]

theorem budget_mark : (guard.mark node).budget tree = guard.budget tree := by
  have sameCounts : (guard.mark node).counts = guard.counts := by
    unfold mark
    split <;> rfl
  simp only [budget, depth, sameCounts]

theorem budget_enter_le (guard : Guard) (tree : Tree) (node : NodeId) :
    (guard.enter node).budget tree ≤ guard.budget tree :=
  List.sum_le_sum fun id _ => Nat.sub_le_sub_left (guard.depth_le_depth_enter node id) _

theorem budget_enter_lt (isDeclared : (tree.node? node).isSome)
    (isShallow : (guard.enter node).depth node ≤ evaluationLimit) :
    (guard.enter node).budget tree < guard.budget tree := by
  refine List.sum_lt_sum _ _ (fun id _ => ?_) ⟨node, ?_, ?_⟩
  · exact Nat.sub_le_sub_left (guard.depth_le_depth_enter node id) _
  · have inBounds : node.index < tree.nodes.size := by
      simpa [Tree.node?] using isDeclared
    exact List.mem_map.mpr ⟨node.index, List.mem_range.mpr inBounds, rfl⟩
  · rw [depth_enter_self] at isShallow ⊢
    omega

theorem budget_le (guard : Guard) (tree : Tree) :
    guard.budget tree ≤ tree.nodes.size * evaluationLimit := by
  have bound := List.sum_le_card_nsmul
    (tree.nodeIds.map fun id => evaluationLimit - guard.depth id) evaluationLimit (by simp)
  simpa [budget, Tree.nodeIds] using bound

end Guard

variable {program : Program} {within : Nat → Question → Prop} {standing : Standing}
  {asks : Question → Prop} {α : Type} {query : Query α} {weight : Nat}

theorem Query.withFrame_ne_depthExceeded {environment : Environment} {state : State} {frame : Frame}
    (finishes : query environment (state.push frame) ≠ .error .depthExceeded) :
    Query.withFrame frame query environment state ≠ .error .depthExceeded := by
  rw [Query.withFrame_apply]
  split
  · exact nofun
  · split
    · exact nofun
    next reason isInner =>
      rintro ⟨⟩
      exact finishes isInner

/--
An orderly query is not stopped by the limit when neither are the questions that
it asks within its budget, nor those that it asks inside declarations for less.
-/
theorem Orderly.finishes (orderly : Orderly program within standing asks query)
    (limited : ∀ depth question, within depth question → depth ≤ Guard.evaluationLimit)
    (environment : Environment) (isProgram : environment.program = program)
    (balanced : ∀ question, Attempt.IsBalanced environment.evaluator (environment.answer question))
    (budget : Nat)
    (listed :
      ∀ question state, asks question → state.guard.IsPositive →
        state.guard.budget program.tree ≤ budget →
        environment.answer question state ≠ .error .depthExceeded)
    (inside :
      ∀ depth question state, within depth question → state.guard.IsPositive →
        state.guard.budget program.tree < budget →
        environment.answer question state ≠ .error .depthExceeded)
    (state : State) (isPositive : state.guard.IsPositive)
    (isAffordable : state.guard.budget program.tree ≤ budget) :
    query environment state ≠ .error .depthExceeded := by
  induction orderly generalizing budget state with
  | pure value =>
    exact nofun
  | bindReturned before after beforeHypothesis afterHypothesis =>
    have beforeFinishes := beforeHypothesis budget listed inside state isPositive isAffordable
    rw [Query.bind_apply]
    split
    next value later isFirst =>
      have sameGuard : later.guard = state.guard :=
        (before.isBalanced environment isProgram balanced isPositive isFirst).guard
      rw [← sameGuard] at isPositive isAffordable
      exact afterHypothesis value ⟨environment, state, later, isProgram, isFirst⟩ budget listed inside
        later isPositive isAffordable
    next reason isFirst =>
      rintro ⟨⟩
      exact beforeFinishes isFirst
  | halt isOwn =>
    rintro ⟨⟩
    exact isOwn rfl
  | reading after ih =>
    subst isProgram
    exact ih budget listed inside state isPositive isAffordable
  | asking isListed isPermitted =>
    exact listed _ state isListed isPositive isAffordable
  | seeing seesView after ih =>
    exact ih state budget listed inside state isPositive isAffordable
  | reporting diagnostic _ =>
    exact nofun
  | framed opens inner ih =>
    exact Query.withFrame_ne_depthExceeded
      (ih budget listed inside (state.push _) isPositive isAffordable)
  | overriding inner ih =>
    rw [Query.withOverrides_apply]
    exact Query.withFrame_ne_depthExceeded
      (ih budget listed inside (state.push _) isPositive isAffordable)
  | @resolving α standing asks node body inner ih =>
    have innerFinishes :=
      ih budget listed inside
        { state with guard := state.guard.mark node } (isPositive.mark node)
        (Nat.le_trans (Nat.le_of_eq Guard.budget_mark) isAffordable)
    rw [Query.whileResolving_apply]
    split
    · exact nofun
    · split
      · exact nofun
      next reason isInner =>
        rintro ⟨⟩
        exact innerFinishes isInner
  | @visiting α standing asks node body isDeclared inner ih =>
    -- What is asked inside is within the depth of the declaration, and a depth within the limit
    -- means that entering has taken from the budget.
    have lower := Nat.le_trans (state.guard.budget_enter_le program.tree node) isAffordable
    have innerFinishes :=
      ih ((state.guard.enter node).depth node)
        ((state.guard.enter node).budget program.tree)
        (fun question later isWithin isPositive isAffordable => by
          have isLess := Guard.budget_enter_lt isDeclared (limited _ _ isWithin)
          exact inside _ question later isWithin isPositive (by omega))
        (fun depth question later isWithin isPositive isAffordable =>
          inside depth question later isWithin isPositive (by omega))
        { state with guard := state.guard.enter node } (isPositive.enter node) (Nat.le_refl _)
    rw [Query.visiting_apply]
    split
    · exact nofun
    next reason isInner =>
      rintro ⟨⟩
      exact innerFinishes isInner
  | evaluating inner ih =>
    rw [Query.throughEvaluator_apply]
    split
    · exact nofun
    · have sameGuard : (Query.evaluationStart environment.evaluator state).guard = state.guard :=
        (State.Balances.evaluationStart environment.evaluator state).guard
      rw [← sameGuard] at isPositive isAffordable
      exact ih budget listed inside _ isPositive isAffordable
  | remembering isPlain inner ih =>
    have searchFinishes := ih budget listed inside state isPositive isAffordable
    rw [Resolution.ofName_apply]
    split
    · exact nofun
    · split
      next reason isSearch =>
        rintro ⟨⟩
        exact searchFinishes isSearch
      · split <;> exact nofun

theorem Tree.admits_of_isElementary (isElementary : tree.isElementary) {bound : Nat}
    (isBound : tree.heaviest ≤ bound) :
    tree.Admits fun depth question =>
      depth ≤ Guard.evaluationLimit ∧ question.weight < bound where
  declared := by
    intro depth question isShallow known
    refine ⟨Nat.le_trans isShallow (by decide), Nat.lt_of_lt_of_le ?_ isBound⟩
    rcases known with ⟨id, entry, found, isOwn⟩ | raised
    · exact weight_lt_heaviest found (List.mem_append_left _ isOwn)
    · rw [raised.weight_eq_zero isElementary]
      exact Nat.succ_pos _
  forwarded := by
    intro id entry depth question found forwards raised
    exact absurd forwards (Node.not_isForwarding (isElementary_of_node? isElementary found))
  initialized := by
    rintro depth question isShallow ⟨id, entry, initializer, found, isWritten, rfl⟩
    refine ⟨isShallow, Nat.lt_of_lt_of_le (weight_lt_heaviest found ?_) isBound⟩
    exact List.mem_append_right _ (by simp [isWritten])

theorem TypeExpr.weight_pos (type : TypeExpr) : 0 < type.weight := by
  cases type <;> simp only [TypeExpr.weight] <;> omega

theorem Expr.weight_pos (expression : Expr) : 0 < expression.weight := by
  cases expression <;> simp only [Expr.weight] <;> omega

namespace Engine

theorem respond_orderly_of_isElementary
    (isElementary : program.tree.isElementary) (admits : program.tree.Admits within)
    (question : Question) :
    Orderly program within .plain (fun other => other.weight < question.weight)
      (respond question) := by
  have isPermitted := Standing.permits_of_ne_overridden (by decide : Standing.plain ≠ _) question
  have raised :
      0 < question.weight → ∀ other, program.tree.Raises other → other.weight < question.weight :=
    fun isHeavy other isRaised => by rwa [isRaised.weight_eq_zero isElementary]
  cases question with
  | type type =>
    refine respond_orderly admits isPermitted (raised ?_) fun _ isLighter => isLighter
    exact Nat.mul_pos (by decide) type.weight_pos
  | symbol node bindings =>
    exact DeclaredSymbol.of_orderly admits node bindings
  | value expression =>
    exact respond_orderly admits isPermitted (raised (Nat.succ_pos _)) fun _ isLighter => isLighter
  | typing expression =>
    refine respond_orderly admits isPermitted (raised ?_) fun _ isLighter => isLighter
    exact Nat.mul_pos (by decide) expression.weight_pos

theorem answer_finishes
    (isElementary : program.tree.isElementary) (evaluator : Evaluator) {bound : Nat}
    (isBound : program.tree.heaviest ≤ bound) (limit : Nat) (question : Question)
    (isLight : question.weight < bound) (state : State) (isPositive : state.guard.IsPositive)
    (isEnough : state.guard.budget program.tree * bound + question.weight < limit) :
    answer program evaluator limit question state ≠ .error .depthExceeded := by
  -- The measure is the budget and then the weight, as one number: a part of the question leaves the
  -- budget and is lighter, a question inside a declaration may weigh anything below the bound.
  induction limit generalizing question state with
  | zero =>
    exact absurd isEnough (Nat.not_lt_zero _)
  | succ limit ih =>
    refine Orderly.finishes
      (respond_orderly_of_isElementary isElementary
        (Tree.admits_of_isElementary isElementary isBound) question)
      (fun _ _ isWithin => isWithin.1)
      { program, evaluator, answer := answer program evaluator limit } rfl
      (answer_isBalanced program evaluator limit)
      (state.guard.budget program.tree) ?_ ?_ state isPositive (Nat.le_refl _)
    · intro other later isLighter isPositive isAffordable
      have product := Nat.mul_le_mul_right bound isAffordable
      exact ih other (by omega) later isPositive (by omega)
    · intro depth other later isWithin isPositive isAffordable
      have product := Nat.mul_le_mul_right bound (Nat.succ_le_of_lt isAffordable)
      rw [Nat.succ_mul] at product
      have isLighter := isWithin.2
      exact ih other isLighter later isPositive (by omega)

end Engine

/--
How deeply questions nest in an elementary tree below a question of the given
weight.
-/
def Tree.nestingBound (tree : Tree) (weight : Nat) : Nat :=
  (tree.nodes.size * Guard.evaluationLimit + 1) * (weight + tree.heaviest)

theorem Tree.budget_lt_nestingBound
    (tree : Tree) (guard : Guard) {lighter : Nat} (isLighter : lighter ≤ weight) :
    guard.budget tree * (weight + tree.heaviest) + lighter < tree.nestingBound weight := by
  have product := Nat.mul_le_mul_right (weight + tree.heaviest) (guard.budget_le tree)
  have isPositive : 0 < tree.heaviest := Nat.succ_pos _
  rw [nestingBound, Nat.succ_mul]
  omega

/-- Whether a query comes to one and the same end under every limit from a bound on. -/
def Engine.Terminates
    (program : Program)
    (evaluator : Evaluator)
    (bound : Nat)
    (query : Query α)
    (state : State) :
    Prop :=
  ∃ outcome,
    outcome ≠ .error .depthExceeded ∧
      ∀ limit, bound ≤ limit → run program evaluator limit query state = outcome

theorem Engine.terminates_of_isElementary
    (isElementary : program.tree.isElementary) (evaluator : Evaluator)
    (orderly :
      Orderly program
        (fun depth question =>
          depth ≤ Guard.evaluationLimit ∧ question.weight < weight + program.tree.heaviest)
        .plain (fun question => question.weight ≤ weight) query)
    {state : State} (isPositive : state.guard.IsPositive) :
    Terminates program evaluator (program.tree.nestingBound weight) query state := by
  have isBound := Nat.le_add_left program.tree.heaviest weight
  have finishes :
      run program evaluator (program.tree.nestingBound weight) query state ≠
        .error .depthExceeded := by
    refine orderly.finishes (fun _ _ isWithin => isWithin.1)
      { program, evaluator, answer := answer program evaluator _ } rfl
      (answer_isBalanced program evaluator _) (state.guard.budget program.tree) ?_ ?_
      state isPositive (Nat.le_refl _)
    · intro question later isLight isPositive _
      have isPositiveHeaviest : 0 < program.tree.heaviest := Nat.succ_pos _
      exact answer_finishes isElementary evaluator isBound _ question (by omega) later isPositive
        (program.tree.budget_lt_nestingBound later.guard isLight)
    · intro depth question later isWithin isPositive isAffordable
      have isEnough := program.tree.budget_lt_nestingBound state.guard (Nat.zero_le weight)
      have product :=
        Nat.mul_le_mul_right (weight + program.tree.heaviest) (Nat.succ_le_of_lt isAffordable)
      rw [Nat.succ_mul] at product
      have isLight := isWithin.2
      exact answer_finishes isElementary evaluator isBound _ question isLight later isPositive
        (by omega)
  exact ⟨_, finishes, fun limit isHigher => run_eq_of_le orderly evaluator isHigher finishes⟩

/--
In a program of modules, aggregates, enumerations, variables, aliases and imports
of whole modules, resolving a name and resolving a written type terminate under
every evaluator, in every scope and under all options, however the declarations
refer to each other. However the imports are connected, the number of steps that
scans of modules are given is not what ends them: more steps change nothing.
-/
theorem elementary_resolution_terminates
    (program : Program)
    (isElementary : program.tree.isElementary)
    (evaluator : Evaluator)
    (state : State)
    (isPositive : ∀ entry ∈ state.guard.counts, 0 < entry.2) :
    (∀ (scan : Scan) (id : NodeId) (steps : Nat),
      program.tree.nodes.size < steps →
        scan.module program steps id = scan.module program (program.tree.nodes.size + 1) id) ∧
      (∀ name,
        Engine.Terminates program evaluator (program.tree.nestingBound 0)
          (Operation.resolveIdentifier name).query state) ∧
      ∀ type,
        Engine.Terminates program evaluator
          (program.tree.nestingBound (Question.type type).weight)
          (Operation.resolveType type).query state := by
  have isPlain : Standing.plain ≠ .overridden := by decide
  refine ⟨fun scan id steps isEnough => Scan.module_eq_of_lt isEnough scan id, ?_, ?_⟩
  · intro name
    refine Engine.terminates_of_isElementary isElementary evaluator ?_ isPositive
    refine (Resolution.ofName_confined (fun question raised => ?_) isPlain name).orderly
    exact Nat.le_of_eq (raised.weight_eq_zero isElementary)
  · intro type
    exact Engine.terminates_of_isElementary isElementary evaluator
      (Realm.Relates.resolve isPlain (Nat.le_refl _)).orderly isPositive

/--
A program in which everything depends on itself: aliases, a variable without a
type, constants, an array length, base classes, an enumeration and imports.
-/
def Program.entangled : Program :=
  let drafting : Drafting Unit := do
    let first ← Draft.addModule "first"
    let second ← Draft.addModule "second"
    discard <| Draft.addMember first "second" (.importModule "second" true false)
    discard <| Draft.addMember second "first" (.importModule "first" true false)
    discard <| Draft.addMember first "A" (.aliased (some (.named "B")) none)
    discard <| Draft.addMember second "B" (.aliased (some (.typeOf (.named "x"))) none)
    discard <| Draft.addMember first "x" (.var none (some (.index (.named "y") (.named "n"))))
    discard <| Draft.addMember second "y"
      (.var (some (.sizedArray (.named "A") (.named "n"))) none)
    discard <| Draft.addConstant first "n"
      (.binary .add (.named "k") (.member (.named "y") "length"))
    let enumeration ← Draft.addMember second "E" (.enumeration (some (.named "C")))
    discard <| Draft.addMember enumeration "k" (.enumerator (some (.named "n")))
    discard <| Draft.addConstant second "k" (.member (.named "E") "k")
    discard <| Draft.addMember first "C" (.aggregate .classType false [.named "D"])
    discard <| Draft.addMember second "D" (.aggregate .classType false [.named "C", .named "A"])
  .ofTree (drafting.run {}).2.tree

/-- A state inside the first alias of the entangled program. -/
def State.entangled : State :=
  { State.start ⟨0⟩ none with guard := { resolving := [⟨4⟩], counts := [(⟨4⟩, 1)] } }

/-- Names and types of the entangled program are resolved, also from inside an alias. -/
theorem entangled_resolution_terminates :
    Program.entangled.tree.isElementary ∧
      (∀ entry ∈ State.entangled.guard.counts, 0 < entry.2) ∧
      (∀ (scan : Scan) (id : NodeId) (steps : Nat),
        Program.entangled.tree.nodes.size < steps →
          scan.module .entangled steps id =
            scan.module .entangled (Program.entangled.tree.nodes.size + 1) id) ∧
        (∀ name,
          Engine.Terminates .entangled .standard (Program.entangled.tree.nestingBound 0)
            (Operation.resolveIdentifier name).query .entangled) ∧
        ∀ type,
          Engine.Terminates .entangled .standard
            (Program.entangled.tree.nestingBound (Question.type type).weight)
            (Operation.resolveType type).query .entangled := by
  have isElementary : Program.entangled.tree.isElementary := by decide +kernel
  have isPositive : ∀ entry ∈ State.entangled.guard.counts, 0 < entry.2 := by decide
  exact ⟨isElementary, isPositive, elementary_resolution_terminates _ isElementary _ _ isPositive⟩

end DScope
