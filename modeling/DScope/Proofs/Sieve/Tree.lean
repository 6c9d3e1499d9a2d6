import DScope.Proofs.Sieve.Symbols

namespace DScope

/-!
# Reading the tree at places that pass a sieve

Two trees that agree at the places that pass a sieve cannot be told apart from
such places: whatever is read there is the same in both, and names only places
that pass again.
-/

open List

namespace Sieve

/-- Whether an entry of the tree names only places that pass the sieve. -/
structure PassesEntry (sieve : Sieve) (entry : Node) : Prop where
  parent : sieve.Passes entry.parent
  children : sieve.Passes entry.children
  templateParameters : sieve.Passes entry.templateParameters
  parameters : sieve.Passes entry.parameters
  body : ∀ {result parameters body}, entry.kind = .method result parameters (some body) →
    sieve.statement body

/-- Whether a statement names only places that pass the sieve. -/
structure PassesStatement (sieve : Sieve) (entry : Statement) : Prop where
  parent : ∀ {parent}, entry.parent = some parent → sieve.statement parent
  parts : ∀ part ∈ entry.parts, sieve.statement part
  declares : ∀ {node}, entry.declares node = true → sieve.node node

/--
Two trees that agree at the places that pass a sieve.

What is held at such a place names only places that pass, and both trees are
either of the same size or at least as large as there are declarations that pass.
-/
structure Covers (sieve : Sieve) (narrow wide : Tree) : Prop where
  node? : ∀ {id}, sieve.node id → wide.node? id = narrow.node? id
  statement? : ∀ {id}, sieve.statement id → wide.statement? id = narrow.statement? id
  entry : ∀ {id entry}, sieve.node id → narrow.node? id = some entry → sieve.PassesEntry entry
  statement :
    ∀ {id entry}, sieve.statement id → narrow.statement? id = some entry →
      sieve.PassesStatement entry
  missingNode : ∀ {id}, sieve.node id → narrow.node? id = none → sieve.hasGaps
  missingStatement : ∀ {id}, sieve.statement id → narrow.statement? id = none → sieve.hasGaps
  findSome? :
    ∀ {α : Type} {body : StatementId} (test : StatementId → Option α), sieve.statement body →
      (wide.statementsWithin body).findSome? test = (narrow.statementsWithin body).findSome? test

/-- A tree agrees with itself at all places when all of them pass. -/
theorem covers_self {sieve : Sieve} (nodes : ∀ id, sieve.node id)
    (statements : ∀ id, sieve.statement id) (gaps : sieve.hasGaps) (tree : Tree) :
    sieve.Covers tree tree := by
  have passes (places : List NodeId) : sieve.Passes places :=
    passes_list.mpr fun id _ => passes_node.mpr (nodes id)
  exact
    { node? := fun _ => rfl
      statement? := fun _ => rfl
      entry := fun _ _ =>
        ⟨passes_option.mpr fun id _ => passes_node.mpr (nodes id), passes _, passes _, passes _,
          fun _ => statements _⟩
      statement := fun _ _ => ⟨fun _ => statements _, fun _ _ => statements _, fun _ => nodes _⟩
      missingNode := fun _ _ => gaps
      missingStatement := fun _ _ => gaps
      findSome? := fun _ _ => rfl }

theorem findSome?_congr {α β : Type} {items : List α} {test other : α → Option β}
    (agree : ∀ item ∈ items, test item = other item) :
    items.findSome? test = items.findSome? other := by
  induction items with
  | nil => rfl
  | cons item rest ih =>
    rw [findSome?_cons, findSome?_cons, agree item mem_cons_self, ih (forall_mem_cons.mp agree).2]

namespace Covers

variable {sieve : Sieve} {narrow wide : Tree} {id : NodeId}

/-! ## Declarations -/

variable (covers : sieve.Covers narrow wide)
include covers

section

variable (isNode : sieve.node id)
include isNode

theorem nameOf : wide.nameOf id = narrow.nameOf id := by
  rw [Tree.nameOf, Tree.nameOf, covers.node? isNode]

theorem parent? : wide.parent? id = narrow.parent? id := by
  rw [Tree.parent?, Tree.parent?, covers.node? isNode]

theorem passes_parent? : sieve.Passes (narrow.parent? id) := by
  cases isParent : narrow.parent? id with
  | none => exact passes_none
  | some parent =>
    obtain ⟨entry, isEntry, isParent⟩ := Option.bind_eq_some_iff.mp isParent
    exact isParent ▸ (covers.entry isNode isEntry).parent

theorem parameterKind? : wide.parameterKind? id = narrow.parameterKind? id := by
  rw [Tree.parameterKind?, Tree.parameterKind?, covers.node? isNode]

theorem climb (steps : Nat) :
    wide.climb steps id = narrow.climb steps id ∧ sieve.Passes (narrow.climb steps id) := by
  induction steps generalizing id with
  | zero => exact ⟨rfl, passes_nil⟩
  | succ steps ih =>
    unfold Tree.climb
    rw [covers.parent? isNode]
    cases isParent : narrow.parent? id with
    | none => exact ⟨rfl, passes_cons.mpr ⟨passes_node.mpr isNode, passes_nil⟩⟩
    | some parent =>
      have isAbove : sieve.node parent := by
        simpa [isParent] using covers.passes_parent? isNode
      obtain ⟨same, passes⟩ := ih isAbove
      exact ⟨congrArg (id :: ·) same, passes_cons.mpr ⟨passes_node.mpr isNode, passes⟩⟩

theorem lineage : wide.lineage id = narrow.lineage id :=
  (covers.climb isNode _).1

theorem passes_lineage : sieve.Passes (narrow.lineage id) :=
  (covers.climb isNode _).2

theorem encloses (ancestor : NodeId) : wide.encloses ancestor id = narrow.encloses ancestor id := by
  rw [Tree.encloses, Tree.encloses, covers.lineage isNode]

theorem rootOf : wide.rootOf id = narrow.rootOf id := by
  rw [Tree.rootOf, Tree.rootOf, covers.lineage isNode]

theorem passes_rootOf : sieve.node (narrow.rootOf id) := by
  unfold Tree.rootOf
  cases isLast : (narrow.lineage id).getLast? with
  | none => exact isNode
  | some root =>
    exact passes_node.mp ((covers.passes_lineage isNode).mem (mem_of_getLast? isLast))

end

/-! ## Statements -/

variable {statement : StatementId}

theorem climbStatements (isStatement : sieve.statement statement) (steps : Nat) :
    wide.climbStatements steps statement = narrow.climbStatements steps statement ∧
      ∀ outer ∈ narrow.climbStatements steps statement, sieve.statement outer := by
  induction steps generalizing statement with
  | zero => exact ⟨rfl, fun _ member => absurd member not_mem_nil⟩
  | succ steps ih =>
    unfold Tree.climbStatements
    rw [covers.statement? isStatement]
    cases isParent : (narrow.statement? statement).bind (·.parent) with
    | none => exact ⟨rfl, by simpa using isStatement⟩
    | some parent =>
      obtain ⟨entry, isEntry, isParent⟩ := Option.bind_eq_some_iff.mp isParent
      have isAbove := (covers.statement isStatement isEntry).parent isParent
      obtain ⟨same, passes⟩ := ih isAbove
      exact ⟨congrArg (statement :: ·) same, forall_mem_cons.mpr ⟨isStatement, passes⟩⟩

theorem statementLineage (isStatement : sieve.statement statement) :
    wide.statementLineage statement = narrow.statementLineage statement :=
  (covers.climbStatements isStatement _).1

theorem passes_statementLineage (isStatement : sieve.statement statement) :
    ∀ outer ∈ narrow.statementLineage statement, sieve.statement outer :=
  (covers.climbStatements isStatement _).2

theorem passes_levels
    (depth : Nat) {level : List StatementId} (passes : ∀ part ∈ level, sieve.statement part) :
    ∀ part ∈ narrow.levels depth level, sieve.statement part := by
  induction depth generalizing level with
  | zero => exact fun _ member => absurd member not_mem_nil
  | succ depth ih =>
    cases level with
    | nil => exact fun _ member => absurd member not_mem_nil
    | cons first rest =>
      refine forall_mem_append.mpr ⟨passes, ih ?_⟩
      intro part isPart
      obtain ⟨outer, isOuter, isInner⟩ := mem_flatMap.mp isPart
      cases isEntry : narrow.statement? outer with
      | none => simp [isEntry] at isInner
      | some entry =>
        refine (covers.statement (passes outer isOuter) isEntry).parts part ?_
        simpa [isEntry] using isInner

theorem passes_statementsWithin (isStatement : sieve.statement statement) :
    ∀ part ∈ narrow.statementsWithin statement, sieve.statement part :=
  covers.passes_levels _ (by simpa using isStatement)

theorem findSome?_within
    {α : Type} (isStatement : sieve.statement statement) {test other : StatementId → Option α}
    (agree : ∀ part, sieve.statement part → other part = test part) :
    (wide.statementsWithin statement).findSome? other =
      (narrow.statementsWithin statement).findSome? test := by
  rw [covers.findSome? other isStatement]
  exact findSome?_congr fun part isPart =>
    agree part (covers.passes_statementsWithin isStatement part isPart)

section

variable (isNode : sieve.node id)
include isNode

theorem body? : wide.body? id = narrow.body? id := by
  rw [Tree.body?, Tree.body?, covers.node? isNode]

theorem passes_body? (isBody : narrow.body? id = some statement) : sieve.statement statement := by
  unfold Tree.body? at isBody
  split at isBody
  next isMethod =>
    obtain ⟨entry, isEntry, isKind⟩ := Option.map_eq_some_iff.mp isMethod
    subst isBody
    exact (covers.entry isNode isEntry).body isKind
  next => cases isBody

theorem declaringStatement? : wide.declaringStatement? id = narrow.declaringStatement? id := by
  unfold Tree.declaringStatement?
  rw [covers.parent? isNode]
  cases isParent : narrow.parent? id with
  | none => rfl
  | some parent =>
    have isAbove : sieve.node parent := by
      simpa [isParent] using covers.passes_parent? isNode
    dsimp only [Option.bind_eq_bind, Option.bind_some]
    rw [covers.body? isAbove]
    cases isBody : narrow.body? parent with
    | none => rfl
    | some body =>
      dsimp only [Option.bind_some]
      rw [find?_eq_findSome?_guard, find?_eq_findSome?_guard]
      apply covers.findSome?_within (covers.passes_body? isAbove isBody)
      intro part isPart
      simp only [Option.guard, covers.statement? isPart]

theorem passes_declaringStatement? (isDeclared : narrow.declaringStatement? id = some statement) :
    sieve.statement statement := by
  obtain ⟨parent, isParent, isDeclared⟩ := Option.bind_eq_some_iff.mp isDeclared
  obtain ⟨body, isBody, isFound⟩ := Option.bind_eq_some_iff.mp isDeclared
  have isAbove : sieve.node parent := by
    simpa [isParent] using covers.passes_parent? isNode
  exact covers.passes_statementsWithin (covers.passes_body? isAbove isBody) statement
    (mem_of_find?_eq_some isFound)

theorem scopeOf : wide.scopeOf id = narrow.scopeOf id := by
  rw [Tree.scopeOf, Tree.scopeOf, covers.node? isNode]

theorem passes_scopeOf : sieve.node (narrow.scopeOf id) := by
  unfold Tree.scopeOf
  split
  next entry isEntry =>
    split
    · exact isNode
    · have isParent := (covers.entry isNode isEntry).parent
      exact passes_node.mp (isParent.getD (passes_node.mpr isNode))
  next => exact isNode

end

theorem firstReturned? (isStatement : sieve.statement statement) :
    ReturnType.firstReturned? wide statement = ReturnType.firstReturned? narrow statement := by
  apply covers.findSome?_within isStatement
  intro part isPart
  rw [covers.statement? isPart]

theorem passes_firstReturned?
    (isStatement : sieve.statement statement) {returning : StatementId} {value : Expr}
    (isReturned : ReturnType.firstReturned? narrow statement = some (returning, value)) :
    sieve.statement returning := by
  obtain ⟨part, isPart, isFound⟩ := exists_of_findSome?_eq_some isReturned
  obtain ⟨entry, -, isFound⟩ := Option.bind_eq_some_iff.mp isFound
  split at isFound
  · split at isFound
    · cases isFound
    · cases isFound
      exact covers.passes_statementsWithin isStatement _ isPart
  · cases isFound

end Covers

end Sieve

end DScope
