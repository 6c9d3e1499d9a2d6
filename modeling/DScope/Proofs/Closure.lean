import DScope.Proofs.Importing

namespace DScope

/-!
# Closed trees

A tree is closed when every declaration and every statement that it names is
there. It stays closed when its new and changed entries name only what was there.
-/

/-- The declarations that the kind of a declaration names. -/
def NodeKind.nodes : NodeKind → List NodeId
  | .method _ parameters _ => parameters
  | _ => []

def NodeKind.statements : NodeKind → List StatementId
  | .method _ _ body => body.toList
  | _ => []

def StatementKind.nodes : StatementKind → List NodeId
  | .declaration nodes => nodes
  | .forEach loopVariables .. => loopVariables
  | .mixin node => [node]
  | _ => []

def StatementKind.statements : StatementKind → List StatementId
  | .block children => children
  | .conditional _ thenBranch elseBranch => thenBranch :: elseBranch.toList
  | .whileLoop _ body => [body]
  | .forEach _ _ body _ => body.toList
  | _ => []

def Node.nodes (entry : Node) : List NodeId :=
  entry.parent.toList ++ entry.children ++ entry.templateParameters ++ entry.kind.nodes

def Statement.nodes (entry : Statement) : List NodeId :=
  entry.owner :: entry.kind.nodes

def Statement.statements (entry : Statement) : List StatementId :=
  entry.parent.toList ++ entry.kind.statements

namespace Tree

variable {tree : Tree} {nodes : List NodeId} {statements : List StatementId} {id : StatementId}

/-- Whether there is a statement at a place. -/
def holdsStatement (tree : Tree) (id : StatementId) : Bool :=
  (tree.statement? id).isSome

/-- Whether the given declarations and statements are all there. -/
structure Has (tree : Tree) (nodes : List NodeId) (statements : List StatementId) : Prop where
  nodes : ∀ node ∈ nodes, tree.holds node = true
  statements : ∀ statement ∈ statements, tree.holdsStatement statement = true

/-- Whether everything that the tree names is there. -/
structure IsClosed (tree : Tree) : Prop where
  node : ∀ {id entry}, tree.node? id = some entry → tree.Has entry.nodes entry.kind.statements
  statement :
    ∀ {id entry}, tree.statement? id = some entry → tree.Has entry.nodes entry.statements

theorem isClosed_empty : IsClosed {} :=
  ⟨fun isEntry => by simp [node?] at isEntry, fun isEntry => by simp [statement?] at isEntry⟩

theorem holds_iff_lt {id : NodeId} : tree.holds id = true ↔ id.index < tree.nodes.size := by
  simp [holds, node?]

theorem holdsStatement_iff_lt :
    tree.holdsStatement id = true ↔ id.index < tree.statements.size := by
  simp [holdsStatement, statement?]

theorem has_nothing : tree.Has [] [] :=
  ⟨fun _ isNode => absurd isNode List.not_mem_nil,
    fun _ isStatement => absurd isStatement List.not_mem_nil⟩

theorem has_node {id : NodeId} (isHeld : tree.holds id = true) : tree.Has [id] [] :=
  ⟨List.forall_mem_singleton.mpr isHeld, has_nothing.statements⟩

theorem has_statement (isHeld : tree.holdsStatement id = true) : tree.Has [] [id] :=
  ⟨has_nothing.nodes, List.forall_mem_singleton.mpr isHeld⟩

theorem Has.append {others more : List NodeId} {otherStatements moreStatements : List StatementId}
    (has : tree.Has nodes statements) (hasOthers : tree.Has others otherStatements)
    (areNodes : more ⊆ nodes ++ others)
    (areStatements : moreStatements ⊆ statements ++ otherStatements) :
    tree.Has more moreStatements where
  nodes node isNode :=
    (List.mem_append.mp (areNodes isNode)).elim (has.nodes node) (hasOthers.nodes node)
  statements statement isStatement :=
    (List.mem_append.mp (areStatements isStatement)).elim (has.statements statement)
      (hasOthers.statements statement)

theorem IsClosed.of_entries
    {after : Tree} (isClosed : tree.IsClosed) (moreNodes : tree.nodes.size ≤ after.nodes.size)
    (moreStatements : tree.statements.size ≤ after.statements.size)
    (node :
      ∀ {id entry}, after.node? id = some entry →
        tree.node? id = some entry ∨ tree.Has entry.nodes entry.kind.statements)
    (statement :
      ∀ {id entry}, after.statement? id = some entry →
        tree.statement? id = some entry ∨ tree.Has entry.nodes entry.statements) :
    after.IsClosed := by
  have keeps {nodes statements} (has : tree.Has nodes statements) : after.Has nodes statements :=
    { nodes node isNode :=
        holds_iff_lt.mpr (Nat.lt_of_lt_of_le (holds_iff_lt.mp (has.nodes node isNode)) moreNodes)
      statements statement isStatement :=
        holdsStatement_iff_lt.mpr (Nat.lt_of_lt_of_le
          (holdsStatement_iff_lt.mp (has.statements statement isStatement)) moreStatements) }
  constructor
  · intro id entry isEntry
    exact keeps ((node isEntry).elim isClosed.node fun has => has)
  · intro id entry isEntry
    exact keeps ((statement isEntry).elim isClosed.statement fun has => has)

/-! ## Single changes -/

theorem node?_adjustNode (tree : Tree) (id other : NodeId) (adjust : Node → Node) :
    (tree.adjustNode id adjust).node? other =
      if id = other then (tree.node? other).map adjust else tree.node? other := by
  have sameIndex : id.index = other.index ↔ id = other := by
    cases id
    cases other
    simp
  simp [adjustNode, node?, Array.getElem?_modify, sameIndex]

theorem statement?_adjustStatement
    (tree : Tree) (id other : StatementId) (adjust : Statement → Statement) :
    (tree.adjustStatement id adjust).statement? other =
      if id = other then (tree.statement? other).map adjust else tree.statement? other := by
  have sameIndex : id.index = other.index ↔ id = other := by
    cases id
    cases other
    simp
  simp [adjustStatement, statement?, Array.getElem?_modify, sameIndex]

def addNode (tree : Tree) (node : Node) : Tree :=
  { tree with nodes := tree.nodes.push node }

theorem node?_addNode (tree : Tree) (node : Node) (id : NodeId) :
    (tree.addNode node).node? id =
      if id.index = tree.nodes.size then some node else tree.node? id :=
  Array.getElem?_push

def addStatement (tree : Tree) (statement : Statement) : Tree :=
  { tree with statements := tree.statements.push statement }

theorem statement?_addStatement (tree : Tree) (statement : Statement) (id : StatementId) :
    (tree.addStatement statement).statement? id =
      if id.index = tree.statements.size then some statement else tree.statement? id :=
  Array.getElem?_push

namespace IsClosed

theorem adjustNode {id : NodeId} {adjust : Node → Node} (isClosed : tree.IsClosed)
    (has :
      ∀ entry, tree.node? id = some entry →
        tree.Has (adjust entry).nodes (adjust entry).kind.statements) :
    (tree.adjustNode id adjust).IsClosed := by
  refine isClosed.of_entries (Nat.le_of_eq Array.size_modify.symm) (Nat.le_refl _) ?_ .inl
  intro other entry isEntry
  rw [node?_adjustNode] at isEntry
  split at isEntry
  next isSame =>
    subst isSame
    obtain ⟨old, isOld, rfl⟩ := Option.map_eq_some_iff.mp isEntry
    exact .inr (has old isOld)
  next => exact .inl isEntry

theorem adjustStatement {adjust : Statement → Statement} (isClosed : tree.IsClosed)
    (has :
      ∀ entry, tree.statement? id = some entry →
        tree.Has (adjust entry).nodes (adjust entry).statements) :
    (tree.adjustStatement id adjust).IsClosed := by
  refine isClosed.of_entries (Nat.le_refl _) (Nat.le_of_eq Array.size_modify.symm) .inl ?_
  intro other entry isEntry
  rw [statement?_adjustStatement] at isEntry
  split at isEntry
  next isSame =>
    subst isSame
    obtain ⟨old, isOld, rfl⟩ := Option.map_eq_some_iff.mp isEntry
    exact .inr (has old isOld)
  next => exact .inl isEntry

theorem addNode
    {entry : Node} (isClosed : tree.IsClosed) (has : tree.Has entry.nodes entry.kind.statements) :
    (tree.addNode entry).IsClosed := by
  have isLarger : tree.nodes.size ≤ (tree.nodes.push entry).size := by simp
  refine isClosed.of_entries isLarger (Nat.le_refl _) ?_ .inl
  intro id found isFound
  rw [node?_addNode] at isFound
  split at isFound
  · cases isFound
    exact .inr has
  · exact .inl isFound

theorem addStatement
    {entry : Statement} (isClosed : tree.IsClosed) (has : tree.Has entry.nodes entry.statements) :
    (tree.addStatement entry).IsClosed := by
  have isLarger : tree.statements.size ≤ (tree.statements.push entry).size := by simp
  refine isClosed.of_entries (Nat.le_refl _) isLarger .inl ?_
  intro id found isFound
  rw [statement?_addStatement] at isFound
  split at isFound
  · cases isFound
    exact .inr has
  · exact .inl isFound

end IsClosed

end Tree

end DScope
