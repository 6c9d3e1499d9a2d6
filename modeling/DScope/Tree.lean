import DScope.Tree.Statement

namespace DScope

/-!
# The declaration tree

All declarations and statements of a program, each in the order in which they
were added. A parent is always added before its children, so every walk upward
goes to smaller places and ends at a root.
-/

structure Tree where
  nodes : Array Node := #[]
  statements : Array Statement := #[]

namespace Tree

def node? (tree : Tree) (id : NodeId) : Option Node :=
  tree.nodes[id.index]?

def statement? (tree : Tree) (id : StatementId) : Option Statement :=
  tree.statements[id.index]?

/-- The places of all declarations, in order. -/
def nodeIds (tree : Tree) : List NodeId :=
  (List.range tree.nodes.size).map NodeId.mk

/-- The name of the declaration at a place; empty when there is none. -/
def nameOf (tree : Tree) (id : NodeId) : String :=
  ((tree.node? id).map (·.name)).getD ""

def parent? (tree : Tree) (id : NodeId) : Option NodeId :=
  (tree.node? id).bind (·.parent)

def parameterKind? (tree : Tree) (id : NodeId) : Option ParameterKind :=
  (tree.node? id).bind (·.parameterKind?)

/-- At most `steps` declarations upward from a place, itself included. -/
def climb (tree : Tree) : Nat → NodeId → List NodeId
  | 0, _ => []
  | steps + 1, id =>
    id ::
      match tree.parent? id with
      | some parent => tree.climb steps parent
      | none => []

/-- The declaration at a place followed by its ancestors up to the root. -/
def lineage (tree : Tree) (id : NodeId) : List NodeId :=
  tree.climb (id.index + 1) id

/-- Whether the first declaration is the second one or encloses it. -/
def encloses (tree : Tree) (ancestor id : NodeId) : Bool :=
  (tree.lineage id).contains ancestor

/-- The root of the tree that holds the declaration. -/
def rootOf (tree : Tree) (id : NodeId) : NodeId :=
  (tree.lineage id).getLast?.getD id

/-- The innermost scope around the declaration, which may be itself. -/
def blockAround (tree : Tree) (id : NodeId) : NodeId :=
  ((tree.lineage id).find? fun ancestor =>
    ((tree.node? ancestor).map (·.isBlock)).getD false).getD id

/-- At most `steps` statements upward from a place, itself included. -/
def climbStatements (tree : Tree) : Nat → StatementId → List StatementId
  | 0, _ => []
  | steps + 1, id =>
    id ::
      match (tree.statement? id).bind (·.parent) with
      | some parent => tree.climbStatements steps parent
      | none => []

/-- The statement at a place followed by the statements around it. -/
def statementLineage (tree : Tree) (id : StatementId) : List StatementId :=
  tree.climbStatements (id.index + 1) id

/-- The statements directly inside one of the given statements. -/
def partsOf (tree : Tree) (ids : List StatementId) : List StatementId :=
  ids.flatMap fun id => ((tree.statement? id).map (·.parts)).getD []

/-- The statements of a level and of at most `depth - 1` levels below it. -/
def levels (tree : Tree) : Nat → List StatementId → List StatementId
  | 0, _ => []
  | _ + 1, [] => []
  | depth + 1, level => level ++ tree.levels depth (tree.partsOf level)

/-- The statement at a place and all statements inside it, level by level. -/
def statementsWithin (tree : Tree) (root : StatementId) : List StatementId :=
  tree.levels tree.statements.size [root]

def body? (tree : Tree) (id : NodeId) : Option StatementId :=
  match (tree.node? id).map Node.kind with
  | some (.method _ _ body) => body
  | _ => none

/-- The statement of the enclosing function body that declares the node. -/
def declaringStatement? (tree : Tree) (id : NodeId) : Option StatementId := do
  let parent ← tree.parent? id
  let body ← tree.body? parent
  (tree.statementsWithin body).find? fun statement =>
    ((tree.statement? statement).map (·.declares id)).getD false

/-- The scope in which a declaration is read: itself for scopes, else its parent. -/
def scopeOf (tree : Tree) (id : NodeId) : NodeId :=
  match tree.node? id with
  | some node => if node.isBlock then id else node.parent.getD id
  | none => id

end Tree

end DScope
