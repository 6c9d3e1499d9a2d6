import DScope.Table
import DScope.Tree.Node

namespace DScope

/-!
# The recursion guard

A query marks the declarations that it is in the middle of resolving and counts
how often each declaration has been entered and not yet left. Cycles between
declarations are cut where a mark is met again or a count grows too large.
-/

/-- The declarations that a query is in the middle of. -/
structure Guard where
  resolving : List NodeId := []
  /-- How often each declaration has been entered and not left. -/
  counts : List (NodeId × Nat) := []
deriving Repr, DecidableEq

namespace Guard

/-- The depth above which a declaration loses its base type. -/
def baseLimit : Nat := 4

/-- The depth above which a constant is taken to depend on itself. -/
def evaluationLimit : Nat := 32

def isResolving (guard : Guard) (node : NodeId) : Bool :=
  guard.resolving.contains node

/-- Marks a declaration as being resolved, unless it is marked already. -/
def mark (guard : Guard) (node : NodeId) : Guard :=
  if guard.isResolving node then guard else { guard with resolving := node :: guard.resolving }

def unmark (guard : Guard) (node : NodeId) : Guard :=
  { guard with resolving := guard.resolving.erase node }

/-- How often a declaration has been entered and not left. -/
def depth (guard : Guard) (node : NodeId) : Nat :=
  (Table.find? node guard.counts).getD 0

def enter (guard : Guard) (node : NodeId) : Guard :=
  { guard with counts := Table.put node (guard.depth node + 1) guard.counts }

def leave (guard : Guard) (node : NodeId) : Guard :=
  match Table.find? node guard.counts with
  | none => guard
  | some depth =>
    if depth ≤ 1 then
      { guard with counts := Table.erase node guard.counts }
    else
      { guard with counts := Table.put node (depth - 1) guard.counts }

def isIdle (guard : Guard) : Bool :=
  guard.resolving.isEmpty && guard.counts.isEmpty

end Guard

end DScope
