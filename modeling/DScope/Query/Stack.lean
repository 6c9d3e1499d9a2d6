import DScope.Options
import DScope.Symbol.Bindings
import DScope.Tree

namespace DScope

/-!
# Frames of a query

A query runs inside a stack of frames. Each frame gives the scope and the
statement at which names are looked up, the options it overrides, and the
bindings of template parameters that hold in it. The frame at the bottom is
never taken off.
-/

/-- Where names are looked up, and under which options and bindings. -/
structure Frame where
  scope : NodeId
  /-- The statement at which the query stands; later locals are invisible. -/
  statement : Option StatementId := none
  overrides : Overrides := {}
  bindings : Bindings := .none

namespace Frame

/-- The frame in which a declaration is read. -/
def ofDeclaration (tree : Tree) (node : NodeId) (bindings : Bindings) : Frame where
  scope := tree.scopeOf node
  statement := tree.declaringStatement? node
  bindings := bindings

end Frame

/-- The frames of a query, of which there is always at least one. -/
structure Stack where
  top : Frame
  /-- The frames below the top, the nearest first. -/
  below : List Frame := []

namespace Stack

def frames (stack : Stack) : List Frame :=
  stack.top :: stack.below

def depth (stack : Stack) : Nat :=
  stack.below.length + 1

def push (stack : Stack) (frame : Frame) : Stack :=
  ⟨frame, stack.frames⟩

/-- The top frame and the stack without it, unless it is the only one. -/
def pop? (stack : Stack) : Option (Frame × Stack) :=
  match stack.below with
  | [] => none
  | next :: rest => some (stack.top, ⟨next, rest⟩)

/-- The stack cut down to the given depth; a stack that is not deeper stays as it is. -/
def truncate (stack : Stack) (depth : Nat) : Stack :=
  match stack.frames.drop (stack.depth - depth) with
  | [] => stack
  | top :: below => ⟨top, below⟩

/-- The frame at a distance from the top. -/
def frameAt? (stack : Stack) (distance : Nat) : Option Frame :=
  stack.frames[distance]?

/-- Whether some frame has slots for template parameters. -/
def hasBindings (stack : Stack) : Bool :=
  stack.frames.any (!·.bindings.isEmpty)

/-- The binding of a parameter in the nearest frame that binds it. -/
def binding? (stack : Stack) (parameter : NodeId) : Option Binding :=
  stack.frames.findSome? fun frame =>
    (frame.bindings.get? parameter).filter (·.isBound)

/-- The frames downward for as long as each encloses the one above it. -/
def enclosing (tree : Tree) (inner : Frame) : List Frame → List Frame
  | [] => []
  | frame :: rest =>
    if tree.encloses frame.scope inner.scope then
      frame :: enclosing tree frame rest
    else
      []

/-- Adds a binding unless its parameter is bound already. -/
def addBinding (bindings : List Binding) (binding : Binding) : List Binding :=
  if bindings.any (·.parameter == binding.parameter) then bindings else bindings ++ [binding]

/-- The bindings of the top frame and of the frames that enclose it, nearest first. -/
def bindingsInHierarchy (tree : Tree) (stack : Stack) : List Binding :=
  ((stack.top :: enclosing tree stack.top stack.below).flatMap (·.bindings.filled)).foldl
    addBinding []

end Stack

end DScope
