import DScope.Tree.Node

namespace DScope

/-!
# Statements

The statements of function bodies. A statement names its parent statement and
the function whose body it belongs to.
-/

/-- What a loop runs over. -/
inductive LoopSource where
  | collection (collection : Expr)
  | range (lower upper : Expr)

/-- What a statement does. -/
inductive StatementKind where
  | block (children : List StatementId)
  /-- Local declarations; the declared nodes belong to the function. -/
  | declaration (nodes : List NodeId)
  | expression (expression : Expr)
  | returning (value : Option Expr)
  | conditional (condition : Expr) (thenBranch : StatementId) (elseBranch : Option StatementId)
  | whileLoop (condition : Expr) (body : StatementId)
  | forEach (loopVariables : List NodeId) (source : LoopSource) (body : Option StatementId)
      (isReverse : Bool)
  | mixin (node : NodeId)

/-- A statement and its place in a function body. -/
structure Statement where
  kind : StatementKind
  parent : Option StatementId
  owner : NodeId
  span : Span

namespace Statement

/-- The statements directly inside the statement, in source order. -/
def parts (statement : Statement) : List StatementId :=
  match statement.kind with
  | .block children => children
  | .conditional _ thenBranch elseBranch => thenBranch :: elseBranch.toList
  | .whileLoop _ body => [body]
  | .forEach _ _ body _ => body.toList
  | .declaration _ | .expression _ | .returning _ | .mixin _ => []

def declares (statement : Statement) (node : NodeId) : Bool :=
  match statement.kind with
  | .declaration nodes => nodes.contains node
  | .forEach loopVariables .. => loopVariables.contains node
  | .mixin declared => declared == node
  | _ => false

end Statement

end DScope
