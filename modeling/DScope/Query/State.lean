import DScope.Diagnostic
import DScope.Query.Guard
import DScope.Query.Stack

namespace DScope

/-!
# The state of a query

Besides its frames and its guard a query keeps the default options, the log of
diagnostics, a memo of names it has resolved, and whether it was cancelled.
-/

/-- Where a name was resolved: at a statement, or in a scope outside statements. -/
inductive Anchor where
  | statement (statement : StatementId)
  | scope (node : NodeId)
deriving Repr, DecidableEq

/-- What a memo entry is kept under. -/
structure MemoKey where
  anchor : Anchor
  options : Options
  name : String
deriving Repr, DecidableEq

/-- The state that a query carries along. -/
structure State where
  stack : Stack
  defaults : Options := {}
  log : List Diagnostic := []
  memo : List (MemoKey × List Symbol) := []
  guard : Guard := {}
  isCancelled : Bool := false
  /-- How many evaluations were asked for, where they are counted. -/
  evaluations : Nat := 0

namespace State

/-- The state of a fresh query in a scope, possibly at a statement. -/
def start (scope : NodeId) (statement : Option StatementId) : State where
  stack := ⟨{ scope, statement }, []⟩

def push (state : State) (frame : Frame) : State :=
  { state with stack := state.stack.push frame }

def pop? (state : State) : Option (Frame × State) :=
  state.stack.pop?.map fun (frame, stack) => (frame, { state with stack })

def truncate (state : State) (depth : Nat) : State :=
  { state with stack := state.stack.truncate depth }

/-- The frame at the same place as the top one with further overrides and nothing bound. -/
def overridden (state : State) (overrides : Overrides) : Frame where
  scope := state.stack.top.scope
  statement := state.stack.top.statement
  overrides := state.stack.top.overrides.followedBy overrides

def options (state : State) : Options :=
  state.stack.top.overrides.apply state.defaults

/-- The position of the statement at which the query stands. -/
def caret? (state : State) (tree : Tree) : Option Position := do
  let statement ← state.stack.top.statement
  let entry ← tree.statement? statement
  return entry.span.start

/-- The key for a name, if results may be kept: nothing is in flight and nothing is bound. -/
def memoKey? (state : State) (name : String) : Option MemoKey :=
  if !state.guard.isIdle || state.stack.hasBindings then
    none
  else
    let anchor := match state.stack.top.statement with
      | some statement => .statement statement
      | none => .scope state.stack.top.scope
    some ⟨anchor, state.options, name⟩

def remembered? (state : State) (name : String) : Option (List Symbol) :=
  (state.memoKey? name).bind fun key => Table.find? key state.memo

/-- Remembers the symbols of a name, if results may be kept. -/
def remember (state : State) (name : String) (symbols : List Symbol) : State :=
  match state.memoKey? name with
  | some key => { state with memo := Table.put key symbols state.memo }
  | none => state

def report (state : State) (diagnostic : Diagnostic) : State :=
  { state with log := state.log ++ [diagnostic] }

/-- Whether there is exactly one result; otherwise the reason is logged. -/
def checkSingle (state : State) (results : List Symbol) (subject : String)
    (origin : Option NodeId) : Bool × State :=
  match results with
  | [_] => (true, state)
  | [] => (false, state.report (.nothingFound subject origin none))
  | _ => (false, state.report (.ambiguity subject origin results))

end State

end DScope
