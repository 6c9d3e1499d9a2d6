import DScope.Engine

namespace DScope

/-!
# Orderly queries

The rules of the library look at the state of a query and change it only by a
few moves: they open a frame and close it again, mark a declaration while they
resolve it, enter a declaration and leave it, ask a question, go through the
evaluator, consult the memo or put a diagnostic into the log. This module lists
the moves, so that a fact about all rules is proved once for each move.
-/

variable {standing : Standing}

/-- What the rules can see of the state. -/
structure View where
  scope : NodeId
  statement : Option StatementId
  options : Options
  guard : Guard
  isCancelled : Bool
  binding? : NodeId → Option Binding
  bindingsInHierarchy : Tree → List Binding

/-- What the rules can see of a state. -/
def State.view (state : State) : View where
  scope := state.stack.top.scope
  statement := state.stack.top.statement
  options := state.options
  guard := state.guard
  isCancelled := state.isCancelled
  binding? := state.stack.binding?
  bindingsInHierarchy tree := state.stack.bindingsInHierarchy tree

/-- Where a query stands when it makes a move. -/
inductive Standing where
  /-- In a frame to which the query has added no overrides. -/
  | plain
  /-- In a frame with overrides that the query has added. -/
  | overridden
  /-- In the middle of resolving or evaluating a declaration. -/
  | inside
deriving DecidableEq

namespace Standing

def opened : Standing → Standing
  | inside => inside
  | _ => plain

def underOverrides : Standing → Standing
  | inside => inside
  | _ => overridden

/--
Whether a question may be asked in a standing.

Under overrides of the query's own only declarations are asked for: the answers
to all other questions may be remembered.
-/
def permits : Standing → Question → Prop
  | overridden, .symbol .. => True
  | overridden, _ => False
  | _, _ => True

end Standing

/-- Whether the return type of a function is read at a statement. -/
def Tree.ReturnsAt (tree : Tree) (method : NodeId) (statement : StatementId) : Prop :=
  ∃ body value,
    tree.body? method = some body ∧
      ReturnType.firstReturned? tree body = some (statement, value)

/--
Whether a query may open a frame from a standing.

Unless a declaration is being resolved, the frame stands at no statement or at
the statement from which the return type of its function is read.
-/
structure Frame.OpensFrom (tree : Tree) (standing : Standing) (frame : Frame) : Prop where
  overrides : frame.overrides = {}
  statement :
    standing = .inside ∨
      ∀ statement, frame.statement = some statement →
        tree.ReturnsAt frame.scope statement

/-- Whether a query can return a value, however its questions are answered. -/
def Query.MayReturn {α : Type} (program : Program) (query : Query α) (value : α) : Prop :=
  ∃ environment state final,
    environment.program = program ∧ query environment state = .ok (value, final)

/-- Whether a diagnostic blames an argument of a template. -/
def Diagnostic.isDeduction : Diagnostic → Bool
  | deduction .. => true
  | _ => false

/--
The queries that keep to the moves.

A query asks no other questions than those listed in `asks`, and inside a
declaration that it has entered for the `depth`-th time no other questions than
those in `within depth`. It puts a diagnostic that blames an argument of a template
into the log only if it `blames`.
-/
inductive Moves (program : Program) (within : Nat → Question → Prop) (blames : Prop) :
    {α : Type} → Standing → (Question → Prop) → Query α → Prop
  | pure {α : Type} {standing : Standing} {asks : Question → Prop} (value : α) :
      Moves program within blames standing asks (Pure.pure value)
  | bindReturned {α β : Type} {standing : Standing} {asks : Question → Prop}
      {first : Query α} {next : α → Query β}
      (before : Moves program within blames standing asks first)
      (after :
        ∀ value, first.MayReturn program value → Moves program within blames standing asks (next value)) :
      Moves program within blames standing asks (first >>= next)
  | halt {α : Type} {standing : Standing} {asks : Question → Prop} {reason : Halt}
      (isOwn : reason ≠ .depthExceeded) :
      Moves program within blames standing asks (throw reason : Query α)
  | reading {α : Type} {standing : Standing} {asks : Question → Prop}
      {next : Program → Query α}
      (after : Moves program within blames standing asks (next program)) :
      Moves program within blames standing asks (Query.program >>= next)
  | asking {standing : Standing} {asks : Question → Prop} {question : Question}
      (isListed : asks question)
      (isPermitted : standing.permits question) :
      Moves program within blames standing asks (Query.ask question)
  | seeing {α : Type} {standing : Standing} {asks : Question → Prop}
      {next : State → Query α}
      (seesView : ∀ first second, State.view first = State.view second → next first = next second)
      (after : ∀ state, Moves program within blames standing asks (next state)) :
      Moves program within blames standing asks (get >>= next)
  | reporting {standing : Standing} {asks : Question → Prop} (diagnostic : Diagnostic)
      (isOwn : diagnostic.isDeduction = true → blames) :
      Moves program within blames standing asks (Query.report diagnostic)
  | framed {α : Type} {standing : Standing} {asks : Question → Prop}
      {frame : Frame} {body : Query α}
      (opens : frame.OpensFrom program.tree standing)
      (inner : Moves program within blames standing.opened asks body) :
      Moves program within blames standing asks (Query.withFrame frame body)
  | overriding {α : Type} {standing : Standing} {asks : Question → Prop}
      {overrides : Overrides} {body : Query α}
      (inner : Moves program within blames standing.underOverrides asks body) :
      Moves program within blames standing asks (Query.withOverrides overrides body)
  | resolving {α : Type} {standing : Standing} {asks : Question → Prop}
      {node : NodeId} {body : Query α}
      (inner : Moves program within blames .inside asks body) :
      Moves program within blames standing asks (Query.whileResolving node body)
  | visiting {α : Type} {standing : Standing} {asks : Question → Prop}
      {node : NodeId} {body : Nat → Query α}
      (isDeclared : (program.tree.node? node).isSome)
      (inner : ∀ depth, Moves program within blames .inside (within depth) (body depth)) :
      Moves program within blames standing asks (Query.visiting node body)
  | evaluating {α : Type} {standing : Standing} {asks : Question → Prop}
      {fallback : α} {evaluation : Query α}
      (inner : Moves program within blames standing asks evaluation) :
      Moves program within blames standing asks (Query.throughEvaluator fallback evaluation)
  | remembering {standing : Standing} {asks : Question → Prop} {name : String}
      (isPlain : standing ≠ .overridden)
      (inner : Moves program within blames standing asks (Resolution.searchName name)) :
      Moves program within blames standing asks (Resolution.ofName name)

/-- The queries that keep to the moves and may blame arguments. -/
abbrev Orderly (program : Program) (within : Nat → Question → Prop) {α : Type} :
    Standing → (Question → Prop) → Query α → Prop :=
  Moves program within True

namespace Standing

theorem permits_of_ne_overridden (isPlain : standing ≠ .overridden) (question : Question) :
    standing.permits question := by
  cases standing with
  | plain => trivial
  | overridden => exact absurd rfl isPlain
  | inside => trivial

theorem permits_symbol (standing : Standing) (node : NodeId) (bindings : Bindings) :
    standing.permits (.symbol node bindings) := by
  cases standing <;> trivial

theorem opened_ne_overridden (standing : Standing) : standing.opened ≠ .overridden := by
  cases standing <;> simp [opened]

end Standing

namespace Orderly

theorem bind {program : Program} {within : Nat → Question → Prop} {asks : Question → Prop}
    {α β : Type} {first : Query α} {next : α → Query β}
    (before : Orderly program within standing asks first)
    (after : ∀ value, Orderly program within standing asks (next value)) :
    Orderly program within standing asks (first >>= next) :=
  .bindReturned before fun value _ => after value

end Orderly

end DScope
