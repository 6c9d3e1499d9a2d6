import DScope.Program
import DScope.Query.State

namespace DScope

/-!
# Queries

A query reads a program and carries a state. Names, types, declarations and
expressions depend on each other in circles, so a query does not call the rules
for them directly: it asks a question, and whoever runs the query answers it.
A run ends early when an integer overflows, when a place outside the tree or a
parameter outside its list is read, or when questions are nested more deeply than
the run allows.
-/

/-- Why a run ended early. -/
inductive Halt where
  | negationOverflow
  | additionOverflow
  | missingNode
  | missingStatement
  | missingParameter
  | depthExceeded
deriving Repr, DecidableEq

namespace Halt

def message : Halt → String
  | negationOverflow => "attempt to negate with overflow"
  | additionOverflow => "attempt to add with overflow"
  | missingNode => "declaration outside the tree"
  | missingStatement => "statement outside the tree"
  | missingParameter => "parameter outside the list"
  | depthExceeded => "questions nested too deeply"

end Halt

/-- How expressions are evaluated on behalf of a query. -/
inductive Evaluator where
  | standard
  /-- Nothing is constant and nothing has a type. -/
  | absent
  /-- As the standard one, but the query is cancelled at the evaluation with this number. -/
  | cancelling (number : Nat)
deriving Repr, DecidableEq

/-- What a query may ask. -/
inductive Question where
  /-- Which symbols does a written type stand for? -/
  | type (type : TypeExpr)
  /-- Which symbol does a declaration stand for under the given bindings? -/
  | symbol (node : NodeId) (bindings : Bindings)
  /-- What is the constant value of an expression? -/
  | value (expression : Expr)
  /-- What is the type of an expression? -/
  | typing (expression : Expr)

/-- The type of the answer to a question. -/
def Question.Answer : Question → Type
  | .type _ => List Symbol
  | .symbol .. => Option Symbol
  | .value _ => Except EvalError Value
  | .typing _ => Option Symbol

/-- A computation on the state of a query that may end early. -/
abbrev Attempt := StateT State (Except Halt)

/-- What a query reads: the program, the evaluator, and the answers to questions. -/
structure Environment where
  program : Program
  evaluator : Evaluator
  answer : (question : Question) → Attempt question.Answer

/-- A query over a program. -/
abbrev Query := ReaderT Environment Attempt

namespace Query

def ask (question : Question) : Query question.Answer :=
  fun environment => environment.answer question

def resolve (type : TypeExpr) : Query (List Symbol) :=
  ask (.type type)

/-- The symbol that a written type stands for, several candidates taken together. -/
def resolveOne (type : TypeExpr) : Query (Option Symbol) := do
  return Symbol.ofCandidates? (← resolve type)

def symbolOf (node : NodeId) (bindings : Bindings) : Query (Option Symbol) :=
  ask (.symbol node bindings)

/-- The symbol of a declaration reached through an instance, whose bindings hold for it. -/
def symbolThrough (node : NodeId) (via : Option Symbol) : Query (Option Symbol) :=
  symbolOf node ((via.map Symbol.bindings).getD .none)

def valueOf (expression : Expr) : Query (Except EvalError Value) :=
  ask (.value expression)

def typingOf (expression : Expr) : Query (Option Symbol) :=
  ask (.typing expression)

def program : Query Program := do
  return (← read).program

def tree : Query Tree := do
  return (← read).program.tree

def node (id : NodeId) : Query Node := do
  match (← tree).node? id with
  | some node => return node
  | none => throw .missingNode

def statement (id : StatementId) : Query Statement := do
  match (← tree).statement? id with
  | some statement => return statement
  | none => throw .missingStatement

def isCancelled : Query Bool := do
  return (← get).isCancelled

def options : Query Options := do
  return (← get).options

def scope : Query NodeId := do
  return (← get).stack.top.scope

def report (diagnostic : Diagnostic) : Query Unit :=
  modify (·.report diagnostic)

/-- Whether failures are reported: nothing is in flight and the query is not cancelled. -/
def reportsFailures : Query Bool := do
  let state ← get
  return state.guard.isIdle && !state.isCancelled

/-- Reports that nothing was found, unless something else is in flight. -/
def reportMissing (subject : String) : Query Unit := do
  if ← reportsFailures then
    report (.nothingFound subject none none)

/-- Runs a query in one more frame, unless it was cancelled. -/
def withFrame {α : Type} (frame : Frame) (body : Query α) : Query (Option α) := do
  if ← isCancelled then
    return none
  let depth := (← get).stack.depth
  modify (·.push frame)
  let result ← body
  modify (·.truncate depth)
  return some result

/-- Runs a query in the same scope with further overrides. -/
def withOverrides {α : Type} (overrides : Overrides) (body : Query α) : Query (Option α) := do
  withFrame ((← get).overridden overrides) body

/-- Runs a query while a declaration is marked, unless it is marked already. -/
def whileResolving {α : Type} (node : NodeId) (body : Query α) : Query (Option α) := do
  if (← get).guard.isResolving node then
    return none
  modify fun state => { state with guard := state.guard.mark node }
  let result ← body
  modify fun state => { state with guard := state.guard.unmark node }
  return some result

/-- Runs a query inside a declaration, given how often it has been entered by now. -/
def visiting {α : Type} (node : NodeId) (body : Nat → Query α) : Query α := do
  modify fun state => { state with guard := state.guard.enter node }
  let depth := (← get).guard.depth node
  let result ← body depth
  modify fun state => { state with guard := state.guard.leave node }
  return result

/-- Adds to what was found what each item gives, unless the query is cancelled before its turn. -/
def collectFrom {α β : Type} (give : α → Query (List β)) (found : List β) :
    List α → Query (List β)
  | [] => return found
  | item :: rest => do
      if ← isCancelled then
        return []
      let more ← give item
      collectFrom give (found ++ more) rest

/-- What the items give, in order; a query cancelled on the way collects nothing at all. -/
def collect {α β : Type} (give : α → Query (List β)) (items : List α) : Query (List β) :=
  collectFrom give [] items

/-- Counts an evaluation and cancels the query at the given number. -/
def countEvaluation (number : Nat) : Query Unit :=
  modify fun state =>
    { state with
      evaluations := state.evaluations + 1
      isCancelled := state.isCancelled || state.evaluations + 1 == number }

/--
Runs an evaluation on behalf of the evaluator.

An absent evaluator gives the fallback; a cancelling one counts the evaluation
before it starts.
-/
def throughEvaluator {α : Type} (fallback : α) (evaluation : Query α) : Query α := do
  match (← read).evaluator with
  | .absent => return fallback
  | .standard => evaluation
  | .cancelling number =>
    countEvaluation number
    evaluation

def evaluate (expression : Expr) : Query (Except EvalError Value) :=
  throughEvaluator (.error (.notConstant expression.text)) (valueOf expression)

def evaluateType (expression : Expr) : Query (Option Symbol) :=
  throughEvaluator none (typingOf expression)

/--
The symbols of a name, remembered where possible.

A search that was cancelled gives nothing and leaves nothing to remember; a
search that finds nothing is reported.
-/
def memoized (name : String) (search : Query (List Symbol)) : Query (List Symbol) := do
  match (← get).remembered? name with
  | some symbols => return symbols
  | none =>
    let found ← search
    if ← isCancelled then
      return []
    if found.isEmpty then
      reportMissing name
    modify (·.remember name found)
    return found

end Query

end DScope
