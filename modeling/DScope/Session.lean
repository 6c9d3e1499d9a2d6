import DScope.Engine

namespace DScope

/-!
# Sessions

A session is a program together with the state that queries on it leave behind:
frames, log, memo and guard carry over from one query to the next.
-/

/-- A program under query and the state of the queries so far. -/
structure Session where
  program : Program
  evaluator : Evaluator
  state : State

namespace Session

def start (program : Program) (evaluator : Evaluator) (scope : NodeId)
    (statement : Option StatementId) : Session :=
  ⟨program, evaluator, .start scope statement⟩

/-- The result of a query and the session after it, unless the query ended early. -/
def run {α : Type} (session : Session) (limit : Nat) (query : Query α) :
    Except Halt (α × Session) := do
  let (result, state) ← (Engine.run session.program session.evaluator limit query).run session.state
  return (result, { session with state })

end Session

end DScope
