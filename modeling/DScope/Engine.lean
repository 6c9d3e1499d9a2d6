import DScope.Evaluation.Constant
import DScope.Evaluation.Typing

namespace DScope

/-!
# Answering questions

The rules for types, declarations and expressions answer the questions that
queries ask. Rules ask questions themselves; an answer with limit `n + 1` may
rest on answers with limit `n`, so that every run ends. Apart from the reason
`depthExceeded` the limit has no influence on an answer.
-/

namespace Engine

/-- The rule that answers a question. -/
def respond : (question : Question) → Query question.Answer
  | .type type => Resolution.ofType type
  | .symbol node bindings => DeclaredSymbol.of node bindings
  | .value expression => Constant.ofExpression expression
  | .typing expression => Typing.ofExpression expression

/-- The answer to a question, with questions nested at most as deeply as the limit allows. -/
def answer (program : Program) (evaluator : Evaluator) :
    Nat → (question : Question) → Attempt question.Answer
  | 0, _ => throw .depthExceeded
  | limit + 1, question =>
    (respond question).run
      { program, evaluator, answer := fun inner => answer program evaluator limit inner }

/-- Runs a query whose questions may be nested as deeply as the limit allows. -/
def run {α : Type} (program : Program) (evaluator : Evaluator) (limit : Nat) (query : Query α) :
    Attempt α :=
  query.run { program, evaluator, answer := answer program evaluator limit }

end Engine

end DScope
