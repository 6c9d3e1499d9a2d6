import DScope.Proofs.Operation

namespace DScope

/-!
# The limit has no influence

A run that is not stopped by the limit on nested questions comes to the same end
under every higher limit: to the same result and state, or to the same reason
for ending early.
-/

open Query

/-- Whether a computation comes to the same end as another one that was not stopped. -/
def Attempt.Extends {α : Type} (longer shorter : Attempt α) : Prop :=
  ∀ state, shorter state ≠ .error .depthExceeded → longer state = shorter state

variable {program : Program} {within : Nat → Question → Prop} {standing : Standing}
  {asks : Question → Prop} {α : Type} {query : Query α}

/-- An orderly query extends a run of its own where the answers do. -/
theorem Orderly.extends
    (orderly : Orderly program within standing asks query) (evaluator : Evaluator)
    {longer shorter : (question : Question) → Attempt question.Answer}
    (answers : ∀ question, Attempt.Extends (longer question) (shorter question)) :
    Attempt.Extends
      (query { program, evaluator, answer := longer })
      (query { program, evaluator, answer := shorter }) := by
  induction orderly with
  | pure value =>
    exact fun _ _ => rfl
  | bindReturned before after beforeHypothesis afterHypothesis =>
    intro state finished
    rw [bind_apply] at finished ⊢
    have sameFirst := beforeHypothesis state fun exceeded => finished (by rw [exceeded])
    rw [bind_apply, sameFirst]
    split at finished
    next value later isFirst =>
      exact afterHypothesis value ⟨_, state, later, rfl, isFirst⟩ later finished
    next => rfl
  | halt isOwn =>
    exact fun _ _ => rfl
  | reading after ih =>
    exact ih
  | asking isListed isPermitted =>
    exact answers _
  | seeing seesView after ih =>
    exact fun state finished => ih state state finished
  | reporting diagnostic _ =>
    exact fun _ _ => rfl
  | @framed α standing asks frame body opens inner ih =>
    intro state finished
    rw [withFrame_apply] at finished ⊢
    rw [withFrame_apply]
    split at finished
    next isDone => rw [if_pos isDone, if_pos isDone]
    · rw [ih (state.push frame) fun exceeded => finished (by rw [exceeded])]
  | @overriding α standing asks overrides body inner ih =>
    intro state finished
    rw [withOverrides_apply, withFrame_apply] at finished ⊢
    rw [withOverrides_apply, withFrame_apply]
    split at finished
    next isDone => rw [if_pos isDone, if_pos isDone]
    · rw [ih (state.push (state.overridden overrides)) fun exceeded =>
        finished (by rw [exceeded])]
  | resolving inner ih =>
    intro state finished
    rw [whileResolving_apply] at finished ⊢
    rw [whileResolving_apply]
    split at finished
    next isDone => rw [if_pos isDone, if_pos isDone]
    · rw [ih _ fun exceeded => finished (by rw [exceeded])]
  | visiting isDeclared inner ih =>
    intro state finished
    rw [visiting_apply] at finished ⊢
    rw [visiting_apply, ih _ _ fun exceeded => finished (by rw [exceeded])]
  | evaluating inner ih =>
    intro state finished
    rw [throughEvaluator_apply] at finished ⊢
    rw [throughEvaluator_apply]
    split at finished
    next isDone => rw [if_pos isDone, if_pos isDone]
    · rw [ih _ finished]
  | remembering isPlain inner ih =>
    intro state finished
    rw [Resolution.ofName_apply] at finished ⊢
    rw [Resolution.ofName_apply]
    split at finished
    · rfl
    · rw [ih state fun exceeded => finished (by rw [exceeded])]

namespace Engine

theorem answer_extends
    (program : Program) (evaluator : Evaluator) (limit : Nat) (question : Question) :
    Attempt.Extends (answer program evaluator (limit + 1) question)
      (answer program evaluator limit question) := by
  have isPlain : Standing.plain ≠ .overridden := by decide
  induction limit generalizing question with
  | zero =>
    exact fun state finished => absurd rfl finished
  | succ limit ih =>
    have orderly :=
      respond_orderly_of_permits program (Standing.permits_of_ne_overridden isPlain question)
    exact orderly.extends evaluator ih

theorem run_eq_of_le
    (orderly : Orderly program within standing asks query) (evaluator : Evaluator) {state : State}
    {limit higher : Nat} (isHigher : limit ≤ higher)
    (finished : run program evaluator limit query state ≠ .error .depthExceeded) :
    run program evaluator higher query state = run program evaluator limit query state := by
  induction isHigher with
  | refl =>
    rfl
  | step isHigher ih =>
    rw [← ih]
    refine orderly.extends evaluator (answer_extends program evaluator _) state ?_
    rw [← ih] at finished
    exact finished

end Engine

end DScope
