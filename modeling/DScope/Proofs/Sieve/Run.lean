import DScope.Proofs.Moves
import DScope.Proofs.Sieve.Engine

namespace DScope

/-!
# Runs that keep to a sieve

A query that keeps to a realm comes out the same on both programs from every state
that passes, and what it gives and leaves behind passes again. Questions are answered
by the rules, so this holds of all answers, however deeply questions are nested.
-/

variable {known : Nat} {state : State}

namespace Sieve

variable {sieve : Sieve}

/--
Whether a state passes the sieve.

Of the memo only those entries count that were made under options in which a
query may run, and of the log only what comes after the first `known` entries.
-/
structure Holds (sieve : Sieve) (known : Nat) (state : State) : Prop where
  frames : sieve.PassesStack state
  defaults : sieve.options state.defaults
  memo : ∀ entry ∈ state.memo, sieve.options entry.1.options → sieve.Passes entry.2
  isKnown : known ≤ state.log.length
  log : sieve.Passes (state.log.drop known)

namespace Holds

variable (holds : sieve.Holds known state)
include holds

theorem push {frame : Frame} (isFrame : sieve.PassesFrame state.defaults frame) :
    sieve.Holds known (state.push frame) :=
  ⟨List.forall_mem_cons.mpr ⟨isFrame, holds.frames⟩, holds.defaults, holds.memo, holds.isKnown,
    holds.log⟩

theorem truncate (depth : Nat) : sieve.Holds known (state.truncate depth) := by
  refine ⟨fun frame isFrame => holds.frames frame ?_, holds.defaults, holds.memo, holds.isKnown,
    holds.log⟩
  have isSubset : (state.stack.truncate depth).frames ⊆ state.stack.frames := by
    unfold Stack.truncate
    split
    · exact List.Subset.refl _
    next isRest =>
      rw [Stack.frames, ← isRest]
      exact List.drop_subset _ _
  exact isSubset isFrame

theorem withGuard (guard : Guard) : sieve.Holds known { state with guard } :=
  ⟨holds.frames, holds.defaults, holds.memo, holds.isKnown, holds.log⟩

theorem report {diagnostic : Diagnostic} (passes : sieve.Passes diagnostic) :
    sieve.Holds known (state.report diagnostic) := by
  have isKnown : known ≤ (state.report diagnostic).log.length := by
    simpa [State.report] using Nat.le_succ_of_le holds.isKnown
  refine ⟨holds.frames, holds.defaults, holds.memo, isKnown, ?_⟩
  have isLog : (state.report diagnostic).log.drop known = state.log.drop known ++ [diagnostic] :=
    List.drop_append_of_le_length holds.isKnown
  rw [isLog]
  exact passes_append.mpr ⟨holds.log, passes_cons.mpr ⟨passes, passes_nil⟩⟩

theorem options_memoKey? {name : String} {key : MemoKey} (isKey : state.memoKey? name = some key) :
    sieve.options key.options := by
  unfold State.memoKey? at isKey
  split at isKey
  · cases isKey
  · cases isKey
    exact holds.frames.top.options

theorem remembered? (name : String) : sieve.Passes (state.remembered? name) := by
  rw [passes_option]
  intro symbols isFound
  obtain ⟨key, isKey, isFound⟩ := Option.bind_eq_some_iff.mp isFound
  exact holds.memo _ (Table.mem_of_find? isFound) (holds.options_memoKey? isKey)

theorem remember (name : String) {symbols : List Symbol} (passes : sieve.Passes symbols) :
    sieve.Holds known (state.remember name symbols) := by
  unfold State.remember
  cases state.memoKey? name with
  | none => exact holds
  | some key =>
    refine ⟨holds.frames, holds.defaults, fun entry isEntry isUnder => ?_, holds.isKnown, holds.log⟩
    rcases Table.mem_put isEntry with isNew | isOld
    · rw [isNew]
      exact passes
    · exact holds.memo entry isOld isUnder

theorem concluded (name : String) {found : List Symbol} (passes : sieve.Passes found) :
    sieve.Holds known (Query.concluded state name found) := by
  refine Holds.remember ?_ name passes
  split
  · unfold Query.reportedMissing
    split
    · exact holds.report (passes_nothingFound.mpr passes_none)
    · exact holds
  · exact holds

end Holds

/-- Two outcomes that are the same, with a result and a state that pass. -/
structure Confines {α : Type} (sieve : Sieve) (known : Nat) (post : α → Prop)
    (narrow wide : Except Halt (α × State)) : Prop where
  same : wide = narrow
  returned :
    ∀ {value final}, narrow = .ok (value, final) → post value ∧ sieve.Holds known final
  halted : ∀ {reason}, narrow = .error reason → reason.isMissing = true → sieve.hasGaps

namespace Confines

variable {α : Type} {post : α → Prop}

theorem ok {value : α} (isPost : post value) (holds : sieve.Holds known state) :
    sieve.Confines known post (.ok (value, state)) (.ok (value, state)) := by
  refine ⟨rfl, ?_, ?_⟩
  · rintro _ _ ⟨⟩
    exact ⟨isPost, holds⟩
  · rintro _ ⟨⟩

theorem error {reason : Halt} (isGap : reason.isMissing = true → sieve.hasGaps) :
    sieve.Confines known post (.error reason) (.error reason) := by
  refine ⟨rfl, ?_, ?_⟩
  · rintro _ _ ⟨⟩
  · rintro _ ⟨⟩
    exact isGap

end Confines

/-- A query and its counterpart come out the same from all states that pass. -/
def Agrees {α : Type} (sieve : Sieve) (known : Nat) (narrow wide : Environment)
    (query widened : Query α) (post : α → Prop) : Prop :=
  ∀ state, sieve.Holds known state →
    sieve.Confines known post (query narrow state) (widened wide state)

namespace Agrees

variable {narrow wide : Environment} {α β : Type} {query widened : Query α} {post : α → Prop}
  {later : β → Prop}

theorem pure {value : α} (isPost : post value) :
    sieve.Agrees known narrow wide (Pure.pure value) (Pure.pure value) post :=
  fun _ holds => .ok isPost holds

theorem bind {next widenedNext : α → Query β}
    (first : sieve.Agrees known narrow wide query widened post)
    (second :
      ∀ value, post value → sieve.Agrees known narrow wide (next value) (widenedNext value) later) :
    sieve.Agrees known narrow wide (query >>= next) (widened >>= widenedNext) later := by
  intro state holds
  have confines := first state holds
  rw [Query.bind_apply, Query.bind_apply, confines.same]
  cases isFirst : query narrow state with
  | error reason => exact .error (confines.halted isFirst)
  | ok outcome =>
    obtain ⟨value, middle⟩ := outcome
    obtain ⟨isPost, isMiddle⟩ := confines.returned isFirst
    exact second value isPost middle isMiddle

theorem get_bind {next widenedNext : State → Query α}
    (after :
      ∀ state, sieve.Holds known state →
        sieve.Agrees known narrow wide (next state) (widenedNext state) post) :
    sieve.Agrees known narrow wide (get >>= next) (get >>= widenedNext) post :=
  fun state holds => after state holds state holds

theorem modify_bind {change : State → State} {next widenedNext : PUnit → Query α}
    (keeps : ∀ state, sieve.Holds known state → sieve.Holds known (change state))
    (after : sieve.Agrees known narrow wide (next ()) (widenedNext ()) post) :
    sieve.Agrees known narrow wide (modify change >>= next) (modify change >>= widenedNext) post :=
  fun state holds => after (change state) (keeps state holds)

theorem withFrame {frame : Frame} (inner : sieve.Agrees known narrow wide query widened post)
    (holds : sieve.Holds known state) (isFrame : sieve.PassesFrame state.defaults frame) :
    sieve.Confines known (fun result => ∀ value ∈ result, post value)
      (Query.withFrame frame query narrow state) (Query.withFrame frame widened wide state) := by
  have confines := inner (state.push frame) (holds.push isFrame)
  rw [Query.withFrame_apply, Query.withFrame_apply, confines.same]
  split
  · exact .ok (fun _ isNone => by cases isNone) holds
  · cases isInner : query narrow (state.push frame) with
    | error reason => exact .error (confines.halted isInner)
    | ok outcome =>
      obtain ⟨isPost, isLater⟩ := confines.returned isInner
      exact .ok (fun _ isSome => (Option.some.inj isSome) ▸ isPost) (isLater.truncate _)

end Agrees

end Sieve

variable {realm : Realm} {standing : Standing} {asks : Question → Prop} {α : Type}
  {query widened : Query α} {post : α → Prop}

/-- Related queries come out the same from all states that pass where all answers do. -/
theorem Realm.Relates.agrees
    (relates : realm.Relates standing asks query widened post) (evaluator : Evaluator)
    {answer other : (question : Question) → Attempt question.Answer}
    (answers :
      ∀ question, realm.PassesQuestion question → ∀ state, realm.Holds known state →
        realm.Confines known (realm.PassesAnswer question) (answer question state)
          (other question state)) :
    realm.Agrees known ⟨realm.narrow, evaluator, answer⟩ ⟨realm.wide, evaluator, other⟩ query
      widened post := by
  induction relates with
  | pure isPost => exact .pure isPost
  | mono _ implies ih =>
    intro state holds
    refine ⟨(ih state holds).same, fun returned => ?_, (ih state holds).halted⟩
    exact ((ih state holds).returned returned).imp_left (implies _)
  | bind _ _ ihFirst ihSecond => exact ihFirst.bind ihSecond
  | halt _ isGap => exact fun _ _ => .error isGap
  | reading _ ih => exact ih
  | asking _ _ passes => exact answers _ passes
  | seeing _ _ ih => exact .get_bind fun state holds => ih state holds.frames
  | reporting passes => exact fun _ holds => .ok trivial (holds.report passes)
  | framed opens isScope isStatement areBound _ ih =>
    intro state holds
    refine ih.withFrame holds ⟨isScope, isStatement, areBound, ?_⟩
    rw [opens.overrides, Overrides.apply_empty]
    exact holds.defaults
  | @overriding _ _ _ overrides _ _ _ clearsNothing _ ih =>
    intro state holds
    have isTop := holds.frames.top
    refine ih.withFrame holds ⟨isTop.scope, isTop.statement, Sieve.passes_noBindings, ?_⟩
    have isUnion :
        overrides.apply (state.stack.top.overrides.apply state.defaults) =
          (state.stack.top.overrides.apply state.defaults).union overrides.enabled := by
      rw [Overrides.apply, clearsNothing]
      simp [Options.difference, Options.zip]
    change realm.options ((state.stack.top.overrides.followedBy overrides).apply state.defaults)
    rw [Overrides.apply_followedBy, isUnion]
    exact realm.fits.union _ isTop.options
  | resolving _ ih =>
    refine .get_bind fun state _ => ?_
    split
    · exact .pure fun _ isNone => by cases isNone
    · refine .modify_bind (fun _ holds => holds.withGuard _) (ih.bind fun value isPost => ?_)
      refine .modify_bind (fun _ holds => holds.withGuard _) (.pure fun _ isSome => ?_)
      exact (Option.some.inj isSome) ▸ isPost
  | visiting _ _ ih =>
    refine .modify_bind (fun _ holds => holds.withGuard _) (.get_bind fun state _ => ?_)
    refine (ih _).bind fun value isPost => ?_
    exact .modify_bind (fun _ holds => holds.withGuard _) (.pure isPost)
  | evaluating isFallback _ ih =>
    intro state holds
    have isStart : realm.Holds known (Query.evaluationStart evaluator state) := by
      cases evaluator with
      | absent | standard => exact holds
      | cancelling number =>
        exact ⟨holds.frames, holds.defaults, holds.memo, holds.isKnown, holds.log⟩
    rw [Query.throughEvaluator_apply, Query.throughEvaluator_apply]
    split
    · exact .ok isFallback holds
    · exact ih _ isStart
  | @remembering _ _ name _ _ ih =>
    intro state holds
    have isRemembered := holds.remembered? name
    have confines := ih state holds
    rw [Resolution.ofName_apply, Resolution.ofName_apply, confines.same]
    cases isFound : state.remembered? name with
    | some symbols => exact .ok (Sieve.passes_some.mp (isFound ▸ isRemembered)) holds
    | none =>
      cases isSearch : Resolution.searchName name ⟨realm.narrow, evaluator, answer⟩ state with
      | error reason => exact .error (confines.halted isSearch)
      | ok outcome =>
        obtain ⟨areFound, isLater⟩ := confines.returned isSearch
        dsimp only
        split
        · exact .ok Sieve.passes_nil isLater
        · exact .ok areFound (isLater.concluded name areFound)

theorem Tree.admits_all (tree : Tree) : tree.Admits fun _ _ => True where
  declared _ _ := trivial
  forwarded _ _ _ := trivial
  initialized _ _ := trivial

namespace Engine

theorem answer_confines
    (realm : Realm) (evaluator : Evaluator) (limit : Nat) (question : Question)
    (passes : realm.PassesQuestion question) (state : State) (holds : realm.Holds known state) :
    realm.Confines known (realm.PassesAnswer question)
      (answer realm.narrow evaluator limit question state)
      (answer realm.wide evaluator limit question state) := by
  induction limit generalizing question state with
  | zero => exact .error fun isMissing => by cases isMissing
  | succ limit ih =>
    let unbounded : Realm := { realm with within := fun _ _ => True, blames := True }
    have confined :
        unbounded.Relates .plain (fun _ => True) (respond question) (respond question)
          (unbounded.PassesAnswer question) :=
      respond_confined realm.narrow.tree.admits_all
        (Standing.permits_of_ne_overridden (by decide) question) (fun _ _ => trivial)
        (fun _ _ => trivial) (fun _ => trivial) passes
    exact confined.agrees evaluator ih state holds

theorem run_confines (relates : realm.Relates standing asks query widened post)
    (evaluator : Evaluator) (limit : Nat) (holds : realm.Holds known state) :
    realm.Confines known post (run realm.narrow evaluator limit query state)
      (run realm.wide evaluator limit widened state) :=
  relates.agrees evaluator (answer_confines realm evaluator limit) state holds

end Engine

end DScope
