import DScope.Proofs.Balance

namespace DScope

/-!
# What queries ensure

Properties that the results of a query have whatever the state is in which it
starts and however its questions are answered, and properties that they have unless
the query is cancelled. A run that ends early has no result.
-/

namespace Query

variable {α β : Type} {program : Program} {property other : α → Prop} {later : β → Prop}
  {environment : Environment} {give : α → Query (List β)} {next : α → Query β}

/-- Whatever the query returns has the property. -/
def Ensures (program : Program) (query : Query α) (property : α → Prop) : Prop :=
  ∀ ⦃environment state result final⦄,
    environment.program = program →
      query environment state = .ok (result, final) → property result

namespace Ensures

theorem mono {query : Query α} (ensures : Ensures program query property)
    (implies : ∀ result, property result → other result) : Ensures program query other :=
  fun _ _ result _ isProgram returned => implies result (ensures isProgram returned)

theorem anything (query : Query α) : Ensures program query fun _ => True :=
  fun _ _ _ _ _ _ => trivial

theorem pure {value : α} (holds : property value) : Ensures program (Pure.pure value) property := by
  rintro environment state result final isProgram ⟨⟩
  exact holds

theorem nothing {holds : Prop} :
    Ensures program (Pure.pure (none : Option α)) fun given => given.isSome = true → holds :=
  .pure fun isSome => by cases isSome

theorem bind {first : Query α} (before : Ensures program first property)
    (after : ∀ value, property value → Ensures program (next value) later) :
    Ensures program (first >>= next) later := by
  intro environment state result final isProgram returned
  obtain ⟨value, between, isFirst, isSecond⟩ := bind_eq_ok.mp returned
  exact after value (before isProgram isFirst) isProgram isSecond

theorem tree : Ensures program Query.tree (· = program.tree) := by
  rintro environment state result final rfl ⟨⟩
  rfl

theorem node (id : NodeId) :
    Ensures program (Query.node id) fun entry => program.tree.node? id = some entry := by
  rintro environment state entry final rfl returned
  exact (node_eq_ok.mp returned).1

theorem withFrame {body : Query α} (ensures : Ensures program body property) (frame : Frame) :
    Ensures program (Query.withFrame frame body) fun result =>
      ∀ value, result = some value → property value := by
  refine .bind (.anything _) fun isCancelled _ => ?_
  split
  · exact .pure nofun
  · refine .bind (.anything _) fun _ _ => .bind (.anything _) fun _ _ => ?_
    refine .bind ensures fun value holds => .bind (.anything _) fun _ _ => .pure ?_
    rintro _ ⟨⟩
    exact holds

theorem visiting {body : Nat → Query α} (ensures : ∀ depth, Ensures program (body depth) property)
    (id : NodeId) : Ensures program (Query.visiting id body) property := by
  refine .bind (.anything _) fun _ _ => .bind (.anything _) fun state _ => ?_
  exact .bind (ensures _) fun value holds => .bind (.anything _) fun _ _ => .pure holds

theorem foldlM {step : α → β → Query α}
    (keeps : ∀ value item, property value → Ensures program (step value item) property)
    (items : List β) {start : α} (holds : property start) :
    Ensures program (items.foldlM step start) property := by
  induction items generalizing start with
  | nil => exact .pure holds
  | cons item rest ih =>
    exact .bind (keeps start item holds) fun _ => ih

theorem filterM (test : α → Query Bool) (items : List α) :
    Ensures program (items.filterM test) (· ⊆ items) := by
  have keeping (kept : List α) :
      Ensures program (items.filterAuxM test kept) (· ⊆ items ++ kept) := by
    induction items generalizing kept with
    | nil => exact .pure (List.Subset.refl kept)
    | cons item rest ih =>
      refine .bind (.anything _) fun isKept _ => (ih _).mono ?_
      cases isKept <;> grind
  refine .bind (keeping []) fun kept areKept => .pure fun one isOne => ?_
  exact List.append_nil items ▸ areKept (List.mem_reverse.mp isOne)

end Ensures

/-- Whatever the query returns without being cancelled has the property. -/
def Delivers (environment : Environment) (query : Query α) (property : α → Prop) : Prop :=
  ∀ ⦃state result final⦄,
    query environment state = .ok (result, final) →
      final.isCancelled = false → property result

namespace Delivers

theorem pure {value : α} (holds : property value) :
    Delivers environment (Pure.pure value) property := by
  rintro state result final ⟨⟩ isRunning
  exact holds

theorem bind {first : Query α} (before : first.Ensures environment.program property)
    (after : ∀ value, property value → Delivers environment (next value) later) :
    Delivers environment (first >>= next) later := by
  intro state result final returned isRunning
  obtain ⟨value, between, isFirst, isSecond⟩ := bind_eq_ok.mp returned
  exact after value (before rfl isFirst) isSecond isRunning

theorem map {query : Query α} {change : α → β} (delivers : Delivers environment query property)
    (changes : ∀ value, property value → later (change value)) :
    Delivers environment (query >>= fun value => Pure.pure (change value)) later := by
  intro state result final returned isRunning
  obtain ⟨value, between, isFirst, ⟨⟩⟩ := bind_eq_ok.mp returned
  exact changes value (delivers isFirst isRunning)

section Lists

variable {items : List α} {holds : β → Prop}

theorem forall_collectFrom
    (each : ∀ item ∈ items, Delivers environment (give item) fun more => ∀ one ∈ more, holds one)
    {start : List β} {state final : State} {found : List β}
    (areFound : state.isCancelled = false → ∀ one ∈ start, holds one)
    (returned : collectFrom give start items environment state = .ok (found, final))
    (isRunning : final.isCancelled = false) : ∀ one ∈ found, holds one := by
  induction items generalizing start state with
  | nil =>
    cases returned
    exact areFound isRunning
  | cons item rest ih =>
    rw [collectFrom, bind_apply, isCancelled_apply] at returned
    dsimp only at returned
    split at returned
    next =>
      cases returned
      exact fun one isOne => by cases isOne
    next isUncancelled =>
      obtain ⟨more, later, isGiven, isRest⟩ := bind_eq_ok.mp returned
      refine ih (List.forall_mem_cons.mp each).2 ?_ isRest
      intro laterIsRunning one isOne
      rcases List.mem_append.mp isOne with isOld | isNew
      · exact areFound (Bool.eq_false_iff.mpr isUncancelled) one isOld
      · exact each item List.mem_cons_self isGiven laterIsRunning one isNew

theorem collect
    (each : ∀ item ∈ items, Delivers environment (give item) fun more => ∀ one ∈ more, holds one) :
    Delivers environment (collect give items) fun found => ∀ one ∈ found, holds one :=
  fun _ _ _ returned isRunning =>
    forall_collectFrom each (fun _ one isOne => by cases isOne) returned isRunning

theorem narrowed {first : Query (List β)} {narrow : List β → Query (List β)}
    (delivers : Delivers environment first fun found => ∀ one ∈ found, holds one)
    (narrows : ∀ found, (narrow found).Ensures environment.program (· ⊆ found))
    (stays : ∀ found, Attempt.StaysCancelled (narrow found environment)) :
    Delivers environment (first >>= narrow) fun left => ∀ one ∈ left, holds one := by
  intro state left final returned isRunning one isLeft
  obtain ⟨found, between, isFirst, isSecond⟩ := bind_eq_ok.mp returned
  have isBetweenRunning : between.isCancelled = false := by
    rw [Bool.eq_false_iff]
    intro isCancelled
    rw [stays found isSecond isCancelled] at isRunning
    cases isRunning
  exact delivers isFirst isBetweenRunning one (narrows found rfl isSecond isLeft)

end Lists

end Delivers

theorem exists_of_mem_collectFrom {items : List α} {start found : List β} {state final : State}
    {one : β} (returned : collectFrom give start items environment state = .ok (found, final))
    (isFound : one ∈ found) :
    one ∈ start ∨
      ∃ item ∈ items, ∃ before more after,
        give item environment before = .ok (more, after) ∧ one ∈ more := by
  induction items generalizing start state with
  | nil =>
    cases returned
    exact .inl isFound
  | cons item rest ih =>
    rw [collectFrom, bind_apply, isCancelled_apply] at returned
    dsimp only at returned
    split at returned
    next =>
      cases returned
      cases isFound
    next =>
      obtain ⟨more, later, isGiven, isRest⟩ := bind_eq_ok.mp returned
      rcases ih isRest with isEarlier | ⟨other, isOther, isLater⟩
      · rcases List.mem_append.mp isEarlier with isOld | isNew
        · exact .inl isOld
        · exact .inr ⟨item, List.mem_cons_self, state, more, later, isGiven, isNew⟩
      · exact .inr ⟨other, List.mem_cons_of_mem item isOther, isLater⟩

end Query

end DScope
