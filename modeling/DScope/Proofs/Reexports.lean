import DScope.Proofs.Drafting

namespace DScope

/-!
# Members of a module

A module gives what it declares and what the modules give that it imports publicly,
and so on along all chains of public imports. However the imports are connected, each
module on a chain gives its declarations once.
-/

namespace Scan.Explores

variable {program : Program} {home module : NodeId} {later : List NodeId}
  {offers : List Declaration}
  (explores :
    Explores program home (program.tree.nodes.size + 1) (module = ·) (fun _ => False) [] later
      offers)

include explores

theorem mem_later_iff {id : NodeId} (isHeld : program.tree.holds id = true) :
    id ∈ later ↔ Relation.ReflTransGen program.Reexports module id := by
  have isEnough := program.tree.remaining_nodeIds_lt
  constructor
  · intro isLater
    rcases explores.isReached id isLater with isSeen | ⟨_, rfl, reaches⟩
    · cases isSeen
    · exact reaches
  · intro reaches
    induction reaches with
    | refl => exact explores.isClosed isEnough _ (.inl rfl) isHeld
    | @tail middle last _ link ih =>
      have ⟨root, isRoot, _⟩ := link
      have isMiddle := ih (Tree.holds_of_node? isRoot)
      exact explores.isClosed isEnough _ (.inr ⟨middle, isMiddle, List.not_mem_nil, link⟩) isHeld

theorem mem_offers_iff {id : NodeId} :
    id ∈ offers.map Declaration.node ↔
      ∃ reached,
        Relation.ReflTransGen program.Reexports module reached ∧ program.Exports home reached id := by
  rw [List.mem_map]
  constructor
  · rintro ⟨offer, isOffer, rfl⟩
    obtain ⟨-, isFalse | ⟨reached, isLater, -, exports⟩⟩ := (explores.isOffered offer).mp isOffer
    · exact isFalse.elim
    have ⟨root, isRoot, _⟩ := exports
    exact ⟨reached, (explores.mem_later_iff (Tree.holds_of_node? isRoot)).mp isLater, exports⟩
  · rintro ⟨reached, reaches, exports⟩
    have ⟨root, isRoot, _⟩ := exports
    have isLater := (explores.mem_later_iff (Tree.holds_of_node? isRoot)).mpr reaches
    exact ⟨⟨id, none⟩, (explores.isOffered _).mpr
      ⟨rfl, .inr ⟨reached, isLater, List.not_mem_nil, exports⟩⟩, rfl⟩

end Scan.Explores

/--
A search for the members of a module ends, and finds each declaration of the name once
that the module or one that public imports lead to exports, and nothing else. The number
of steps that the scan is given is not what ends it: more steps change nothing, not even
the modules that it marks as seen.
-/
theorem public_imports_are_followed_to_the_end
    (program : Program)
    (state : State)
    {module : NodeId}
    {owner : Symbol}
    {root here : Node}
    (isOwner : owner.shape = .module module)
    (isModule : program.tree.node? module = some root)
    (isScope : program.tree.node? state.stack.top.scope = some here)
    (name : String)
    (filter : Filter) :
    (∀ (scan : Scan) (steps : Nat),
      program.tree.nodes.size < steps →
        scan.module program steps module =
          scan.module program (program.tree.nodes.size + 1) module) ∧
      ∃ declarations,
        (∀ evaluator limit,
          Engine.run program evaluator limit (Operation.searchMembers owner name filter).query
              state =
            .ok (declarations, state)) ∧
          (declarations.map Declaration.node).Nodup ∧
          ∀ id, id ∈ declarations.map Declaration.node ↔
            (∃ entry,
              program.tree.node? id = some entry ∧
                entry.name = name ∧ filter.accepts entry = true) ∧
              ∃ reached,
                Relation.ReflTransGen program.Reexports module reached ∧
                  program.Exports (program.tree.rootOf state.stack.top.scope) reached id := by
  obtain ⟨later, offers, explores, isScanned⟩ :=
    Scan.exists_walk program (program.tree.rootOf state.stack.top.scope)
      (program.tree.nodes.size + 1) module []
  obtain ⟨found, isTaken, isDistinct, isFound⟩ :=
    Scan.exists_foldl_take program.tree offers
      { name := some name, filter, home := program.tree.rootOf state.stack.top.scope }
  have reads : Query.Reads program state (Lookup.members owner name filter) found := by
    apply Query.Reads.bind (Lookup.reads_start isScope)
    rw [isOwner]
    apply Query.Reads.bind (Lookup.reads_scanModule (Tree.holds_of_node? isModule) _)
    rw [isScanned _ rfl rfl, isTaken]
    exact .pure _
  refine ⟨fun scan steps isEnough => Scan.module_eq_of_lt isEnough scan module, found,
    fun evaluator limit => reads _ rfl, isDistinct List.nodup_nil, fun id => ?_⟩
  rw [isFound, explores.mem_offers_iff]
  simp [Scan.nodes, Scan.seeks, Scan.wants, Option.any_eq_true]

/-- Two modules that import each other publicly; one also imports itself and binds a name. -/
def Draft.circle : List Step :=
  [ .module "a",
    .member ⟨0⟩ "b" (.importModule "b" true false),
    .member ⟨0⟩ "x" (.var (some (.basic .int)) none),
    .module "b",
    .member ⟨3⟩ "a" (.importModule "a" true false),
    .member ⟨3⟩ "b" (.importModule "b" true false),
    .member ⟨3⟩ "x" (.var (some (.basic .int)) none),
    .visibility ⟨6⟩ .privateAccess,
    .member ⟨3⟩ "c" (.importModule "c" true false),
    .importBinding ⟨7⟩ "x" "y",
    .member ⟨3⟩ "x" (.method none [] none) ]

def Program.circle : Program :=
  .ofTree (.ofSteps Draft.circle)

/-- From the first module on, each `x` that the circle exports is found once. -/
theorem circle_of_public_imports_is_followed :
    ∃ declarations,
      (∀ evaluator limit,
        Engine.run .circle evaluator limit (Operation.searchMembers (.module ⟨0⟩) "x" .all).query
            (.start ⟨0⟩ none) =
          .ok (declarations, .start ⟨0⟩ none)) ∧
        declarations.map Declaration.node = [⟨2⟩, ⟨9⟩, ⟨8⟩] ∧
        ∀ id, id ∈ declarations.map Declaration.node ↔
          (∃ entry,
            Program.circle.tree.node? id = some entry ∧
              entry.name = "x" ∧ Filter.all.accepts entry = true) ∧
            ∃ reached,
              Relation.ReflTransGen Program.circle.Reexports ⟨0⟩ reached ∧
                Program.circle.Exports (Program.circle.tree.rootOf ⟨0⟩) reached id := by
  have isOwner : (Symbol.module ⟨0⟩).shape = .module ⟨0⟩ := rfl
  have isHeld : (Program.circle.tree.node? ⟨0⟩).isSome = true := by decide +kernel
  obtain ⟨root, isRoot⟩ := Option.isSome_iff_exists.mp isHeld
  obtain ⟨-, declarations, runs, -, areFound⟩ :=
    public_imports_are_followed_to_the_end .circle (.start ⟨0⟩ none) isOwner isRoot isRoot "x" .all
  have run :
      ((Engine.run .circle .standard 0 (Operation.searchMembers (.module ⟨0⟩) "x" .all).query
          (.start ⟨0⟩ none)).toOption.any
        fun outcome => outcome.1.map Declaration.node == [⟨2⟩, ⟨9⟩, ⟨8⟩]) =
        true := by
    decide +kernel
  obtain ⟨_, returned, nodes⟩ := exists_of_any run
  cases (runs .standard 0).symm.trans returned
  exact ⟨declarations, runs, beq_iff_eq.mp nodes, areFound⟩

end DScope
