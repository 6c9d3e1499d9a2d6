import DScope.Proofs.Drafting
import DScope.Proofs.Sieve.Inspection
import Mathlib.Data.List.FinRange

namespace DScope

/-!
# Nothing outside the tree is read

On a tree that names only what it holds, a client that hands over only places of
the tree gets back only places of the tree, and no query ends because a place or a
parameter is missing. That nothing else is read either is said by comparison: if
the tree is followed by anything else, every operation comes out as before.
-/

open Composite List Tree State

variable {tree wider : Tree} {α : Type}

theorem Node.parameters_eq (entry : Node) : entry.parameters = entry.kind.nodes := by
  unfold Node.parameters
  cases entry.kind <;> rfl

theorem Statement.parts_eq (entry : Statement) : entry.parts = entry.kind.statements := by
  unfold Statement.parts
  cases entry.kind <;> rfl

theorem Statement.mem_nodes_of_declares
    {entry : Statement} {node : NodeId} (declares : entry.declares node = true) :
    node ∈ entry.kind.nodes := by
  unfold Statement.declares at declares
  generalize entry.kind = kind at declares ⊢
  cases kind with
  | declaration | forEach => exact contains_iff_mem.mp declares
  | mixin declared => exact mem_singleton.mpr (beq_iff_eq.mp declares).symm
  | _ => cases declares

namespace Tree

variable {tree : Tree} {level : List StatementId} {outer inner body : StatementId} {depth : Nat}

/-! ## Statements inside a statement -/

/-- Whether a statement stands directly inside another one. -/
def Contains (tree : Tree) (outer inner : StatementId) : Prop :=
  inner ∈ tree.partsOf [outer]

theorem mem_partsOf : inner ∈ tree.partsOf level ↔ ∃ outer ∈ level, tree.Contains outer inner := by
  simp [partsOf, Contains]

def statementIds (tree : Tree) : List StatementId :=
  (List.range tree.statements.size).map StatementId.mk

theorem mem_statementIds {id : StatementId} :
    id ∈ tree.statementIds ↔ tree.holdsStatement id = true := by
  rw [holdsStatement_iff_lt]
  constructor
  · intro member
    obtain ⟨index, isIndex, rfl⟩ := mem_map.mp member
    exact mem_range.mp isIndex
  · intro isSmaller
    exact mem_map.mpr ⟨id.index, mem_range.mpr isSmaller, rfl⟩

theorem IsClosed.holds_of_contains
    (isClosed : tree.IsClosed) (contains : tree.Contains outer inner) :
    tree.holdsStatement outer = true ∧ tree.holdsStatement inner = true := by
  cases isEntry : tree.statement? outer with
  | none => simp [Contains, partsOf, isEntry] at contains
  | some entry =>
    have isPart : inner ∈ entry.parts := by simpa [Contains, partsOf, isEntry] using contains
    rw [Statement.parts_eq] at isPart
    have has := isClosed.statement isEntry
    exact ⟨by rw [holdsStatement, isEntry]; rfl, has.statements inner (mem_append_right _ isPart)⟩

theorem levels_initial {deeper : Nat} (isDeeper : depth ≤ deeper) (level : List StatementId) :
    tree.levels depth level <+: tree.levels deeper level := by
  induction depth generalizing deeper level with
  | zero => exact nil_prefix
  | succ depth ih =>
    obtain _ | deeper := deeper
    · omega
    · cases level with
      | nil => exact prefix_refl _
      | cons first rest =>
        exact (prefix_append_right_inj _).mpr (ih (by omega) _)

theorem exists_reaches_of_mem_levels (isInside : inner ∈ tree.levels depth level) :
    ∃ outer ∈ level, Relation.ReflTransGen tree.Contains outer inner := by
  induction depth generalizing level with
  | zero => cases isInside
  | succ depth ih =>
    cases level with
    | nil => cases isInside
    | cons first rest =>
      rcases mem_append.mp isInside with isHere | isBelow
      · exact ⟨inner, isHere, .refl⟩
      · obtain ⟨middle, isMiddle, reaches⟩ := ih isBelow
        obtain ⟨outer, isOuter, contains⟩ := mem_partsOf.mp isMiddle
        exact ⟨outer, isOuter, .head contains reaches⟩

theorem mem_levels_of_descends
    {cut : List StatementId} (descends : Descends tree.Contains cut outer inner)
    (areFinite :
      ∀ outer inner, tree.Contains outer inner →
        outer ∈ tree.statementIds ∧ inner ∈ tree.statementIds)
    (isOuter : outer ∈ level) (isHeld : outer ∈ tree.statementIds) (isNew : inner ∉ cut) :
    inner ∈ tree.levels (remaining tree.statementIds cut) level := by
  -- The first level exists because the place itself is left.
  have isHere {cut level} {place : StatementId} (isPlace : place ∈ level)
      (isHeld : place ∈ tree.statementIds) (isNew : place ∉ cut) :
      place ∈ tree.levels (remaining tree.statementIds cut) level := by
    have isLess := remaining_cons_lt isHeld isNew
    have isFirst : tree.levels 1 level <+: tree.levels (remaining tree.statementIds cut) level :=
      levels_initial (Nat.one_le_of_lt isLess) level
    refine isFirst.subset ?_
    cases level with
    | nil => cases isPlace
    | cons first rest => exact mem_append_left _ isPlace
  induction descends generalizing level with
  | here => exact isHere isOuter isHeld isNew
  | @along cut place next target isFresh link _ ih =>
    by_cases isSame : target = place
    · exact isSame ▸ isHere isOuter isHeld isFresh
    · have isLess := remaining_cons_lt isHeld isFresh
      have isBelow := ih (mem_partsOf.mpr ⟨place, isOuter, link⟩)
        (areFinite place next link).2 (by simpa [isSame] using isNew)
      obtain ⟨left, isLeft⟩ := Nat.exists_eq_add_one_of_ne_zero (Nat.ne_zero_of_lt isLess)
      rw [isLeft] at isLess ⊢
      cases level with
      | nil => cases isOuter
      | cons first rest =>
        refine mem_append_right _ ?_
        exact (levels_initial (Nat.le_of_lt_succ isLess) _).subset isBelow

theorem IsClosed.levels_subset
    (isClosed : tree.IsClosed) (isHeld : tree.holdsStatement body = true) (depth : Nat) :
    tree.levels depth [body] ⊆ tree.statementsWithin body := by
  intro inner isInside
  obtain ⟨outer, isOuter, reaches⟩ := exists_reaches_of_mem_levels isInside
  obtain rfl := mem_singleton.mp isOuter
  have areFinite :
      ∀ outer inner, tree.Contains outer inner →
        outer ∈ tree.statementIds ∧ inner ∈ tree.statementIds := by
    intro outer inner contains
    obtain ⟨isOuter, isInner⟩ := isClosed.holds_of_contains contains
    exact ⟨mem_statementIds.mpr isOuter, mem_statementIds.mpr isInner⟩
  have descends :=
    (Descends.iff_reaches fun outer inner link => (areFinite outer inner link).1).mpr reaches
  have isFound :=
    mem_levels_of_descends descends areFinite isOuter (mem_statementIds.mpr isHeld) not_mem_nil
  have isSize : remaining tree.statementIds [] = tree.statements.size := by
    simp [remaining, statementIds]
  rwa [isSize] at isFound

theorem IsClosed.findSome?_levels (isClosed : tree.IsClosed)
    (isHeld : tree.holdsStatement body = true) (isDeeper : tree.statements.size ≤ depth)
    (test : StatementId → Option α) :
    (tree.levels depth [body]).findSome? test = (tree.statementsWithin body).findSome? test := by
  have isFirst : tree.statementsWithin body <+: tree.levels depth [body] :=
    levels_initial isDeeper [body]
  obtain ⟨rest, isSplit⟩ := isFirst
  have isSubset := isClosed.levels_subset isHeld depth
  rw [← isSplit] at isSubset ⊢
  rw [findSome?_append]
  cases isFound : (tree.statementsWithin body).findSome? test with
  | some found => rfl
  | none =>
    rw [findSome?_eq_none_iff] at isFound
    rw [Option.none_or, findSome?_eq_none_iff]
    exact fun inner isInner => isFound inner (isSubset (mem_append_right _ isInner))

/-! ## Trees that go on -/

/-- Whether the other tree starts with everything that is in this one. -/
structure ContinuesTo (tree wider : Tree) : Prop where
  nodes : tree.nodes.toList <+: wider.nodes.toList
  statements : tree.statements.toList <+: wider.statements.toList

namespace ContinuesTo

theorem refl (tree : Tree) : tree.ContinuesTo tree :=
  ⟨prefix_refl _, prefix_refl _⟩

theorem node? (continues : tree.ContinuesTo wider) {id : NodeId} (isHeld : tree.holds id = true) :
    wider.node? id = tree.node? id := by
  obtain ⟨rest, isSplit⟩ := continues.nodes
  have isSmaller : id.index < tree.nodes.toList.length := holds_iff_lt.mp isHeld
  rw [Tree.node?, Tree.node?, ← Array.getElem?_toList, ← isSplit,
    getElem?_append_left isSmaller, Array.getElem?_toList]

theorem statement? (continues : tree.ContinuesTo wider) {id : StatementId}
    (isHeld : tree.holdsStatement id = true) : wider.statement? id = tree.statement? id := by
  obtain ⟨rest, isSplit⟩ := continues.statements
  have isSmaller : id.index < tree.statements.toList.length := holdsStatement_iff_lt.mp isHeld
  rw [Tree.statement?, Tree.statement?, ← Array.getElem?_toList, ← isSplit,
    getElem?_append_left isSmaller, Array.getElem?_toList]

theorem levels (continues : tree.ContinuesTo wider) (isClosed : tree.IsClosed) (depth : Nat)
    (areHeld : ∀ statement ∈ level, tree.holdsStatement statement = true) :
    wider.levels depth level = tree.levels depth level := by
  induction depth generalizing level with
  | zero => rfl
  | succ depth ih =>
    cases level with
    | nil => rfl
    | cons first rest =>
      have sameParts : wider.partsOf (first :: rest) = tree.partsOf (first :: rest) := by
        refine flatMap_congr fun statement isStatement => ?_
        rw [continues.statement? (areHeld statement isStatement)]
      have areHeldBelow :
          ∀ statement ∈ tree.partsOf (first :: rest), tree.holdsStatement statement = true := by
        intro statement isStatement
        obtain ⟨outer, -, contains⟩ := mem_partsOf.mp isStatement
        exact (isClosed.holds_of_contains contains).2
      unfold levels
      rw [sameParts, ih areHeldBelow]

end ContinuesTo

/-! ## The sieve of the tree -/

/-- The sieve that lets pass what is in the tree. -/
def bounds (tree : Tree) : Sieve where
  node id := tree.holds id = true
  statement id := tree.holdsStatement id = true
  tag id := tree.holds id = true
  hasBases := True
  hasTargets := True
  options _ := True
  hasGaps := False

/-- Whether data names only declarations of the tree. -/
def Encompasses {α : Type} [Composite α] (tree : Tree) (item : α) : Prop :=
  ∀ node ∈ Composite.nodes item, tree.holds node = true

theorem passes_bounds_iff [Composite α] {item : α} :
    tree.bounds.Passes item ↔ tree.Encompasses item := by
  have admits_iff (part : Symbol) :
      tree.bounds.Admits part ↔ ∀ node ∈ part.ownNodes, tree.holds node = true := by
    unfold Symbol.ownNodes
    rw [forall_mem_append]
    exact ⟨fun admits => ⟨admits.nodes, admits.tags⟩,
      fun ⟨nodes, tags⟩ => ⟨nodes, tags, fun _ => trivial, fun _ => trivial⟩⟩
  unfold Sieve.Passes Encompasses Composite.nodes
  rw [forall_mem_append, and_comm]
  simp only [admits_iff, mem_flatMap]
  refine and_congr_right fun _ => ⟨?_, ?_⟩
  · rintro each node ⟨part, isPart, isNode⟩
    exact each part isPart node isNode
  · intro each part isPart node isNode
    exact each node ⟨part, isPart, isNode⟩

theorem passes_bounds_places {places : List NodeId} :
    tree.bounds.Passes places ↔ ∀ node ∈ places, tree.holds node = true := by
  simp [Sieve.passes_list, bounds]

/-- A closed tree and any tree that it continues to agree at the places of the first one. -/
theorem IsClosed.covers (isClosed : tree.IsClosed) (continues : tree.ContinuesTo wider) :
    tree.bounds.Covers tree wider where
  node? := continues.node?
  statement? := continues.statement?
  entry := by
    intro id entry _ isEntry
    have has := isClosed.node isEntry
    have areHeld : tree.bounds.Passes entry.nodes := passes_bounds_places.mpr has.nodes
    unfold Node.nodes at areHeld
    simp only [Sieve.passes_append] at areHeld
    obtain ⟨⟨⟨isParent, areChildren⟩, areTemplateParameters⟩, areNamed⟩ := areHeld
    refine ⟨?_, areChildren, areTemplateParameters, entry.parameters_eq ▸ areNamed, ?_⟩
    · exact Sieve.passes_option.mpr fun parent isSome => isParent.mem (Option.mem_toList.mpr isSome)
    · intro result parameters body isKind
      exact has.statements body (by simp [isKind, NodeKind.statements])
  statement := by
    intro id entry _ isEntry
    have has := isClosed.statement isEntry
    refine ⟨?_, ?_, ?_⟩
    · intro parent isParent
      exact has.statements parent (by simp [Statement.statements, isParent])
    · intro part isPart
      rw [Statement.parts_eq] at isPart
      exact has.statements part (mem_append_right _ isPart)
    · intro node declares
      exact has.nodes node (mem_cons_of_mem _ (Statement.mem_nodes_of_declares declares))
  missingNode := by
    intro id isHeld isMissing
    simp [bounds, holds, isMissing] at isHeld
  missingStatement := by
    intro id isHeld isMissing
    simp [bounds, holdsStatement, isMissing] at isHeld
  findSome? := by
    intro α body test isHeld
    have sameLevels := continues.levels isClosed wider.statements.size
      (forall_mem_singleton.mpr isHeld)
    have isLarger : tree.statements.size ≤ wider.statements.size := continues.statements.length_le
    rw [statementsWithin, sameLevels]
    exact isClosed.findSome?_levels isHeld isLarger test

end Tree

namespace Template

/-! ## The table of ranks -/

/-- The row of an overload in the table of ranks, which has one for each overload. -/
def row (tree : Tree) (overloads : List Symbol) (index : Fin overloads.length) : List Nat :=
  ranks tree (overloads.get index)

/-- Whether another row is nowhere lower and somewhere higher. -/
def isDominated (tree : Tree) (overloads : List Symbol) (index : Fin overloads.length) : Bool :=
  (List.finRange overloads.length).any fun other =>
    other != index && dominates (row tree overloads other) (row tree overloads index)

theorem dominates_self (ranks : List Nat) : dominates ranks ranks = false := by
  rw [dominates, Bool.and_eq_false_iff]
  right
  induction ranks with
  | nil => rfl
  | cons rank rest ih => simpa using ih

theorem isDominated_eq (tree : Tree) (overloads : List Symbol) (index : Fin overloads.length) :
    isDominated tree overloads index =
      overloads.any fun other =>
        dominates (ranks tree other) (ranks tree (overloads.get index)) := by
  rw [Bool.eq_iff_iff, isDominated, any_eq_true, any_eq_true]
  constructor
  · rintro ⟨other, -, passes⟩
    exact ⟨overloads.get other, get_mem overloads other, (Bool.and_eq_true_iff.mp passes).2⟩
  · rintro ⟨other, isOther, isHigher⟩
    obtain ⟨place, rfl⟩ := mem_iff_get.mp isOther
    refine ⟨place, mem_finRange place, Bool.and_eq_true_iff.mpr ⟨?_, isHigher⟩⟩
    rw [bne_iff_ne]
    rintro rfl
    exact Bool.false_ne_true ((dominates_self _).symm.trans isHigher)

theorem mostSpecialized_eq_rows (tree : Tree) (overloads : List Symbol) :
    mostSpecialized tree overloads =
      ((finRange overloads.length).filter fun index =>
        !isDominated tree overloads index).map overloads.get := by
  simp only [isDominated_eq]
  have isTable : (finRange overloads.length).map overloads.get = overloads :=
    map_get_finRange overloads
  rw [mostSpecialized]
  nth_rewrite 2 [← isTable]
  exact filter_map

end Template

/-! ## What a client comes to -/

/-- Whether a frame stands in the tree and binds only what is in it. -/
structure Frame.IsWithin (tree : Tree) (frame : Frame) : Prop where
  scope : tree.holds frame.scope = true
  statement : ∀ statement ∈ frame.statement, tree.holdsStatement statement = true
  bindings : tree.Encompasses frame.bindings

/-- Whether a state has a frame and names only what is in the tree. -/
structure State.IsWithin (tree : Tree) (state : State) : Prop where
  hasFrame : state.stack.frames ≠ []
  frames : ∀ frame ∈ state.stack.frames, frame.IsWithin tree
  memo : ∀ entry ∈ state.memo, tree.Encompasses entry.2
  log : tree.Encompasses state.log

theorem Frame.passes_bounds_iff {defaults : Options} {frame : Frame} :
    tree.bounds.PassesFrame defaults frame ↔ frame.IsWithin tree := by
  constructor
  · intro passes
    exact ⟨passes.scope, fun _ isStatement => passes.statement isStatement,
      Tree.passes_bounds_iff.mp passes.bindings⟩
  · intro isWithin
    exact ⟨isWithin.scope, fun isStatement => isWithin.statement _ isStatement,
      Tree.passes_bounds_iff.mpr isWithin.bindings, trivial⟩

theorem State.holds_bounds_iff {state : State} :
    tree.bounds.Holds 0 state ↔ state.IsWithin tree := by
  constructor
  · intro holds
    refine ⟨cons_ne_nil _ _, fun frame isFrame => ?_, fun entry isEntry => ?_, ?_⟩
    · exact Frame.passes_bounds_iff.mp (holds.frames frame isFrame)
    · exact passes_bounds_iff.mp (holds.memo entry isEntry trivial)
    · exact passes_bounds_iff.mp holds.log
  · intro isWithin
    refine ⟨fun frame isFrame => ?_, trivial, fun entry isEntry _ => ?_, Nat.zero_le _, ?_⟩
    · exact Frame.passes_bounds_iff.mpr (isWithin.frames frame isFrame)
    · exact passes_bounds_iff.mpr (isWithin.memo entry isEntry)
    · exact passes_bounds_iff.mpr isWithin.log

/-- The states that a client comes to that hands over only what is in the tree. -/
inductive Visited (program : Program) : State → Prop
  | start {scope : NodeId} {statement : Option StatementId}
      (isScope : program.tree.holds scope = true)
      (isStatement : ∀ id ∈ statement, program.tree.holdsStatement id = true) :
      Visited program (.start scope statement)
  | push {state : State} {frame : Frame}
      (before : Visited program state)
      (isWithin : frame.IsWithin program.tree) :
      Visited program (state.push frame)
  | pop {state rest : State} {frame : Frame}
      (before : Visited program state)
      (isRest : state.pop? = some (frame, rest)) :
      Visited program rest
  | truncate {state : State} (depth : Nat)
      (before : Visited program state) :
      Visited program (state.truncate depth)
  | setDefaults {state : State} (defaults : Options)
      (before : Visited program state) :
      Visited program { state with defaults }
  | setGuard {state : State} (guard : Guard)
      (before : Visited program state) :
      Visited program { state with guard }
  | cancel {state : State}
      (before : Visited program state) :
      Visited program { state with isCancelled := true }
  | report {state : State} {diagnostic : Diagnostic}
      (before : Visited program state)
      (isWithin : program.tree.Encompasses diagnostic) :
      Visited program (state.report diagnostic)
  | check {state : State} {results : List Symbol} {origin : Option NodeId} (subject : String)
      (before : Visited program state)
      (areWithin : program.tree.Encompasses results)
      (isWithin : program.tree.Encompasses origin) :
      Visited program (state.checkSingle results subject origin).2
  | clearLog {state : State}
      (before : Visited program state) :
      Visited program { state with log := [] }
  | remember {state : State} (name : String) {symbols : List Symbol}
      (before : Visited program state)
      (isWithin : program.tree.Encompasses symbols) :
      Visited program (state.remember name symbols)
  | run {α : Type} {state final : State} {result : α} {operation : Operation α}
      (evaluator : Evaluator) (limit : Nat)
      (before : Visited program state)
      (isWithin : program.tree.Encompasses operation)
      (returned :
        Engine.run program evaluator limit operation.query state = .ok (result, final)) :
      Visited program final

/-- The same program with another tree, in which its modules are where they were. -/
def Program.withTree (program : Program) (tree : Tree) : Program :=
  { program with tree }

section Programs

variable {program : Program} {state : State}

theorem Program.bounds_fits (isClosed : program.tree.IsClosed) (holdsModules : program.HoldsModules)
    (continues : program.tree.ContinuesTo wider) :
    program.tree.bounds.Fits program (program.withTree wider) where
  tree := isClosed.covers continues
  modules := rfl
  root := rfl
  isModule isModule := holdsModules _ _ isModule
  bases _ _ := trivial
  tag isHeld _ _ _ := isHeld
  union _ _ := trivial

theorem Operation.run_confines
    (isClosed : program.tree.IsClosed) (holdsModules : program.HoldsModules)
    (continues : program.tree.ContinuesTo wider) (stateWithin : state.IsWithin program.tree)
    {operation : Operation α} (isWithin : program.tree.Encompasses operation)
    (evaluator : Evaluator) (limit : Nat) :
    program.tree.bounds.Confines 0 (@Sieve.Passes α operation.result program.tree.bounds)
      (Engine.run program evaluator limit operation.query state)
      (Engine.run (program.withTree wider) evaluator limit operation.query state) := by
  let realm : Realm :=
    { program.tree.bounds with
      narrow := program
      wide := program.withTree wider
      fits := Program.bounds_fits isClosed holdsModules continues
      within := fun _ _ => True }
  have passes : realm.Passes operation := passes_bounds_iff.mpr isWithin
  exact Engine.run_confines (Operation.query_confined passes) evaluator limit
    (holds_bounds_iff.mpr stateWithin)

/-- Whatever a client does that hands over only what is in the tree, the state stays within it. -/
theorem Visited.isWithin (isClosed : program.tree.IsClosed) (holdsModules : program.HoldsModules)
    (visited : Visited program state) : state.IsWithin program.tree := by
  induction visited with
  | start isScope isStatement =>
    have isEmpty {β : Type} [Composite β] : program.tree.Encompasses ([] : List β) :=
      passes_bounds_iff.mp Sieve.passes_nil
    refine ⟨cons_ne_nil _ _, forall_mem_singleton.mpr ⟨isScope, isStatement, ?_⟩,
      fun _ isEntry => absurd isEntry not_mem_nil, isEmpty⟩
    exact passes_bounds_iff.mp Sieve.passes_noBindings
  | push before isWithin ih =>
    have holds := holds_bounds_iff.mpr ih
    exact holds_bounds_iff.mp (holds.push (Frame.passes_bounds_iff.mpr isWithin))
  | @pop state rest frame before isRest ih =>
    obtain ⟨⟨top, stack⟩, isStack, isPair⟩ := Option.map_eq_some_iff.mp isRest
    cases isPair
    refine ⟨cons_ne_nil _ _, fun other isOther => ?_, ih.memo, ih.log⟩
    apply ih.frames other
    unfold Stack.pop? at isStack
    split at isStack
    · cases isStack
    next isBelow =>
      cases isStack
      rw [Stack.frames, isBelow]
      exact mem_cons_of_mem _ isOther
  | truncate depth before ih =>
    have holds := holds_bounds_iff.mpr ih
    exact holds_bounds_iff.mp (holds.truncate depth)
  | setDefaults | setGuard | cancel =>
    rename_i ih
    exact ⟨ih.hasFrame, ih.frames, ih.memo, ih.log⟩
  | report before isWithin ih =>
    have holds := holds_bounds_iff.mpr ih
    exact holds_bounds_iff.mp (holds.report (passes_bounds_iff.mpr isWithin))
  | check subject before areWithin isWithin ih =>
    have holds := holds_bounds_iff.mpr ih
    have isOrigin := passes_bounds_iff.mpr isWithin
    have areResults := passes_bounds_iff.mpr areWithin
    unfold checkSingle
    split
    · exact ih
    · exact holds_bounds_iff.mp (holds.report (Sieve.passes_nothingFound.mpr isOrigin))
    · exact holds_bounds_iff.mp
        (holds.report (Sieve.passes_ambiguity.mpr ⟨isOrigin, areResults⟩))
  | clearLog before ih =>
    exact ⟨ih.hasFrame, ih.frames, ih.memo, passes_bounds_iff.mp Sieve.passes_nil⟩
  | remember name before isWithin ih =>
    have holds := holds_bounds_iff.mpr ih
    exact holds_bounds_iff.mp (holds.remember name (passes_bounds_iff.mpr isWithin))
  | run evaluator limit before isWithin returned ih =>
    have confines := Operation.run_confines isClosed holdsModules (.refl _) ih
      isWithin evaluator limit
    exact holds_bounds_iff.mp (confines.returned returned).2

end Programs

/--
Nothing outside of the tree is ever read or named.

The tree was drafted by steps that named only what was there by then, and so far
the client has handed over only what is in it. Then every operation on what is in
the tree, and everything that is read off the state, comes out the same whatever
else the tree goes on with. No run ends because a declaration, a statement or a
parameter is missing, and results, log, memo and frames name only what is in the
tree. The table by which overloads are compared has a row for each of them.
-/
theorem nothing_outside_tree_is_read
    {tree : Tree}
    (isDrafted : tree.IsDraftedWithin)
    {state : State}
    (visited : Visited (.ofTree tree) state) :
    (∀ {α : Type} (operation : Operation α), tree.Encompasses operation →
        ∀ evaluator limit,
          (∀ wider, tree.ContinuesTo wider →
              Engine.run ((Program.ofTree tree).withTree wider) evaluator limit operation.query
                  state =
                Engine.run (.ofTree tree) evaluator limit operation.query state) ∧
            (∀ reason,
                Engine.run (.ofTree tree) evaluator limit operation.query state =
                    .error reason →
                  reason.isMissing = false) ∧
            ∀ result final,
              Engine.run (.ofTree tree) evaluator limit operation.query state =
                  .ok (result, final) →
                @Tree.Encompasses α operation.result tree result ∧ final.IsWithin tree) ∧
      (∀ {α : Type} (inspection : Inspection α), tree.Encompasses inspection →
          (∀ wider, tree.ContinuesTo wider →
          inspection.read wider state = inspection.read tree state) ∧
            @Tree.Encompasses α inspection.result tree (inspection.read tree state)) ∧
      ∀ overloads,
        Template.mostSpecialized tree overloads =
          ((List.finRange overloads.length).filter fun index =>
            !Template.isDominated tree overloads index).map overloads.get := by
  obtain ⟨isTree, holdsModules⟩ := Program.ofTree_spec tree
  have isClosed := isDrafted.isClosed
  generalize Program.ofTree tree = program at isTree holdsModules visited ⊢
  subst isTree
  have stateWithin := visited.isWithin isClosed holdsModules
  refine ⟨?_, ?_, Template.mostSpecialized_eq_rows program.tree⟩
  · intro α operation isWithin evaluator limit
    have confines {wider : Tree} (continues : program.tree.ContinuesTo wider) :=
      Operation.run_confines isClosed holdsModules continues stateWithin isWithin evaluator limit
    refine ⟨fun wider continues => (confines continues).same, fun reason halted => ?_, ?_⟩
    · exact Bool.eq_false_iff.mpr fun isMissing => (confines (.refl _)).halted halted isMissing
    · intro result final returned
      obtain ⟨passes, holds⟩ := (confines (.refl _)).returned returned
      exact ⟨(@passes_bounds_iff _ _ operation.result _).mp passes,
        holds_bounds_iff.mp holds⟩
  · intro α inspection isWithin
    have holds := holds_bounds_iff.mpr stateWithin
    have passes := passes_bounds_iff.mpr isWithin
    refine ⟨fun wider continues => Inspection.read_eq (isClosed.covers continues) holds passes, ?_⟩
    exact (@passes_bounds_iff _ _ inspection.result _).mp
      (Inspection.passes_read holds program.tree passes)

/-- A function with a local variable of a struct type, and one that shares its body. -/
def Tree.structLocal : Tree :=
  .ofStepsWithin
    [.module "m",
      .member ⟨0⟩ "S" (.aggregate .structType false []),
      .member ⟨1⟩ "x" (.var (some (.basic .int)) none),
      .member ⟨0⟩ "f" (.method none [] none),
      .body ⟨3⟩,
      .localVariable ⟨0⟩ "s" (some (.named "S")) none,
      .member ⟨0⟩ "g" (.method none [⟨4⟩] (some ⟨0⟩))]

/-- The symbol of the local variable names the variable and its type, which are in the tree. -/
theorem nothing_outside_structLocal_is_read :
    Tree.structLocal.IsDraftedWithin ∧
      Visited (.ofTree .structLocal) (.start ⟨3⟩ (some ⟨0⟩)) ∧
      ∃ result final,
        Engine.run (.ofTree .structLocal) .standard 9
              (Operation.declarationSymbol ⟨4⟩ none).query (.start ⟨3⟩ (some ⟨0⟩)) =
            .ok (result, final) ∧
          [⟨4⟩, ⟨1⟩] ⊆ nodes result ∧
            Tree.structLocal.Encompasses result ∧ final.IsWithin .structLocal := by
  have isDrafted : structLocal.IsDraftedWithin :=
    isDraftedWithin_ofStepsWithin (by decide +kernel)
  have visited : Visited (.ofTree .structLocal) (.start ⟨3⟩ (some ⟨0⟩)) := by
    refine .start ?_ ?_
    · decide +kernel
    · decide +kernel
  have isWithin : structLocal.Encompasses (Operation.declarationSymbol ⟨4⟩ none) := by
    have names : nodes (Operation.declarationSymbol ⟨4⟩ none) = [⟨4⟩] := rfl
    intro node isNode
    obtain rfl := mem_singleton.mp (names ▸ isNode)
    decide +kernel
  refine ⟨isDrafted, visited, exists_returned
    (fun outcome => (nodes outcome.1).contains ⟨4⟩ && (nodes outcome.1).contains ⟨1⟩)
    (by decide +kernel) fun result final returned areNamed => ?_⟩
  obtain ⟨operations, -⟩ := nothing_outside_tree_is_read isDrafted visited
  obtain ⟨-, -, returns⟩ := operations _ isWithin .standard 9
  obtain ⟨isResult, isFinal⟩ := returns result final returned
  refine ⟨?_, isResult, isFinal⟩
  simp only [Bool.and_eq_true, contains_iff_mem] at areNamed
  exact cons_subset.mpr ⟨areNamed.1, cons_subset.mpr ⟨areNamed.2, nil_subset _⟩⟩

end DScope
