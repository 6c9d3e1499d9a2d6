import Mathlib.Data.Fintype.Card
import Mathlib.Data.Set.Finite.Basic
import Mathlib.Logic.Relation
import DScope.Proofs.Importing

namespace DScope

variable {name : String} {tree : Tree} {scope id : NodeId} {program : Program}
  {evaluator : Evaluator} {state : State} {entry : Node} {declaration : Declaration}
  {declarations : List Declaration}

/-!
# Cycles of selective imports

A scan of modules marks those that it has seen, so imports of whole modules may
form any graph. A selective binding starts a new scan in its module and reads what
it finds there, which may be a binding that the module imports publicly. In modules
of variables and imports a name can be resolved exactly if no binding under it leads
around a circle of bindings.
-/

open List Query Engine Program

namespace Program

/-- The scan that a selective binding starts for what it imports. -/
def bindingScan (program : Program) (id : NodeId) (target : String) (root : NodeId) : Scan :=
  ({ name := some target, filter := .all,
     home := program.tree.rootOf (program.tree.scopeOf id) } : Scan).module program
    (program.tree.nodes.size + 1) root

/-- The declarations that a selective binding leads to. -/
def targets (program : Program) (id : NodeId) : List Declaration :=
  match (program.tree.node? id).map Node.kind with
  | some (.importBinding module target) =>
    match program.module? module with
    | some root => (program.bindingScan id target root).found
    | none => []
  | _ => []

/-- A declaration leads to another one by a selective binding. -/
def LeadsTo (program : Program) (id next : NodeId) : Prop :=
  ∃ declaration ∈ program.targets id, declaration.node = next

/-- A declaration leads, by way of selective bindings, to one that leads back to itself. -/
def IsCircular (program : Program) (id : NodeId) : Prop :=
  ∃ loop,
    Relation.ReflTransGen program.LeadsTo id loop ∧ Relation.TransGen program.LeadsTo loop loop

theorem isInside_bindingScan (id : NodeId) (target : String) (root : NodeId) :
    (program.bindingScan id target root).IsInside program.tree := by
  apply Scan.IsInside.module
  intro declaration isMember
  cases isMember

theorem holds_of_leadsTo {next : NodeId} (leads : program.LeadsTo id next) :
    program.tree.holds next = true := by
  obtain ⟨declaration, isTarget, rfl⟩ := leads
  unfold targets at isTarget
  split at isTarget
  · split at isTarget
    · exact isInside_bindingScan _ _ _ declaration isTarget
    · cases isTarget
  · cases isTarget

theorem isCircular_of_self (isTarget : id ∈ (program.targets id).map Declaration.node) :
    program.IsCircular id :=
  ⟨id, .refl, .single (mem_map.mp isTarget)⟩

theorem IsCircular.exists_target (isCircular : program.IsCircular id) :
    ∃ declaration ∈ program.targets id, program.IsCircular declaration.node := by
  obtain ⟨loop, reaches, circles⟩ := isCircular
  rcases reaches.cases_head with rfl | ⟨next, ⟨declaration, isTarget, rfl⟩, reaches⟩
  · obtain ⟨next, ⟨declaration, isTarget, rfl⟩, returns⟩ := Relation.TransGen.head'_iff.mp circles
    exact ⟨declaration, isTarget, id, returns, circles⟩
  · exact ⟨declaration, isTarget, loop, reaches, circles⟩

theorem finite_reached (id : NodeId) :
    { next | Relation.ReflTransGen program.LeadsTo id next }.Finite := by
  apply (finite_toSet (id :: program.tree.nodeIds)).subset
  intro next reaches
  rcases reaches.cases_tail with rfl | ⟨previous, -, leads⟩
  · exact mem_cons_self
  · exact mem_cons_of_mem _ (Tree.mem_nodeIds_of_holds (holds_of_leadsTo leads))

theorem acc_of_not_isCircular (isStraight : ¬program.IsCircular id) :
    Acc (fun later earlier => program.LeadsTo earlier later) id := by
  -- Elsewhere in the tree there may be circles: only what is reached from here is well-founded.
  let Reached := { next // Relation.ReflTransGen program.LeadsTo id next }
  let below (later earlier : Reached) : Prop := Relation.TransGen program.LeadsTo earlier.1 later.1
  have : Finite Reached := (finite_reached id).to_subtype
  have : Std.Irrefl below := ⟨fun reached circles => isStraight ⟨reached.1, reached.2, circles⟩⟩
  have isWellFounded : WellFounded below := Finite.wellFounded_of_trans_of_irrefl below
  have ends :
      ∀ reached : Reached, Acc (fun later earlier => program.LeadsTo earlier later) reached.1 := by
    intro reached
    induction reached using isWellFounded.induction with
    | _ reached ih =>
      refine Acc.intro _ fun later leads => ?_
      exact ih ⟨later, reached.2.tail leads⟩ (.single leads)
  exact ends ⟨id, .refl⟩

end Program

namespace Symbol

theorem toldApart_ofCandidates?
    {symbols : List Symbol} (areInert : ∀ symbol ∈ symbols, symbol.IsInert program) :
    toldApart (ofCandidates? symbols) = symbols := by
  cases symbols with
  | nil => rfl
  | cons symbol rest =>
    cases rest with
    | nil => exact (areInert symbol mem_cons_self).candidates_eq
    | cons next rest => rfl

end Symbol

namespace Program

theorem targets_eq {root : NodeId} {module target : String}
    (isEntry : program.tree.node? id = some entry)
    (isBinding : entry.kind = .importBinding module target)
    (isModule : program.module? module = some root) :
    program.targets id = (program.bindingScan id target root).found := by
  simp [targets, isEntry, isBinding, isModule]

theorem isBinding_of_mem_targets (isTarget : declaration ∈ program.targets id) :
    ∃ entry module target root,
      program.tree.node? id = some entry ∧
        entry.kind = .importBinding module target ∧ program.module? module = some root := by
  unfold targets at isTarget
  split at isTarget
  next module target isBinding =>
    obtain ⟨entry, isEntry, isKind⟩ := Option.map_eq_some_iff.mp isBinding
    split at isTarget
    next root isModule => exact ⟨entry, module, target, root, isEntry, isKind, isModule⟩
    next => cases isTarget
  next => cases isTarget

end Program

namespace DeclaredSymbol

variable {given : Bindings} {module target : String}

theorem reads_targets {root : NodeId} (onlyImports : program.OnlyImports)
    (isEntry : program.tree.node? id = some entry)
    (isBinding : entry.kind = .importBinding module target)
    (isModule : program.module? module = some root) :
    Reads program (state.reading program.tree id given)
      (Lookup.members (.module root) target .all) (program.targets id) := by
  have isScopeHeld := Tree.holds_scopeOf isEntry (onlyImports.imports isEntry)
  obtain ⟨scopeEntry, isScopeEntry⟩ := Option.isSome_iff_exists.mp isScopeHeld
  have starts :
      Reads program (state.reading program.tree id given)
        (Lookup.start (some target) .all)
        { name := some target, filter := .all,
          home := program.tree.rootOf (program.tree.scopeOf id) } :=
    Lookup.reads_start isScopeEntry
  have isRootHeld := onlyImports.holdsModules module root isModule
  rw [targets_eq isEntry isBinding isModule]
  exact .bind starts (.bind (Lookup.reads_scanModule isRootHeld _) (.pure _))

/-- What is yielded for a declaration from which every chain of bindings ends. -/
def YieldsInert (program : Program) (evaluator : Evaluator) (state : State)
    (query : Query (Option Symbol)) : Prop :=
  ∃ value,
    Engine.Yields program evaluator state query value ∧
      ∀ symbol ∈ Symbol.toldApart value, symbol.IsInert program

theorem yieldsInert_symbolsOf (isRunning : state.isCancelled = false)
    (each :
      ∀ declaration ∈ declarations,
        YieldsInert program evaluator state (symbolThrough declaration.node declaration.via)) :
    ∃ symbols,
      Yields program evaluator state (symbolsOf declarations) symbols ∧
        ∀ symbol ∈ symbols, symbol.IsInert program := by
  have chosen :
      ∀ declaration, ∃ value,
        declaration ∈ declarations →
          Yields program evaluator state (symbolThrough declaration.node declaration.via) value ∧
            ∀ symbol ∈ Symbol.toldApart value, symbol.IsInert program := by
    intro declaration
    by_cases isMember : declaration ∈ declarations
    · obtain ⟨value, yields⟩ := each declaration isMember
      exact ⟨value, fun _ => yields⟩
    · exact ⟨none, fun isMember' => absurd isMember' isMember⟩
  obtain ⟨gives, yields⟩ := Classical.skolem.mp chosen
  refine ⟨_, yields_symbolsOf isRunning fun declaration isMember =>
    (yields declaration isMember).1, ?_⟩
  intro symbol isSymbol
  obtain ⟨declaration, isMember, isGiven⟩ := mem_flatMap.mp isSymbol
  exact (yields declaration isMember).2 symbol isGiven

variable (onlyImports : program.OnlyImports) (isRunning : state.isCancelled = false)
include onlyImports isRunning

theorem yieldsInert_ofImportBinding (isEntry : program.tree.node? id = some entry)
    (isBinding : entry.kind = .importBinding module target)
    (each :
      ∀ declaration ∈ program.targets id,
        YieldsInert program evaluator (state.reading program.tree id given)
          (symbolThrough declaration.node declaration.via)) :
    YieldsInert program evaluator (state.reading program.tree id given)
      (ofImportBinding id module target) := by
  cases isModule : program.module? module with
  | none =>
    refine ⟨none, .bind (.ofReads .wholeProgram) ?_, nofun⟩
    rw [isModule]
    exact .pure none
  | some root =>
    have isReading : (state.reading program.tree id given).isCancelled = false := isRunning
    obtain ⟨symbols, yields, areInert⟩ := yieldsInert_symbolsOf isReading each
    have areTaggedInert :
        ∀ symbol ∈ symbols.map (·.withTag (.aliased id)), symbol.IsInert program := by
      intro symbol isSymbol
      obtain ⟨untagged, isMember, rfl⟩ := mem_map.mp isSymbol
      exact (areInert untagged isMember).withTag _
    refine ⟨Symbol.ofCandidates? (symbols.map (·.withTag (.aliased id))),
      .bind (.ofReads .wholeProgram) ?_, ?_⟩
    · rw [isModule]
      exact .bind (.ofReads (reads_targets onlyImports isEntry isBinding isModule))
        (.bind yields (.pure _))
    · rw [Symbol.toldApart_ofCandidates? areTaggedInert]
      exact areTaggedInert

theorem yieldsInert_visit (isEntry : program.tree.node? id = some entry)
    (each :
      ∀ declaration ∈ program.targets id,
        YieldsInert program evaluator (state.reading program.tree id given)
          (symbolThrough declaration.node declaration.via))
    (reach : Reach) (bindings : Bindings) :
    YieldsInert program evaluator (state.reading program.tree id given)
      (visit id entry reach bindings) := by
  have isReading : (state.reading program.tree id given).isCancelled = false := isRunning
  have imports := onlyImports.imports isEntry
  unfold visit
  rcases imports.kind_eq with isModule | ⟨type, initializer, isVariable⟩ | ⟨_, _, _, isImport⟩ |
      ⟨module, target, isBinding⟩
  · rw [isModule]
    refine ⟨some (.module id), .pure _, fun symbol isSymbol => ?_⟩
    cases mem_singleton.mp isSymbol
    exact Symbol.isInert_of_definition? isEntry imports.isPlain rfl rfl (by rintro _ ⟨⟩)
  · rw [isVariable]
    have resolves :
        Yields program evaluator (state.reading program.tree id given)
          (resolve (.basic type)) [.primitive type] := by
      apply Yields.ask
      apply Yields.bind (.ofReads .isCancelled)
      rw [isReading]
      exact .pure _
    have areInert :
        ∀ base, ∀ symbol ∈ Symbol.toldApart (some (.member id base bindings)),
          symbol.IsInert program := by
      intro base symbol isSymbol
      cases mem_singleton.mp isSymbol
      exact Symbol.isInert_of_definition? isEntry imports.isPlain rfl rfl (by rintro _ ⟨⟩)
    dsimp only
    split
    · exact ⟨_, .bind (.bind resolves (.pure _)) (.pure _), areInert _⟩
    · exact ⟨_, .bind (.pure none) (.pure _), areInert _⟩
  · rw [isImport]
    exact ⟨none, .pure none, nofun⟩
  · rw [isBinding]
    exact yieldsInert_ofImportBinding onlyImports isRunning isEntry isBinding each

theorem yieldsInert_of_acc (evaluator : Evaluator)
    (ends : Acc (fun later earlier => program.LeadsTo earlier later) id)
    (isHeld : program.tree.holds id = true) (isPositive : state.guard.IsPositive)
    (given : Bindings) : YieldsInert program evaluator state (symbolOf id given) := by
  -- Along the chain the frames and the guard grow, so the state is general.
  induction ends generalizing state given with
  | intro id _ ih =>
    obtain ⟨entry, isEntry⟩ := Option.isSome_iff_exists.mp isHeld
    have each :
        ∀ declaration ∈ program.targets id,
          YieldsInert program evaluator (state.reading program.tree id given)
            (symbolThrough declaration.node declaration.via) := by
      intro declaration isTarget
      have leads : program.LeadsTo id declaration.node := ⟨declaration, isTarget, rfl⟩
      have isReading : (state.reading program.tree id given).isCancelled = false := isRunning
      exact ih declaration.node leads isReading (holds_of_leadsTo leads)
        (isPositive.enter id) _
    obtain ⟨value, yields, areInert⟩ :=
      yieldsInert_visit onlyImports isRunning isEntry each
        (.ofOptions state.options ((state.guard.enter id).depth id))
        (attached program.tree state.stack id entry given)
    exact ⟨value, yields_symbolOf isRunning isPositive isEntry yields, areInert⟩

theorem exceeds_symbolsOf {limit : Nat} (isPositive : state.guard.IsPositive)
    (areHeld : ∀ declaration ∈ declarations, program.tree.holds declaration.node = true)
    (isMember : declaration ∈ declarations) (isCircular : program.IsCircular declaration.node)
    (exceeds :
      ∀ id given, program.IsCircular id →
        Exceeds program evaluator limit state (symbolOf id given)) :
    Exceeds program evaluator limit state (symbolsOf declarations) := by
  refine .collect isRunning ?_ isMember (.bind (exceeds _ _ isCircular))
  -- Those that are read before it leave the state as it is, or exceed the limit themselves.
  intro other isOther
  by_cases isOtherCircular : program.IsCircular other.node
  · exact .inl (.bind (exceeds _ _ isOtherCircular))
  · obtain ⟨value, yields, -⟩ :=
      yieldsInert_of_acc onlyImports isRunning evaluator
        (acc_of_not_isCircular isOtherCircular) (areHeld other isOther) isPositive
        ((other.via.map Symbol.bindings).getD .none)
    have settles :
        Yields program evaluator state (symbolsThrough other) (Symbol.toldApart value) :=
      .bind yields (.pure _)
    have orderly :
        Orderly program (fun _ _ => True) .plain (fun _ => True) (symbolsThrough other) :=
      (symbolsThrough_confined (fun _ _ => trivial) (Sieve.passes_whole other)).orderly
    rcases settles.run_eq_or orderly limit with returns | exceedsOther
    · exact .inr ⟨_, returns⟩
    · exact .inl exceedsOther

/-- A declaration that leads into a circle exceeds every limit. -/
theorem exceeds_of_isCircular (isCircular : program.IsCircular id)
    (isPositive : state.guard.IsPositive) (given : Bindings) (limit : Nat) :
    Exceeds program evaluator limit state (symbolOf id given) := by
  -- A lower limit is left for the next declaration around the circle, read in a further frame.
  induction limit generalizing state id given with
  | zero => exact .ask_zero _
  | succ limit ih =>
    obtain ⟨declaration, isTarget, isNextCircular⟩ := isCircular.exists_target
    obtain ⟨entry, module, target, root, isEntry, isBinding, isModule⟩ :=
      isBinding_of_mem_targets isTarget
    have isReading : (state.reading program.tree id given).isCancelled = false := isRunning
    have isEntered : (state.reading program.tree id given).guard.IsPositive := isPositive.enter id
    have exceedsSymbols :
        Exceeds program evaluator limit (state.reading program.tree id given)
          (symbolsOf (program.targets id)) := by
      refine exceeds_symbolsOf onlyImports isReading isEntered ?_ isTarget
        isNextCircular ?_
      · exact fun other isOther => holds_of_leadsTo ⟨other, isOther, rfl⟩
      · exact fun other given isOtherCircular =>
          ih isReading isOtherCircular isEntered given
    apply Exceeds.bind_ofReads (.node isEntry)
    apply Exceeds.bind_ofReads .tree
    apply Exceeds.bind_ofReads .options
    apply Exceeds.bind_ofReads .get
    apply Exceeds.visiting
    refine .bind (.withFrame isRunning ?_)
    unfold visit
    rw [isBinding]
    apply Exceeds.bind_ofReads .wholeProgram
    rw [isModule]
    apply Exceeds.bind_ofReads (reads_targets onlyImports isEntry isBinding isModule)
    exact .bind exceedsSymbols

end DeclaredSymbol

namespace Lookup

theorem isInert_namesakes (onlyImports : program.OnlyImports) :
    ∀ symbol ∈ program.namesakes name, symbol.IsInert program := by
  intro symbol isSymbol
  rcases program.namesakes_cases name with ⟨root, isModule, areNamed⟩ | areNamed | areNamed
  · rw [areNamed] at isSymbol
    have isHeld := onlyImports.holdsModules name root isModule
    obtain ⟨entry, isEntry⟩ := Option.isSome_iff_exists.mp isHeld
    cases mem_singleton.mp isSymbol
    exact Symbol.isInert_of_definition? isEntry (onlyImports.imports isEntry).isPlain rfl rfl
      (by rintro _ ⟨⟩)
  · rw [areNamed] at isSymbol
    cases mem_singleton.mp isSymbol
    exact ⟨nofun, rfl, nofun⟩
  · rw [areNamed] at isSymbol
    cases isSymbol

theorem yieldsInert_candidates
    (onlyImports : program.OnlyImports) (isRunning : state.isCancelled = false)
    (isPositive : state.guard.IsPositive)
    (isVisible : Reads program state (visible name .all) declarations)
    (areHeld : ∀ declaration ∈ declarations, program.tree.holds declaration.node = true)
    (areStraight : ∀ declaration ∈ declarations, ¬program.IsCircular declaration.node) :
    ∃ symbols,
      Yields program evaluator state (candidates name) symbols ∧
        ∀ symbol ∈ symbols, symbol.IsInert program := by
  by_cases isEmpty : declarations = []
  · subst isEmpty
    exact ⟨program.namesakes name, yields_namesakes (.ofReads isVisible),
      isInert_namesakes onlyImports⟩
  · obtain ⟨symbols, yields, areInert⟩ :=
      DeclaredSymbol.yieldsInert_symbolsOf isRunning fun declaration isMember =>
        DeclaredSymbol.yieldsInert_of_acc onlyImports isRunning evaluator
          (acc_of_not_isCircular (areStraight declaration isMember))
          (areHeld declaration isMember) isPositive _
    exact ⟨symbols, settles_candidates (.ofReads isVisible) isEmpty yields, areInert⟩

end Lookup

theorem Resolution.exceeds_ofName {limit : Nat} (isNew : state.remembered? name = none)
    (exceeds : Exceeds program evaluator limit state (searchName name)) :
    Exceeds program evaluator limit state (ofName name) := by
  unfold Exceeds at exceeds ⊢
  rw [run_apply] at exceeds
  rw [run_apply, ofName_apply, isNew]
  rw [exceeds]

/-- A module of a tree of variables and imports, from which names are resolved. -/
structure Program.IsHome (program : Program) (scope : NodeId) : Prop where
  onlyImports : program.OnlyImports
  isModule :
    ∃ entry, program.tree.node? scope = some entry ∧ entry.kind = .module ∧ entry.parent = none

theorem Program.isHome_ofTree (isImporting : tree.isImporting = true)
    (isEntry : tree.node? scope = some entry) (isRoot : isModuleRoot entry = true) :
    (ofTree tree).IsHome scope := by
  refine ⟨onlyImports_ofTree isImporting, entry, (ofTree_spec tree).1.symm ▸ isEntry, ?_⟩
  unfold isModuleRoot at isRoot
  split at isRoot
  next isParent isKind => exact ⟨isKind, isParent⟩
  next => cases isRoot

namespace Resolution

variable {scope : NodeId}

theorem isPositive_start : (State.start scope none).guard.IsPositive :=
  nofun

theorem exists_visible (isHome : program.IsHome scope) (name : String) :
    ∃ declarations,
      Reads program (.start scope none) (Lookup.visible name .all) declarations ∧
        ∀ declaration ∈ declarations, program.tree.holds declaration.node = true := by
  obtain ⟨entry, isEntry, isKind, isRoot⟩ := isHome.isModule
  have isScope : program.tree.node? (State.start scope none).stack.top.scope = some entry := isEntry
  exact Lookup.reads_visible_of_isModule isHome.onlyImports rfl isScope isKind isRoot name

variable (isHome : program.IsHome scope)
  (isVisible : Reads program (.start scope none) (Lookup.visible name .all) declarations)
  (areHeld : ∀ declaration ∈ declarations, program.tree.holds declaration.node = true)
include isHome isVisible areHeld

theorem settles_of_not_isCircular
    (areStraight : ∀ declaration ∈ declarations, ¬program.IsCircular declaration.node) :
    ∃ symbols final, Settles program evaluator (ofName name) (.start scope none) symbols final := by
  obtain ⟨symbols, yields, areInert⟩ :=
    Lookup.yieldsInert_candidates isHome.onlyImports rfl isPositive_start
      isVisible areHeld areStraight
  exact ⟨symbols, _, settles_ofName rfl (yields_searchName rfl yields areInert) rfl⟩

theorem exceeds_of_isCircular (isMember : declaration ∈ declarations)
    (isCircular : program.IsCircular declaration.node) (limit : Nat) :
    Exceeds program evaluator limit (.start scope none) (ofName name) := by
  have exceeds :
      Exceeds program evaluator limit (.start scope none) (symbolsOf declarations) :=
    DeclaredSymbol.exceeds_symbolsOf isHome.onlyImports rfl isPositive_start
      areHeld isMember isCircular fun id given isOtherCircular =>
        DeclaredSymbol.exceeds_of_isCircular isHome.onlyImports rfl isOtherCircular
          isPositive_start given limit
  exact exceeds_ofName rfl (.bind (.bind_ofReads isVisible (.bind exceeds)))

end Resolution

/--
In modules of variables and imports, from each of them, every name under which no
declaration leads into a circle of selective bindings is resolved, and every other
name exceeds every limit. Scans of modules are not ended by the number of their
steps: more steps change nothing.
-/
theorem import_resolution_ends_unless_circular
    (tree : Tree)
    (evaluator : Evaluator)
    (isImporting : tree.isImporting = true)
    {scope : NodeId}
    {entry : Node}
    (isEntry : tree.node? scope = some entry)
    (isRoot : Program.isModuleRoot entry = true)
    (name : String) :
    (∀ (scan : Scan) (id : NodeId) (steps : Nat),
      tree.nodes.size < steps →
        scan.module (.ofTree tree) steps id =
          scan.module (.ofTree tree) (tree.nodes.size + 1) id) ∧
      ∃ declarations,
        Engine.Settles (.ofTree tree) evaluator (Operation.lookup name .all).query
            (.start scope none) declarations (.start scope none) ∧
          ((∀ declaration ∈ declarations, ¬(Program.ofTree tree).IsCircular declaration.node) →
            ∃ symbols final,
              Engine.Settles (.ofTree tree) evaluator (Operation.resolveIdentifier name).query
                (.start scope none) symbols final) ∧
          ((∃ declaration ∈ declarations, (Program.ofTree tree).IsCircular declaration.node) →
            ∀ limit,
              Engine.run (.ofTree tree) evaluator limit (Operation.resolveIdentifier name).query
                  (.start scope none) =
                .error .depthExceeded) := by
  have isHome := isHome_ofTree isImporting isEntry isRoot
  obtain ⟨declarations, isVisible, areHeld⟩ := Resolution.exists_visible isHome name
  refine ⟨fun scan id steps isEnough => ?_, declarations, Yields.ofReads isVisible, ?_, ?_⟩
  · have isTree := (ofTree_spec tree).1
    rw [← isTree] at isEnough
    exact (Scan.module_eq_of_lt isEnough scan id).trans (by rw [isTree])
  · intro areStraight
    exact Resolution.settles_of_not_isCircular isHome isVisible areHeld areStraight
  · rintro ⟨declaration, isMember, isCircular⟩ limit
    exact Resolution.exceeds_of_isCircular isHome isVisible areHeld isMember isCircular limit

/--
Two modules that import each other as a whole, and selectively: `x` of the first is `y` of the
second, and each has its `z` from the other.
-/
def Tree.entwined : Tree :=
  let drafting : Drafting Unit := do
    let first ← Draft.addModule "first"
    discard <| Draft.addMember first "second" (.importModule "second" true false)
    let selection ← Draft.addMember first "second" (.importModule "second" true false)
    discard <| Draft.addImportBinding selection "x" "y"
    discard <| Draft.addImportBinding selection "z" "z"
    let second ← Draft.addModule "second"
    discard <| Draft.addMember second "first" (.importModule "first" true false)
    discard <| Draft.addMember second "y" (.var (some (.basic .int)) none)
    let back ← Draft.addMember second "first" (.importModule "first" true false)
    discard <| Draft.addImportBinding back "z" "z"
  (drafting.run {}).2.tree

/-- Whether a name leads to the given declarations. -/
def Tree.finds (tree : Tree) (scope : NodeId) (name : String) (nodes : List NodeId) : Bool :=
  (Engine.run (.ofTree tree) .standard 0 (Operation.lookup name .all).query
      (.start scope none)).toOption.any
    fun outcome => outcome.1.map Declaration.node == nodes

theorem Tree.nodes_eq_of_finds {nodes : List NodeId} (finds : tree.finds scope name nodes = true)
    (settles :
      Settles (.ofTree tree) .standard (Operation.lookup name .all).query
        (.start scope none) declarations (.start scope none)) :
    declarations.map Declaration.node = nodes := by
  obtain ⟨⟨found, final⟩, returned, isFound⟩ := exists_of_any finds
  have isSame := settles.unique (.ofRun ((Operation.lookup name .all).query_orderly _) returned)
  rw [isSame]
  exact beq_iff_eq.mp isFound

/-- From the first module `x` is resolved, and `z` exceeds every limit. -/
theorem entwined_resolution_ends_unless_circular :
    Tree.entwined.isImporting = true ∧
      (∃ symbols final,
        Engine.Settles (.ofTree .entwined) .standard (Operation.resolveIdentifier "x").query
          (.start ⟨0⟩ none) symbols final) ∧
      ∀ limit,
        Engine.run (.ofTree .entwined) .standard limit (Operation.resolveIdentifier "z").query
            (.start ⟨0⟩ none) =
          .error .depthExceeded := by
  have isImporting : Tree.entwined.isImporting = true := by decide +kernel
  obtain ⟨entry, isEntry, isRoot⟩ :
      ∃ entry, Tree.entwined.node? ⟨0⟩ = some entry ∧ isModuleRoot entry = true :=
    ⟨_, rfl, rfl⟩
  refine ⟨isImporting, ?_, ?_⟩
  · obtain ⟨-, declarations, settles, resolves, -⟩ :=
      import_resolution_ends_unless_circular .entwined .standard isImporting isEntry isRoot "x"
    have areNodes : declarations.map Declaration.node = [⟨3⟩] :=
      Tree.nodes_eq_of_finds (by decide +kernel) settles
    have isLast : ((ofTree .entwined).targets ⟨7⟩).map Declaration.node = [] := by
      decide +kernel
    have isBound : ((ofTree .entwined).targets ⟨3⟩).map Declaration.node = [⟨7⟩] := by
      decide +kernel
    apply resolves
    intro declaration isMember isCircular
    have isBinding : declaration.node ∈ [⟨3⟩] := areNodes ▸ mem_map_of_mem isMember
    rw [mem_singleton.mp isBinding] at isCircular
    obtain ⟨next, isNext, isNextCircular⟩ := isCircular.exists_target
    have isVariable : next.node ∈ [⟨7⟩] := isBound ▸ mem_map_of_mem isNext
    rw [mem_singleton.mp isVariable] at isNextCircular
    obtain ⟨beyond, isBeyond, -⟩ := isNextCircular.exists_target
    have isNowhere : beyond.node ∈ [] := isLast ▸ mem_map_of_mem isBeyond
    cases isNowhere
  · obtain ⟨-, declarations, settles, -, exceeds⟩ :=
      import_resolution_ends_unless_circular .entwined .standard isImporting isEntry isRoot "z"
    have areNodes : declarations.map Declaration.node = [⟨4⟩] :=
      Tree.nodes_eq_of_finds (by decide +kernel) settles
    obtain ⟨declaration, isMember, isBinding⟩ :=
      mem_map.mp (areNodes ▸ mem_singleton_self (⟨4⟩ : NodeId))
    apply exceeds
    refine ⟨declaration, isMember, ?_⟩
    rw [isBinding]
    apply isCircular_of_self
    decide +kernel

/-- A module that imports a name publicly from itself. -/
def Tree.selfImporting : Tree :=
  let drafting : Drafting Unit := do
    let root ← Draft.addModule "m"
    let selection ← Draft.addMember root "m" (.importModule "m" true false)
    discard <| Draft.addImportBinding selection "x" "x"
  (drafting.run {}).2.tree

/-- The name that a module imports from itself is not resolved under any limit. -/
theorem self_import_exceeds_every_limit :
    Tree.selfImporting.isImporting = true ∧
      ∀ limit,
        Engine.run (.ofTree .selfImporting) .standard limit
            (Operation.resolveIdentifier "x").query (.start ⟨0⟩ none) =
          .error .depthExceeded := by
  have isImporting : Tree.selfImporting.isImporting = true := by decide +kernel
  have isHome : (ofTree .selfImporting).IsHome ⟨0⟩ :=
    isHome_ofTree isImporting rfl rfl
  obtain ⟨declarations, isVisible, areHeld⟩ := Resolution.exists_visible isHome "x"
  have finds : Tree.selfImporting.finds ⟨0⟩ "x" [⟨2⟩] = true := by decide +kernel
  have areNodes := Tree.nodes_eq_of_finds finds (Yields.ofReads isVisible)
  obtain ⟨declaration, isMember, isBinding⟩ :=
    mem_map.mp (areNodes ▸ mem_singleton_self (⟨2⟩ : NodeId))
  have isCircular : (ofTree .selfImporting).IsCircular declaration.node := by
    rw [isBinding]
    apply isCircular_of_self
    decide +kernel
  exact ⟨isImporting, fun limit =>
    Resolution.exceeds_of_isCircular isHome isVisible areHeld isMember isCircular limit⟩

end DScope
