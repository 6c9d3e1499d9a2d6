import DScope.Proofs.Declared
import DScope.Proofs.Offers

namespace DScope

/-!
# Modules of variables and imports

In modules that hold variables of basic types and imports, and nothing else, the
declarations under a name are found without a question, and they lie in the tree.
-/

variable {tree : Tree} {id : NodeId} {entry : Node} {program : Program} {scan : Scan}

namespace Node

variable {node : Node}

/-- Whether the declaration is a module, a variable of a basic type or an import. -/
def isImporting (node : Node) : Bool :=
  match node.kind with
  | .module | .var (some (.basic _)) _ | .importModule .. | .importBinding .. => true
  | _ => false

/-- What holds of every declaration of a tree of modules, variables and imports. -/
structure Imports (tree : Tree) (node : Node) : Prop where
  isImporting : node.isImporting = true
  isPlain : node.templateParameters = [] ∧ node.constraint = none
  holdsChildren : ∀ child ∈ node.children, tree.holds child = true
  holdsParent : ∀ parent, node.parent = some parent → tree.holds parent = true

theorem Imports.kind_eq (imports : node.Imports tree) :
    node.kind = .module ∨
      (∃ type initializer, node.kind = .var (some (.basic type)) initializer) ∨
      (∃ module isPublic isStatic, node.kind = .importModule module isPublic isStatic) ∨
        ∃ module target, node.kind = .importBinding module target := by
  have isImporting := imports.isImporting
  unfold Node.isImporting at isImporting
  split at isImporting
  next isModule => exact .inl isModule
  next type initializer isVariable => exact .inr (.inl ⟨type, initializer, isVariable⟩)
  next isImport => exact .inr (.inr (.inl ⟨_, _, _, isImport⟩))
  next isBinding => exact .inr (.inr (.inr ⟨_, _, isBinding⟩))
  next => cases isImporting

theorem Imports.isMixin_eq_false (imports : node.Imports tree) : node.isMixin = false := by
  unfold isMixin
  rcases imports.kind_eq with isKind | ⟨_, _, isKind⟩ | ⟨_, _, _, isKind⟩ | ⟨_, _, isKind⟩ <;>
    rw [isKind]

end Node

namespace Tree

/-- Whether the tree holds modules, variables of basic types and imports, and nothing else. -/
def isImporting (tree : Tree) : Bool :=
  tree.nodes.all fun node =>
    node.isImporting && (node.templateParameters.isEmpty && node.constraint.isNone) &&
      node.children.all tree.holds && node.parent.all tree.holds

theorem imports_of_node?
    (isImporting : tree.isImporting = true) (isEntry : tree.node? id = some entry) :
    entry.Imports tree := by
  rw [Tree.isImporting, Array.all_eq_true_iff_forall_mem] at isImporting
  have passes := isImporting entry (Array.mem_of_getElem? isEntry)
  simp only [Bool.and_eq_true, List.isEmpty_iff, Option.isNone_iff_eq_none, List.all_eq_true,
    Option.all_eq_true] at passes
  obtain ⟨⟨⟨isKind, isPlain⟩, holdsChildren⟩, holdsParent⟩ := passes
  exact ⟨isKind, isPlain, holdsChildren, holdsParent⟩

theorem holds_scopeOf (isEntry : tree.node? id = some entry) (imports : entry.Imports tree) :
    tree.holds (tree.scopeOf id) = true := by
  unfold scopeOf
  rw [isEntry]
  dsimp only
  split
  · exact holds_of_node? isEntry
  · cases isParent : entry.parent with
    | none => exact holds_of_node? isEntry
    | some parent => exact imports.holdsParent parent isParent

end Tree

namespace Program

theorem tree_enter (program : Program) (id : NodeId) : (program.enter id).tree = program.tree := by
  unfold enter
  split
  · split <;> rfl
  · rfl

/-- The modules of a program lie in its tree. -/
def HoldsModules (program : Program) : Prop :=
  ∀ name root, program.module? name = some root → program.tree.holds root = true

theorem HoldsModules.enter (holdsModules : program.HoldsModules) (id : NodeId) :
    (program.enter id).HoldsModules := by
  intro name root isModule
  rw [tree_enter]
  unfold Program.enter at isModule
  split at isModule
  next entry isEntry =>
    split at isModule
    · by_cases isSame : entry.name = name
      · rw [module?, ← isSame, Table.find?_put] at isModule
        cases isModule
        exact Tree.holds_of_node? isEntry
      · rw [module?, Table.find?_put_of_ne isSame] at isModule
        exact holdsModules name root isModule
    · exact holdsModules name root isModule
  next => exact holdsModules name root isModule

theorem foldl_enter (holdsModules : program.HoldsModules) (ids : List NodeId) :
    (ids.foldl enter program).tree = program.tree ∧ (ids.foldl enter program).HoldsModules := by
  induction ids generalizing program with
  | nil => exact ⟨rfl, holdsModules⟩
  | cons id rest ih =>
    rw [← tree_enter program id]
    exact ih (holdsModules.enter id)

theorem ofTree_spec (tree : Tree) : (ofTree tree).tree = tree ∧ (ofTree tree).HoldsModules := by
  have isEmpty : HoldsModules { tree } := nofun
  exact foldl_enter isEmpty tree.nodeIds

/-- The program is made of modules that hold variables of basic types and imports. -/
structure OnlyImports (program : Program) : Prop where
  isImporting : program.tree.isImporting = true
  holdsModules : program.HoldsModules

theorem onlyImports_ofTree (isImporting : tree.isImporting = true) : (ofTree tree).OnlyImports := by
  obtain ⟨isTree, holdsModules⟩ := ofTree_spec tree
  exact ⟨isTree.symm ▸ isImporting, holdsModules⟩

theorem OnlyImports.imports (onlyImports : program.OnlyImports)
    (isEntry : program.tree.node? id = some entry) : entry.Imports program.tree :=
  Tree.imports_of_node? onlyImports.isImporting isEntry

end Program

/-- Everything that was found lies in the tree. -/
def Scan.IsInside (tree : Tree) (scan : Scan) : Prop :=
  ∀ declaration ∈ scan.found, tree.holds declaration.node = true

namespace Scan.IsInside

variable {via : Option Symbol}

theorem take (isInside : scan.IsInside tree) (offers : List Declaration) :
    (offers.foldl (Scan.take tree) scan).IsInside tree :=
  forall_found_foldl_take (tree.holds · = true) isInside fun _ _ isHeld => isHeld

theorem members {access : Access} (isInside : scan.IsInside program.tree) (scope : Node) :
    (scan.members program access via scope).IsInside program.tree := by
  rw [members_eq]
  exact isInside.take _

theorem module (steps : Nat) (isInside : scan.IsInside program.tree) (id : NodeId) :
    (scan.module program steps id).IsInside program.tree := by
  obtain ⟨later, offers, -, isScanned⟩ := exists_walk program scan.home steps id scan.seenModules
  have isMarked : IsInside program.tree { scan with seenModules := later } := isInside
  rw [isScanned scan rfl rfl]
  exact isMarked.take offers

end Scan.IsInside

namespace Lookup

variable {evaluator : Evaluator} {state : State} {root : NodeId}

/-- The query reads a scan of the tree. -/
def Scans (program : Program) (state : State) (query : Query Scan) : Prop :=
  ∃ scan, Query.Reads program state query scan ∧ scan.IsInside program.tree

namespace Scans

variable {next : Scan → Query Scan}

theorem pure (isInside : scan.IsInside program.tree) : Scans program state (Pure.pure scan) :=
  ⟨scan, .pure scan, isInside⟩

theorem bind {query : Query Scan} (firstly : Scans program state query)
    (secondly : ∀ scan, scan.IsInside program.tree → Scans program state (next scan)) :
    Scans program state (query >>= next) := by
  obtain ⟨scan, reads, isInside⟩ := firstly
  obtain ⟨last, readsLast, isLastInside⟩ := secondly scan isInside
  exact ⟨last, .bind reads readsLast, isLastInside⟩

theorem bind_ofReads {α : Type} {query : Query α} {next : α → Query Scan} {value : α}
    (reads : Query.Reads program state query value) (scans : Scans program state (next value)) :
    Scans program state (query >>= next) := by
  obtain ⟨last, readsLast, isLastInside⟩ := scans
  exact ⟨last, .bind reads readsLast, isLastInside⟩

theorem unlessDone (isInside : scan.IsInside program.tree)
    (scans : Scans program state (next scan)) :
    Scans program state (Lookup.unlessDone next scan) := by
  unfold Lookup.unlessDone
  split
  · exact .pure isInside
  · exact scans

theorem foldlM {α : Type} {step : Scan → α → Query Scan} {items : List α}
    (steps :
      ∀ item ∈ items, ∀ scan : Scan, scan.IsInside program.tree →
        Scans program state (step scan item))
    (isInside : scan.IsInside program.tree) :
    Scans program state (items.foldlM step scan) := by
  induction items generalizing scan with
  | nil => exact .pure isInside
  | cons item rest ih =>
    apply bind (steps item List.mem_cons_self scan isInside)
    intro later isLaterInside
    exact ih (List.forall_mem_cons.mp steps).2 isLaterInside

end Scans

theorem reads_scanModule (isHeld : program.tree.holds root = true) (scan : Scan) :
    Query.Reads program state (scanModule root scan)
      (scan.module program (program.tree.nodes.size + 1) root) := by
  obtain ⟨entry, isEntry⟩ := Option.isSome_iff_exists.mp isHeld
  exact .bind (.node isEntry) (.bind .wholeProgram (.pure _))

theorem holds_importTargets {scope : Node} (holdsModules : program.HoldsModules)
    (isTarget : root ∈ Scan.importTargets program id scope) : program.tree.holds root = true := by
  obtain ⟨name, isModule⟩ := Scan.isModule_of_mem_importTargets isTarget
  exact holdsModules name root isModule

variable {scope : NodeId}

variable (onlyImports : program.OnlyImports)
include onlyImports

theorem scans_scanMixins
    (isEntry : program.tree.node? scope = some entry) (isInside : scan.IsInside program.tree) :
    Scans program state (scanMixins scope scan) := by
  apply Scans.bind_ofReads (.node isEntry)
  apply Scans.foldlM (fun child isChild scan isInside => ?_) isInside
  have isHeld := (onlyImports.imports isEntry).holdsChildren child isChild
  obtain ⟨childEntry, isChildEntry⟩ := Option.isSome_iff_exists.mp isHeld
  apply Scans.bind_ofReads (.node isChildEntry)
  rw [(onlyImports.imports isChildEntry).isMixin_eq_false]
  exact .pure isInside

theorem scans_scanImports
    (isRunning : state.isCancelled = false) (isEntry : program.tree.node? scope = some entry)
    (isInside : scan.IsInside program.tree) : Scans program state (scanImports scope scan) := by
  apply Scans.bind_ofReads (.node isEntry)
  apply Scans.bind_ofReads .isCancelled
  rw [isRunning]
  apply Scans.bind_ofReads .wholeProgram
  apply Scans.foldlM (fun root isTarget scan isInside => ?_) isInside
  exact ⟨_, reads_scanModule (holds_importTargets onlyImports.holdsModules isTarget) scan,
    isInside.module _ root⟩

theorem scans_scanScope
    (isRunning : state.isCancelled = false) (isEntry : program.tree.node? scope = some entry)
    (isModule : entry.kind = .module) (isInside : scan.IsInside program.tree) :
    Scans program state (scanScope scope scan) := by
  have scansMethod : Scans program state (scanMethod scope scan) := by
    apply Scans.bind_ofReads (.node isEntry)
    simp only [Node.isMethod, isModule]
    exact .pure isInside
  apply Scans.bind scansMethod
  intro scan isInside
  apply Scans.bind (Scans.unlessDone isInside ?_)
  · intro scan isInside
    apply Scans.bind (Scans.unlessDone isInside (scans_scanMixins onlyImports isEntry isInside))
    intro scan isInside
    apply Scans.bind (Scans.unlessDone isInside ?_)
    · intro scan isInside
      exact Scans.unlessDone isInside (scans_scanImports onlyImports isRunning isEntry isInside)
    · apply Scans.bind_ofReads (.node isEntry)
      rw [isModule]
      exact .pure isInside
  · exact ⟨_, .bind .wholeProgram (.bind (.node isEntry) (.pure _)), isInside.members entry⟩

theorem reads_visible_of_isModule
    (isRunning : state.isCancelled = false)
    (isEntry : program.tree.node? state.stack.top.scope = some entry)
    (isModule : entry.kind = .module) (isRoot : entry.parent = none) (name : String) :
    ∃ declarations,
      Query.Reads program state (visible name .all) declarations ∧
        ∀ declaration ∈ declarations, program.tree.holds declaration.node = true := by
  let start : Scan :=
    { name := some name, filter := .all, home := program.tree.rootOf state.stack.top.scope }
  have isLineage : program.tree.lineage state.stack.top.scope = [state.stack.top.scope] := by
    simp [Tree.lineage, Tree.climb, Tree.parent?, isEntry, isRoot]
  have scans :
      Scans program state (scanOutward (program.tree.lineage state.stack.top.scope) start) := by
    rw [isLineage]
    apply Scans.bind_ofReads .isCancelled
    rw [isRunning]
    have isStartInside : start.IsInside program.tree := fun _ isFound => by cases isFound
    apply Scans.bind (scans_scanScope onlyImports isRunning isEntry isModule isStartInside)
    intro scan isInside
    exact .unlessDone isInside (.pure isInside)
  obtain ⟨scan, reads, isInside⟩ := scans
  exact ⟨scan.found,
    .bind (reads_start isEntry) (.bind .tree (.bind .scope (.bind reads (.pure _)))), isInside⟩

end Lookup

end DScope
