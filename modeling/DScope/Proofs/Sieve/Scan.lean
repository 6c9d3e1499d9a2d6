import DScope.Proofs.Offers
import DScope.Proofs.Sieve.Tree
import Mathlib.Data.List.Basic

namespace DScope

/-!
# Scans of two programs

Two programs over trees that agree at the places that pass a sieve have the same
modules. A scan of one is then a scan of the other, and finds only declarations
that pass.
-/

theorem Scan.isModule_of_mem_importTargets {program : Program} {id imported : NodeId} {scope : Node}
    (isTarget : imported ∈ importTargets program id scope) :
    ∃ name, program.module? name = some imported := by
  unfold importTargets at isTarget
  -- Besides the modules that are written there is `object`, which every module imports.
  generalize isWritten : scope.children.filterMap _ = written at isTarget
  have areModules : imported ∈ written → ∃ name, program.module? name = some imported := by
    intro isMember
    rw [← isWritten] at isMember
    obtain ⟨child, -, isImported⟩ := List.mem_filterMap.mp isMember
    obtain ⟨node, -, isModule⟩ := Option.bind_eq_some_iff.mp isImported
    split at isModule
    · split at isModule
      · exact ⟨_, isModule⟩
      · cases isModule
    · cases isModule
  split at isTarget
  · rcases List.mem_append.mp isTarget with isMember | isObject
    · exact areModules isMember
    · rw [Option.mem_toList, Option.filter_eq_some_iff] at isObject
      exact ⟨"object", isObject.1⟩
  · exact areModules isTarget

namespace Sieve

variable {sieve : Sieve} {narrow wide : Program} {id : NodeId} {scan : Scan}

/-- Two programs that agree at the places that pass a sieve. -/
structure Fits (sieve : Sieve) (narrow wide : Program) : Prop where
  tree : sieve.Covers narrow.tree wide.tree
  modules : wide.modules = narrow.modules
  root : wide.root = narrow.root
  isModule : ∀ {name id}, narrow.module? name = some id → sieve.node id
  /-- Bases are looked up only where aggregates may have them. -/
  bases :
    ∀ {options : Options}, sieve.options options → options.skipBaseClasses = false →
      sieve.hasBases
  /-- An alias is followed only where symbols may be tagged with it. -/
  tag :
    ∀ {id entry} {options : Options}, sieve.node id → narrow.tree.node? id = some entry →
      sieve.options options → (entry.isAlias = true → options.keepAliases = false) → sieve.tag id
  /-- More switches may be set. -/
  union :
    ∀ {options : Options} (more : Options), sieve.options options →
      sieve.options (options.union more)

namespace Fits

variable (fits : sieve.Fits narrow wide)
include fits

theorem module? (name : String) : wide.module? name = narrow.module? name := by
  rw [Program.module?, Program.module?, fits.modules]

theorem passes_module? (name : String) : sieve.Passes (narrow.module? name) := by
  cases isModule : narrow.module? name with
  | none => exact passes_none
  | some module => exact passes_some.mpr (passes_node.mpr (fits.isModule isModule))

theorem package? (path : String) : wide.package? path = narrow.package? path := by
  rw [Program.package?, Program.package?, fits.root]

theorem packageOf (isNode : sieve.node id) : wide.packageOf id = narrow.packageOf id := by
  rw [Program.packageOf, Program.packageOf, fits.tree.nameOf isNode]

theorem mayAccess (passes : sieve.Passes scan) (isNode : sieve.node id) (access : Access)
    (entry : Node) :
    scan.mayAccess wide access id entry = scan.mayAccess narrow access id entry := by
  have isHome := (passes_scan.mp passes).1
  simp only [Scan.mayAccess, fits.tree.rootOf isNode, fits.packageOf isHome,
    fits.packageOf (fits.tree.passes_rootOf isNode)]

end Fits

/--
The scans of two programs after a step from the same scan.

They are the same and pass, no block was left open or closed, and the modules
seen before have been seen.
-/
structure Follows (sieve : Sieve) (start narrow wide : Scan) : Prop where
  same : wide = narrow
  passes : sieve.Passes narrow
  openBlocks : narrow.openBlocks = start.openBlocks
  seenModules : start.seenModules ⊆ narrow.seenModules

namespace Follows

variable {via : Option Symbol} {items : List NodeId}

theorem refl (passes : sieve.Passes scan) : sieve.Follows scan scan scan :=
  ⟨rfl, passes, rfl, List.Subset.refl _⟩

theorem alone {start narrow wide : Scan} (follows : sieve.Follows start narrow wide) :
    sieve.Follows start narrow narrow :=
  ⟨rfl, follows.passes, follows.openBlocks, follows.seenModules⟩

theorem unmarked {narrow wide : Scan}
    (follows : sieve.Follows { scan with seenModules := id :: scan.seenModules } narrow wide) :
    sieve.Follows scan narrow wide :=
  ⟨follows.same, follows.passes, follows.openBlocks,
    fun _ isSeen => follows.seenModules (List.mem_cons_of_mem id isSeen)⟩

theorem add (passes : sieve.Passes scan) (isNode : sieve.node id) (isVia : sieve.Passes via) :
    sieve.Follows scan (scan.add id via) (scan.add id via) := by
  unfold Scan.add
  split
  · exact .refl passes
  · obtain ⟨isHome, areFound⟩ := passes_scan.mp passes
    have isNew : sieve.Passes [Declaration.mk id via] :=
      passes_cons.mpr ⟨passes_declaration.mpr ⟨isNode, isVia⟩, passes_nil⟩
    refine ⟨rfl, passes_scan.mpr ⟨isHome, ?_⟩, rfl, List.Subset.refl _⟩
    exact passes_append.mpr ⟨areFound, isNew⟩

theorem addIf (passes : sieve.Passes scan) (isNode : sieve.node id) (isVia : sieve.Passes via)
    {condition other : Bool} (same : other = condition) :
    sieve.Follows scan (if condition then scan.add id via else scan)
      (if other then scan.add id via else scan) := by
  subst same
  split
  · exact .add passes isNode isVia
  · exact .refl passes

theorem foldl (areNodes : sieve.Passes items) {step other : Scan → NodeId → Scan}
    (each :
      ∀ later item, sieve.Passes later → sieve.node item →
        scan.seenModules ⊆ later.seenModules →
        sieve.Follows later (step later item) (other later item))
    {start : Scan} (follows : sieve.Follows scan start start) :
    sieve.Follows scan (items.foldl step start) (items.foldl other start) := by
  induction items generalizing start with
  | nil => exact follows
  | cons item rest ih =>
    obtain ⟨isNode, areNodes⟩ := passes_cons.mp areNodes
    have next := each start item follows.passes (passes_node.mp isNode) follows.seenModules
    rw [List.foldl_cons, List.foldl_cons, next.same]
    exact ih areNodes
      ⟨rfl, next.passes, next.openBlocks.trans follows.openBlocks,
        fun _ isSeen => next.seenModules (follows.seenModules isSeen)⟩

theorem consider
    {narrow wide : Tree} (covers : sieve.Covers narrow wide) (passes : sieve.Passes scan)
    (isNode : sieve.node id) :
    sieve.Follows scan (scan.consider narrow none id) (scan.consider wide none id) := by
  unfold Scan.consider
  rw [covers.node? isNode]
  cases narrow.node? id with
  | none => exact .refl passes
  | some entry => exact .addIf passes isNode passes_none rfl

theorem considerAll
    {narrow wide : Tree} (covers : sieve.Covers narrow wide) (passes : sieve.Passes scan)
    (areNodes : sieve.Passes items) :
    sieve.Follows scan (items.foldl (Scan.consider narrow none) scan)
      (items.foldl (Scan.consider wide none) scan) :=
  .foldl areNodes (fun _ _ isLater isNode _ => .consider covers isLater isNode) (.refl passes)

theorem member
    (fits : sieve.Fits narrow wide) (passes : sieve.Passes scan) (isVia : sieve.Passes via)
    (isNode : sieve.node id) (access : Access) :
    sieve.Follows scan (scan.member narrow access via id) (scan.member wide access via id) := by
  unfold Scan.member
  rw [fits.tree.node? isNode]
  cases isEntry : narrow.tree.node? id with
  | none => exact .refl passes
  | some entry =>
    have sameAccess := fits.mayAccess passes isNode access entry
    dsimp only
    cases entry.kind with
    | importModule module isPublic isStatic =>
      dsimp only
      split
      · exact .considerAll fits.tree passes (fits.tree.entry isNode isEntry).children
      · exact .refl passes
    | _ => exact .addIf passes isNode isVia (by rw [sameAccess])

theorem members
    (fits : sieve.Fits narrow wide) (passes : sieve.Passes scan) (isVia : sieve.Passes via)
    {scope : Node} (isScope : sieve.PassesEntry scope) (access : Access) :
    sieve.Follows scan (scan.members narrow access via scope)
      (scan.members wide access via scope) := by
  have first :
      sieve.Follows scan (scope.children.foldl (Scan.member narrow access via) scan)
        (scope.children.foldl (Scan.member wide access via) scan) :=
    .foldl isScope.children
      (fun _ _ isLater isNode _ => .member fits isLater isVia isNode access) (.refl passes)
  unfold Scan.members
  rw [first.same]
  split
  · exact .foldl isScope.templateParameters
      (fun _ _ isLater isNode _ => .consider fits.tree isLater isNode) first.alone
  · exact first.alone

end Follows

/-! ## Modules -/

/-- A number of steps that suffices for the places of a tree that pass and are not cut off. -/
def Suffices (sieve : Sieve) (tree : Tree) (cut : List NodeId) (steps : Nat) : Prop :=
  ∃ places : List NodeId,
    (∀ id entry, sieve.node id → tree.node? id = some entry → id ∈ places) ∧
      remaining places cut < steps

namespace Suffices

variable {tree : Tree} {cut : List NodeId} {steps : Nat}

/-- As many steps suffice as a tree has declarations that agrees at the places that pass. -/
theorem ofSize {wide : Tree} (agree : ∀ {id}, sieve.node id → wide.node? id = tree.node? id)
    (isEnough : wide.nodes.size < steps) (cut : List NodeId) : sieve.Suffices tree cut steps := by
  refine ⟨wide.nodeIds, fun id entry isNode isEntry => ?_, ?_⟩
  · rw [← agree isNode] at isEntry
    exact Tree.mem_nodeIds_of_holds (Tree.holds_of_node? isEntry)
  · have isBounded : remaining wide.nodeIds cut ≤ wide.nodeIds.length := List.length_filter_le _ _
    rw [Tree.nodeIds, List.length_map, List.length_range] at isBounded
    exact Nat.lt_of_le_of_lt isBounded isEnough

theorem exists_succ (isEnough : sieve.Suffices tree cut steps) : ∃ fewer, steps = fewer + 1 := by
  obtain ⟨places, -, isFewer⟩ := isEnough
  exact ⟨steps - 1, by omega⟩

/-- One step is taken for a place that was not cut off. -/
theorem step {entry : Node} (isEnough : sieve.Suffices tree cut (steps + 1))
    (isNode : sieve.node id) (isEntry : tree.node? id = some entry) (isNew : id ∉ cut) :
    sieve.Suffices tree (id :: cut) steps := by
  obtain ⟨places, areListed, isBound⟩ := isEnough
  have isFewer := remaining_cons_lt (areListed id entry isNode isEntry) isNew
  exact ⟨places, areListed, by omega⟩

theorem mono
    (isEnough : sieve.Suffices tree cut steps) {more : List NodeId} (isSubset : cut ⊆ more) :
    sieve.Suffices tree more steps := by
  obtain ⟨places, areListed, isBound⟩ := isEnough
  exact ⟨places, areListed, Nat.lt_of_le_of_lt (remaining_le_of_subset isSubset) isBound⟩

end Suffices

/-- A scan of a module and of what it imports publicly. -/
theorem Follows.module (fits : sieve.Fits narrow wide) (passes : sieve.Passes scan)
    (isNode : sieve.node id) {steps others : Nat}
    (isEnough : sieve.Suffices narrow.tree scan.seenModules steps)
    (isOtherEnough : sieve.Suffices narrow.tree scan.seenModules others) :
    sieve.Follows scan (scan.module narrow steps id) (scan.module wide others id) := by
  -- Every scan marks a module that was not seen, so the steps left suffice for the rest.
  induction steps generalizing others scan id with
  | zero =>
    obtain ⟨_, ⟨⟩⟩ := isEnough.exists_succ
  | succ steps ih =>
    obtain ⟨others, rfl⟩ := isOtherEnough.exists_succ
    unfold Scan.module
    rw [fits.tree.node? isNode]
    cases isRoot : narrow.tree.node? id with
    | none => exact .refl passes
    | some root =>
      dsimp only
      split
      · exact .refl passes
      next isNew =>
        have isMarked : sieve.Passes { scan with seenModules := id :: scan.seenModules } :=
          passes_scan.mpr (passes_scan.mp passes)
        have isRootEntry := fits.tree.entry isNode isRoot
        have isNew : id ∉ scan.seenModules := by simpa using isNew
        have isLeft := isEnough.step isNode isRoot isNew
        have isOtherLeft := isOtherEnough.step isNode isRoot isNew
        have first := Follows.members fits isMarked passes_none isRootEntry .external
        rw [first.same]
        refine .unmarked (.foldl isRootEntry.children ?_ first.alone)
        intro later child isLater isChild isSeen
        rw [fits.tree.node? isChild]
        cases isEntry : narrow.tree.node? child with
        | none => exact .refl isLater
        | some entry =>
          dsimp only
          split
          next target isStatic isImport =>
            split
            · rw [fits.module?]
              cases isModule : narrow.module? target with
              | none => exact .refl isLater
              | some imported =>
                exact ih isLater (fits.isModule isModule) (isLeft.mono isSeen)
                  (isOtherLeft.mono isSeen)
            · exact .considerAll fits.tree isLater (fits.tree.entry isChild isEntry).children
          next => exact .refl isLater

theorem Fits.importTargets (fits : sieve.Fits narrow wide) {scope : Node}
    (isScope : sieve.PassesEntry scope) (id : NodeId) :
    Scan.importTargets wide id scope = Scan.importTargets narrow id scope := by
  have agree : ∀ child ∈ scope.children, wide.tree.node? child = narrow.tree.node? child :=
    fun child isChild => fits.tree.node? (passes_node.mp (isScope.children.mem isChild))
  have sameWritten (next : Node → Option NodeId) :
      (scope.children.filterMap fun child => (wide.tree.node? child).bind next) =
        scope.children.filterMap fun child => (narrow.tree.node? child).bind next :=
    List.filterMap_congr fun child isChild => by rw [agree child isChild]
  unfold Scan.importTargets Program.object?
  simp only [fits.module?, Option.bind_eq_bind, sameWritten]

theorem Fits.passes_importTargets (fits : sieve.Fits narrow wide) (scope : Node) (id : NodeId) :
    sieve.Passes (Scan.importTargets narrow id scope) := by
  rw [passes_list]
  intro imported isTarget
  obtain ⟨name, isModule⟩ := Scan.isModule_of_mem_importTargets isTarget
  exact passes_node.mpr (fits.isModule isModule)

end Sieve

end DScope
