import DScope.Proofs.Alike
import DScope.Proofs.Declared
import DScope.Proofs.Offers
import Mathlib.Data.List.Nodup

namespace DScope

open Engine (Yields)
open Query (Reads)

variable {tree : Tree} {ids : List NodeId} {id : NodeId} {program : Program}
  {evaluator : Evaluator} {state : State} {entry : Node}

/-!
# Names in a module of its own

A module without imports, mixins and template parameters. A name means there what
is declared under it in the module, in the order of the declarations, and looking
it up asks nothing.
-/

open List Lookup

namespace Node

variable {node : Node}

/-- Whether the declaration is neither an import nor a mixin. -/
def isOrdinary (node : Node) : Bool :=
  match node.kind with
  | .importModule .. | .mixin _ => false
  | _ => true

theorem isMixin_of_isOrdinary (isOrdinary : node.isOrdinary = true) : node.isMixin = false := by
  unfold Node.isOrdinary at isOrdinary
  unfold isMixin
  split at isOrdinary <;> simp_all

theorem accepts_all_of_isOrdinary (isOrdinary : node.isOrdinary = true) :
    Filter.all.accepts node = true := by
  unfold Node.isOrdinary at isOrdinary
  unfold Filter.accepts Filter.all
  cases isKind : node.kind <;> simp_all

end Node

section Keys

variable {α β : Type} [DecidableEq β] {key : α → β} {items : List α}

theorem filter_key_eq (haveDistinctKeys : (items.map key).Nodup) (value : β) :
    items.filter (key · == value) = (items.find? (key · == value)).toList := by
  induction items with
  | nil => rfl
  | cons item rest ih =>
    obtain ⟨isOther, haveDistinctKeys⟩ := nodup_cons.mp haveDistinctKeys
    rw [filter_cons, find?_cons]
    cases isNamed : key item == value with
    | false => exact ih haveDistinctKeys
    | true =>
      rw [filter_eq_nil_iff.mpr]
      · rfl
      · intro later isLater isSame
        rw [beq_iff_eq] at isNamed isSame
        exact isOther (isNamed.trans isSame.symm ▸ mem_map_of_mem isLater)

theorem find?_key_eq {item : α} (haveDistinctKeys : (items.map key).Nodup) (isItem : item ∈ items) :
    items.find? (key · == key item) = some item := by
  have isKept : item ∈ items.filter (key · == key item) :=
    mem_filter.mpr ⟨isItem, beq_self_eq_true _⟩
  rw [filter_key_eq haveDistinctKeys] at isKept
  exact Option.mem_toList.mp isKept

end Keys

namespace Scan

theorem memberOffers_of_isOrdinary {id : NodeId} (isEntry : program.tree.node? id = some entry)
    (isOrdinary : entry.isOrdinary = true) (home : NodeId) (via : Option Symbol) :
    memberOffers program home .lexical via id = [⟨id, via⟩] := by
  have isOpen : isOpen program home .lexical id entry = true := rfl
  unfold Node.isOrdinary at isOrdinary
  simp only [memberOffers, Node.isImport, Node.isAnonymousMixin, Node.isMixin, isOpen]
  cases isKind : entry.kind <;> simp_all

theorem foldl_member {via : Option Symbol} {scan : Scan} {ids : List NodeId}
    (areOrdinary :
      ∀ id ∈ ids, ∃ entry, program.tree.node? id = some entry ∧ entry.isOrdinary = true)
    (areDistinct : ids.Nodup) (areNew : ∀ id ∈ ids, id ∉ scan.found.map Declaration.node) :
    ids.foldl (member program .lexical via) scan =
      { scan with
        found :=
          scan.found ++
            (ids.filter fun id => (program.tree.node? id).any scan.wants).map (⟨·, via⟩) } := by
  have areOffered :
      ids.flatMap (memberOffers program scan.home .lexical via) = ids.map (⟨·, via⟩) := by
    rw [map_eq_flatMap]
    apply congrArg flatten (map_congr_left _)
    intro id isMember
    obtain ⟨entry, isEntry, isOrdinary⟩ := areOrdinary id isMember
    exact memberOffers_of_isOrdinary isEntry isOrdinary scan.home via
  rw [foldl_member_eq, areOffered, foldl_take_of_nodup, filter_map]
  · rfl
  · simpa [Function.comp_def] using areDistinct
  · simpa [nodes] using areNew

end Scan

namespace Lookup

variable {scan found : Scan}

theorem yields_unlessDone {next : Scan → Query Scan}
    (yields : Yields program evaluator state (next scan) scan) :
    Yields program evaluator state (unlessDone next scan) scan := by
  unfold unlessDone
  split
  · exact .pure scan
  · exact yields

/-- Beyond its members a scope has what its mixins, its bases and its imports have. -/
theorem yields_scanScope
    (isRunning : state.isCancelled = false) (isEntry : program.tree.node? id = some entry)
    (isNoMethod : entry.isMethod = false)
    (scansMembers :
      Yields program evaluator state (unlessDone (scanMembers .lexical none id) scan) found)
    (scansMixins : Yields program evaluator state (scanMixins id found) found)
    (scansInherited : Yields program evaluator state (scanInherited id found) found)
    (importsNothing : Scan.importTargets program id entry = []) :
    Yields program evaluator state (scanScope id scan) found := by
  have scansMethod : Reads program state (scanMethod id scan) scan := by
    apply Reads.bind (.node isEntry)
    rw [isNoMethod]
    exact .pure scan
  have scansImports : Reads program state (scanImports id found) found := by
    apply Reads.bind (.node isEntry)
    apply Reads.bind .isCancelled
    rw [isRunning]
    apply Reads.bind .wholeProgram
    rw [importsNothing]
    exact .pure found
  exact .bind (.ofReads scansMethod) (.bind scansMembers (.bind (yields_unlessDone scansMixins)
    (.bind (yields_unlessDone scansInherited) (yields_unlessDone (.ofReads scansImports)))))

end Lookup

/-- A module that is the only one of the program. -/
structure LoneModule (program : Program) where
  moduleId : NodeId
  module : Node
  isModuleEntry : program.tree.node? moduleId = some module
  isModule : module.kind = .module
  isRoot : module.parent = none
  isNoTemplate : module.templateParameters = []
  isAlone : ∀ name root, program.module? name = some root → root = moduleId

theorem Program.isAlone_of_all
    {moduleId : NodeId} (isAll : program.modules.all (·.2 == moduleId) = true) (name : String)
    (root : NodeId) (isModule : program.module? name = some root) : root = moduleId := by
  rw [module?] at isModule
  generalize program.modules = modules at isAll isModule
  induction modules with
  | nil => cases isModule
  | cons entry rest ih =>
    rw [all_cons, Bool.and_eq_true, beq_iff_eq] at isAll
    rw [Table.find?] at isModule
    split at isModule
    · cases isModule
      exact isAll.1
    · exact ih isAll.2 isModule

def LoneModule.start {program : Program} (lone : LoneModule program) : State :=
  .start lone.moduleId none

theorem LoneModule.isPositive_start (lone : LoneModule program) : lone.start.guard.IsPositive :=
  fun _ isEntered => nomatch isEntered

/-- No options are in force, and none come into force in a new frame. -/
structure State.IsDefault (state : State) : Prop where
  options : state.options = {}
  defaults : state.defaults = {}

theorem State.IsDefault.push
    {frame : Frame} (isDefault : state.IsDefault) (isPlain : frame.overrides = {}) :
    (state.push frame).IsDefault := by
  refine ⟨?_, isDefault.defaults⟩
  change frame.overrides.apply state.defaults = {}
  rw [isPlain, Overrides.apply_empty, isDefault.defaults]

theorem State.IsDefault.reading
    (isDefault : state.IsDefault) (tree : Tree) (id : NodeId) (given : Bindings) :
    (state.reading tree id given).IsDefault := by
  have isDefaultInside : { state with guard := state.guard.enter id }.IsDefault :=
    ⟨isDefault.options, isDefault.defaults⟩
  exact isDefaultInside.push rfl

theorem DeclaredSymbol.attached_eq_none {stack : Stack}
    (hasNoBindings : ∀ frame ∈ stack.frames, frame.bindings = .none)
    (isNoTemplate : entry.templateParameters = []) :
    attached tree stack id entry .none = .none := by
  have bindsNothing : stack.bindingsInHierarchy tree = [] := by
    have areUnfilled : ∀ place ∈ stack.below.map Frame.place, place.2.filled = [] := by
      intro place isPlace
      obtain ⟨frame, isFrame, rfl⟩ := mem_map.mp isPlace
      simp [Frame.place, hasNoBindings frame (mem_cons_of_mem _ isFrame)]
      rfl
    have topIsUnfilled : stack.top.bindings.filled = [] := by
      rw [hasNoBindings _ mem_cons_self]
      rfl
    unfold Stack.bindingsInHierarchy
    rw [flatMap_cons, Stack.flatMap_enclosing, Stack.bindingsAround_eq_nil areUnfilled,
      topIsUnfilled]
    rfl
  unfold attached
  rw [isNoTemplate, bindsNothing]
  split <;> rfl

/-- A module with ordinary members that imports nothing. -/
structure OrdinaryModule (program : Program) where
  moduleId : NodeId
  module : Node
  isModuleEntry : program.tree.node? moduleId = some module
  isModule : module.kind = .module
  isRoot : module.parent = none
  isNoTemplate : module.templateParameters = []
  importsNoObject : ∀ root, program.object? = some root → root = moduleId
  areOrdinary :
    ∀ id ∈ module.children,
      ∃ entry, program.tree.node? id = some entry ∧ entry.isOrdinary = true
  areDistinct : module.children.Nodup

namespace OrdinaryModule

variable (ordinary : OrdinaryModule program)

/-- The members of the module that a name means, as far as the filter lets them through. -/
def declared (name : String) (filter : Filter) : List NodeId :=
  ordinary.module.children.filter fun id =>
    (program.tree.node? id).any fun entry => entry.name == name && filter.accepts entry

theorem declared_all
    (haveDistinctNames : (ordinary.module.children.map program.tree.nameOf).Nodup) (name : String) :
    ordinary.declared name .all =
      (ordinary.module.children.find? (program.tree.nameOf · == name)).toList := by
  rw [← filter_key_eq haveDistinctNames name]
  apply filter_congr
  intro id isMember
  obtain ⟨entry, isEntry, isOrdinary⟩ := ordinary.areOrdinary id isMember
  simp [isEntry, Tree.nameOf, Node.accepts_all_of_isOrdinary isOrdinary]

theorem importTargets_eq_nil :
    Scan.importTargets program ordinary.moduleId ordinary.module = [] := by
  have isNoObject : (program.object?.filter (· != ordinary.moduleId)) = none := by
    cases isObject : program.object? with
    | none => rfl
    | some root => simp [ordinary.importsNoObject root isObject]
  unfold Scan.importTargets
  rw [ordinary.isModule]
  dsimp only
  rw [isNoObject, Option.toList_none, append_nil, filterMap_eq_nil_iff]
  intro child isChild
  obtain ⟨entry, isEntry, isOrdinary⟩ := ordinary.areOrdinary child isChild
  unfold Node.isOrdinary at isOrdinary
  cases isKind : entry.kind <;> simp_all

theorem yields_scanMixins (scan : Scan) :
    Yields program evaluator state (scanMixins ordinary.moduleId scan) scan := by
  apply Yields.bind (.ofReads (.node ordinary.isModuleEntry))
  have areOrdinary := ordinary.areOrdinary
  generalize ordinary.module.children = children at areOrdinary
  induction children with
  | nil => exact .pure scan
  | cons child rest ih =>
    obtain ⟨entry, isEntry, isOrdinary⟩ := areOrdinary child mem_cons_self
    apply Yields.bind
    · apply Yields.bind (.ofReads (.node isEntry))
      rw [Node.isMixin_of_isOrdinary isOrdinary]
      exact .pure scan
    · exact ih (forall_mem_cons.mp areOrdinary).2

def startScan (name : String) (filter : Filter) : Scan :=
  { name := some name, filter, home := ordinary.moduleId }

def endScan (name : String) (filter : Filter) : Scan :=
  { ordinary.startScan name filter with
    found := (ordinary.declared name filter).map (⟨·, none⟩) }

theorem members_startScan (name : String) (filter : Filter) :
    (ordinary.startScan name filter).members program .lexical none ordinary.module =
      ordinary.endScan name filter := by
  unfold Scan.members
  rw [ordinary.isNoTemplate,
    Scan.foldl_member ordinary.areOrdinary ordinary.areDistinct (by simp [startScan])]
  rfl

theorem yields_scanOutward
    (isRunning : state.isCancelled = false) (name : String) (filter : Filter) :
    Yields program evaluator state
      (scanOutward [ordinary.moduleId] (ordinary.startScan name filter))
      (ordinary.endScan name filter) := by
  have scansMembers :
      Reads program state
        (scanMembers .lexical none ordinary.moduleId (ordinary.startScan name filter))
        (ordinary.endScan name filter) :=
    reads_scanMembers ordinary.isModuleEntry (ordinary.members_startScan name filter)
  have scansInherited :
      Reads program state (scanInherited ordinary.moduleId (ordinary.endScan name filter))
        (ordinary.endScan name filter) := by
    apply Reads.bind (.node ordinary.isModuleEntry)
    rw [ordinary.isModule]
    exact .pure _
  have isNoMethod : ordinary.module.isMethod = false := by rw [Node.isMethod, ordinary.isModule]
  apply Yields.bind (.ofReads .isCancelled)
  rw [isRunning]
  exact .bind
    (yields_scanScope isRunning ordinary.isModuleEntry isNoMethod (.ofReads scansMembers)
      (ordinary.yields_scanMixins _) (.ofReads scansInherited) ordinary.importTargets_eq_nil)
    (yields_unlessDone (.pure _))

theorem lineage_eq : program.tree.lineage ordinary.moduleId = [ordinary.moduleId] := by
  simp [Tree.lineage, Tree.climb, Tree.parent?, ordinary.isModuleEntry, ordinary.isRoot]

theorem reads_start (isEntry : program.tree.node? state.stack.top.scope = some entry)
    (isHome : program.tree.rootOf state.stack.top.scope = ordinary.moduleId) (name : String)
    (filter : Filter) :
    Reads program state (Lookup.start (some name) filter) (ordinary.startScan name filter) := by
  unfold startScan
  rw [← isHome]
  exact Lookup.reads_start isEntry

theorem yields_visible_of_scanOutward {name : String} {filter : Filter}
    (isEntry : program.tree.node? state.stack.top.scope = some entry)
    (isHome : program.tree.rootOf state.stack.top.scope = ordinary.moduleId)
    (scans :
      Yields program evaluator state
        (scanOutward (program.tree.lineage state.stack.top.scope) (ordinary.startScan name filter))
        (ordinary.endScan name filter)) :
    Yields program evaluator state (visible name filter)
      ((ordinary.declared name filter).map (⟨·, none⟩)) :=
  .bind (.ofReads (ordinary.reads_start isEntry isHome name filter))
    (.bind (.ofReads .tree) (.bind (.ofReads .scope) (.bind scans (.pure _))))

theorem yields_visible (evaluator : Evaluator)
    (isRunning : state.isCancelled = false) (isScope : state.stack.top.scope = ordinary.moduleId)
    (name : String) (filter : Filter) :
    Yields program evaluator state (visible name filter)
      ((ordinary.declared name filter).map (⟨·, none⟩)) := by
  have isEntry : program.tree.node? state.stack.top.scope = some ordinary.module :=
    isScope ▸ ordinary.isModuleEntry
  have isHome : program.tree.rootOf state.stack.top.scope = ordinary.moduleId := by
    simp [isScope, Tree.rootOf, ordinary.lineage_eq]
  apply ordinary.yields_visible_of_scanOutward isEntry isHome
  rw [isScope, ordinary.lineage_eq]
  exact ordinary.yields_scanOutward isRunning name filter

/-- A block of the module that has nothing of the name is left for the module. -/
theorem yields_visible_in_block {name : String} {filter : Filter}
    (isRunning : state.isCancelled = false)
    (isEntry : program.tree.node? state.stack.top.scope = some entry)
    (isLineage :
      program.tree.lineage state.stack.top.scope = [state.stack.top.scope, ordinary.moduleId])
    (scans :
      Yields program evaluator state
        (scanScope state.stack.top.scope (ordinary.startScan name filter))
        (ordinary.startScan name filter)) :
    Yields program evaluator state (visible name filter)
      ((ordinary.declared name filter).map (⟨·, none⟩)) := by
  have isHome : program.tree.rootOf state.stack.top.scope = ordinary.moduleId := by
    simp [Tree.rootOf, isLineage]
  apply ordinary.yields_visible_of_scanOutward isEntry isHome
  rw [isLineage]
  apply Yields.bind (.ofReads .isCancelled)
  rw [isRunning]
  exact .bind scans (ordinary.yields_scanOutward isRunning name filter)

end OrdinaryModule

/-- A module with ordinary members that is the only one of the program. -/
structure PlainModule (program : Program) extends LoneModule program where
  areOrdinary :
    ∀ id ∈ module.children,
      ∃ entry, program.tree.node? id = some entry ∧ entry.isOrdinary = true
  areDistinct : module.children.Nodup

namespace PlainModule

variable (plain : PlainModule program)

def declared (name : String) (filter : Filter) : List NodeId :=
  plain.module.children.filter fun id =>
    (program.tree.node? id).any fun entry => entry.name == name && filter.accepts entry

def ordinary : OrdinaryModule program where
  moduleId := plain.moduleId
  module := plain.module
  isModuleEntry := plain.isModuleEntry
  isModule := plain.isModule
  isRoot := plain.isRoot
  isNoTemplate := plain.isNoTemplate
  importsNoObject := plain.isAlone "object"
  areOrdinary := plain.areOrdinary
  areDistinct := plain.areDistinct

theorem yields_visible (evaluator : Evaluator)
    (isRunning : state.isCancelled = false) (isScope : state.stack.top.scope = plain.moduleId)
    (name : String) (filter : Filter) :
    Yields program evaluator state (visible name filter)
      ((plain.declared name filter).map (⟨·, none⟩)) :=
  plain.ordinary.yields_visible evaluator isRunning isScope name filter

end PlainModule

end DScope
