import DScope.Proofs.Drafting
import DScope.Proofs.ModuleScope

namespace DScope

/-!
# Hierarchies of classes

A module of classes and interfaces without members, whose bases are plain names.
The symbol of a class holds its bases, which hold theirs, and so on along every
path that meets no class twice: a class that is being resolved already comes
without bases. However the bases are connected, the classes that occur in the
symbol are those that the declared links lead to, and so a class converts to
exactly these.
-/

open List DeclaredSymbol

variable {program : Program} {id : NodeId} {evaluator : Evaluator} {state : State} {entry : Node}
  {symbol : Symbol} {sort : AggregateSort} {names : List String}

/-! ## Modules of classes -/

open Engine (Settles Yields)
open Query (Reads)

/-- A class or an interface without members whose bases are plain names. -/
structure Node.IsBare (node : Node) (sort : AggregateSort) (isMixin : Bool)
    (names : List String) : Prop where
  isKind : node.kind = .aggregate sort isMixin (names.map .named)
  isClassLike : sort = .classType ∨ sort = .interfaceType
  hasNoMembers : node.children = []
  isNoTemplate : node.templateParameters = []
  isFree : node.constraint = none

/-- A module of classes and interfaces with different names. -/
structure ClassModule (program : Program) where
  moduleId : NodeId
  module : Node
  isCoherent : program.tree.IsCoherent
  isModuleEntry : program.tree.node? moduleId = some module
  isModule : module.kind = .module
  isRoot : module.parent = none
  isNoTemplate : module.templateParameters = []
  hasNoObject : program.object? = none
  areBare :
    ∀ id ∈ module.children,
      ∃ entry sort isMixin names,
        program.tree.node? id = some entry ∧
          entry.IsBare sort isMixin names ∧
          -- A base that is no class of the module may be the name of another module.
          ∀ name ∈ names, name ∈ module.children.map program.tree.nameOf ∨ program.IsFree name
  haveDistinctNames : (module.children.map program.tree.nameOf).Nodup

namespace ClassModule

variable (classes : ClassModule program)

/-- The first class names the second one among its bases. -/
def Inherits (heir base : NodeId) : Prop :=
  heir ∈ classes.module.children ∧
    base ∈ classes.module.children ∧
    ∃ entry sort isMixin written,
      program.tree.node? heir = some entry ∧
        entry.kind = .aggregate sort isMixin written ∧
        .named (program.tree.nameOf base) ∈ written

def ordinary : OrdinaryModule program where
  moduleId := classes.moduleId
  module := classes.module
  isModuleEntry := classes.isModuleEntry
  isModule := classes.isModule
  isRoot := classes.isRoot
  isNoTemplate := classes.isNoTemplate
  importsNoObject := by simp [classes.hasNoObject]
  areOrdinary := by
    intro id isMember
    obtain ⟨entry, sort, isMixin, names, isEntry, isBare, -⟩ := classes.areBare id isMember
    exact ⟨entry, isEntry, by rw [Node.isOrdinary, isBare.isKind]⟩
  areDistinct := List.Nodup.of_map _ classes.haveDistinctNames

theorem lineage_eq : program.tree.lineage classes.moduleId = [classes.moduleId] :=
  classes.ordinary.lineage_eq

def find? (name : String) : Option NodeId :=
  classes.module.children.find? (program.tree.nameOf · == name)

theorem declared_eq (name : String) :
    classes.ordinary.declared name .all = (classes.find? name).toList :=
  classes.ordinary.declared_all classes.haveDistinctNames name

theorem find?_eq_some_iff {name : String} :
    classes.find? name = some id ↔
      id ∈ classes.module.children ∧ program.tree.nameOf id = name := by
  constructor
  · intro isFound
    exact ⟨mem_of_find?_eq_some isFound, by simpa using find?_some isFound⟩
  · rintro ⟨isMember, rfl⟩
    exact find?_key_eq classes.haveDistinctNames isMember

theorem parent?_of_mem (isMember : id ∈ classes.module.children) :
    program.tree.parent? id = some classes.moduleId := by
  apply classes.isCoherent.parentOfListed
  simp [Tree.listed, classes.isModuleEntry, isMember]

/-! ## Lookup of a base -/

/--
A query in the module, or inside a class whose bases are being resolved.

A class that is entered and not left has been entered once, and its bases are
being resolved.
-/
structure Stands (state : State) : Prop where
  isRunning : state.isCancelled = false
  isDefault : state.IsDefault
  isHome :
    state.stack.top.scope = classes.moduleId ∨
      (state.stack.top.scope ∈ classes.module.children ∧
        state.guard.isResolving state.stack.top.scope = true)
  hasNoBindings : ∀ frame ∈ state.stack.frames, frame.bindings = .none
  isPositive : state.guard.IsPositive
  isShallow :
    ∀ id, state.guard.depth id ≤ if state.guard.isResolving id then 1 else 0

variable {classes} {isMixin : Bool}

/-- A class whose bases are being resolved declares no name. -/
theorem yields_scanScope
    (isRunning : state.isCancelled = false) (isResolving : state.guard.isResolving id = true)
    (isEntry : program.tree.node? id = some entry) (isBare : entry.IsBare sort isMixin names)
    (scan : Scan) : Yields program evaluator state (Lookup.scanScope id scan) scan := by
  have scansMembers : Reads program state (Lookup.scanMembers .lexical none id scan) scan :=
    Lookup.reads_scanMembers isEntry
      (by simp [Scan.members, isBare.hasNoMembers, isBare.isNoTemplate])
  have scansMixins : Reads program state (Lookup.scanMixins id scan) scan := by
    apply Reads.bind (.node isEntry)
    rw [isBare.hasNoMembers]
    exact .pure scan
  have scansInherited : Reads program state (Lookup.scanInherited id scan) scan := by
    apply Reads.bind (.node isEntry)
    rcases isBare.isClassLike with rfl | rfl <;>
    · rw [isBare.isKind]
      apply Reads.bind .get
      rw [isResolving]
      exact .pure scan
  apply Lookup.yields_scanScope isRunning isEntry _ (Lookup.yields_unlessDone (.ofReads scansMembers))
    (.ofReads scansMixins) (.ofReads scansInherited)
  · simp [Scan.importTargets, isBare.hasNoMembers, isBare.isKind]
  · rw [Node.isMethod, isBare.isKind]

theorem Stands.yields_visible (evaluator : Evaluator) (stands : classes.Stands state)
    (name : String) :
    Yields program evaluator state (Lookup.visible name .all)
      ((classes.find? name).toList.map (⟨·, none⟩)) := by
  rw [← classes.declared_eq]
  rcases stands.isHome with isScope | ⟨isMember, isResolving⟩
  · exact classes.ordinary.yields_visible evaluator stands.isRunning isScope name .all
  · obtain ⟨entry, sort, isMixin, names, isEntry, isBare, -⟩ := classes.areBare _ isMember
    have isLineage := classes.isCoherent.lineage_of_parent? (classes.parent?_of_mem isMember)
    rw [classes.lineage_eq] at isLineage
    exact classes.ordinary.yields_visible_in_block stands.isRunning isEntry isLineage
      (yields_scanScope stands.isRunning isResolving isEntry isBare _)

/-! ## Symbols of classes -/

end ClassModule

/-- The symbol is the class, which has no template parameters. -/
def Symbol.IsClass (symbol : Symbol) (id : NodeId) : Prop :=
  ∃ kind baseClass interfaces,
    (kind = .classType ∨ kind = .interfaceType) ∧
      symbol.shape = .aggregate ⟨kind, id, baseClass, interfaces, .none⟩

namespace Symbol.IsClass

variable (isClass : symbol.IsClass id)
include isClass

theorem isAggregate : symbol.isAggregate = true := by
  obtain ⟨kind, baseClass, interfaces, -, isShape⟩ := isClass
  simp [Symbol.isAggregate, aggregate?, isShape]

theorem candidates_eq : symbol.candidates = [symbol] := by
  obtain ⟨kind, baseClass, interfaces, -, isShape⟩ := isClass
  simp [candidates, isShape]

theorem node_eq : symbol.aggregate?.map Aggregate.node = some id := by
  obtain ⟨kind, baseClass, interfaces, -, isShape⟩ := isClass
  simp [aggregate?, isShape]

theorem yields_instantiate (isRunning : state.isCancelled = false)
    (isEntry : program.tree.node? id = some entry) (isNoTemplate : entry.templateParameters = [])
    (isFree : entry.constraint = none) :
    Yields program evaluator state (Template.instantiate [symbol] [] false) [symbol] := by
  have ⟨kind, baseClass, interfaces, isClassLike, isShape⟩ := isClass
  have isDefinition : symbol.definition? = some id := by simp [definition?, isShape]
  have expands : Yields program evaluator state (Template.expand symbol) [symbol] := by
    have isAggregate : symbol.aggregate? = some ⟨kind, id, baseClass, interfaces, .none⟩ := by
      simp [aggregate?, isShape]
    unfold Template.expand
    rw [isAggregate]
    apply Yields.bind (.ofReads (.node isEntry))
    rcases isClassLike with rfl | rfl <;>
      exact .pure [symbol]
  apply Template.yields_instantiate_of_plain isRunning isClass.candidates_eq _ expands
  intro owner isOwner
  cases isDefinition.symm.trans isOwner
  exact ⟨entry, isEntry, .inl isNoTemplate, isFree⟩

theorem convertsTo_eq {other : Symbol} {otherId : NodeId} (otherIsClass : other.IsClass otherId) :
    symbol.convertsTo other = symbol.derivesFrom otherId := by
  obtain ⟨kind, baseClass, interfaces, -, isShape⟩ := isClass
  obtain ⟨otherKind, otherBase, otherInterfaces, -, otherIsShape⟩ := otherIsClass
  obtain ⟨shape, origin, modifier, tags⟩ := symbol
  obtain ⟨otherShape, otherOrigin, otherModifier, otherTags⟩ := other
  cases isShape
  cases otherIsShape
  rfl

end Symbol.IsClass

namespace Symbol

theorem anyDerivesFrom_append (target : NodeId) (bases : List Symbol) (last : Symbol) :
    anyDerivesFrom target (bases ++ [last]) =
      (anyDerivesFrom target bases || derivesFrom target last) := by
  induction bases with
  | nil => simp [anyDerivesFrom]
  | cons base rest ih =>
    simp [anyDerivesFrom, ih, Bool.or_assoc]

end Symbol

namespace DeclaredSymbol.Bases

/-- Whether one of the bases is the class or derives from it. -/
def derivesFrom (bases : Bases) (target : NodeId) : Bool :=
  Symbol.optionDerivesFrom target bases.baseClass ||
    Symbol.anyDerivesFrom target bases.interfaces

theorem derivesFrom_add
    {bases : Bases} {mayBeClass : Bool} (isFirst : mayBeClass = true → bases.baseClass = none)
    (base : Symbol) (target : NodeId) :
    (bases.add mayBeClass base).derivesFrom target =
      (bases.derivesFrom target || base.derivesFrom target) := by
  unfold add derivesFrom
  split
  next isClass =>
    have isNone := isFirst (Bool.and_eq_true_iff.mp isClass).1
    simp [isNone, Symbol.optionDerivesFrom, Bool.or_comm]
  next =>
    simp [Symbol.anyDerivesFrom_append, Bool.or_assoc]

end DeclaredSymbol.Bases

/-- The state in which the bases of a class are resolved. -/
def State.inside (state : State) (tree : Tree) (id : NodeId) : State :=
  { state.reading tree id .none with guard := (state.guard.enter id).mark id }

namespace ClassModule

variable {classes : ClassModule program} {isMixin : Bool} {name : String}

theorem Stands.inside (stands : classes.Stands state) (isMember : id ∈ classes.module.children)
    (isNew : state.guard.isResolving id = false) :
    classes.Stands (state.inside program.tree id) := by
  obtain ⟨entry, sort, isMixin, names, isEntry, isBare, -⟩ := classes.areBare id isMember
  have isScope : program.tree.scopeOf id = id := by
    simp [Tree.scopeOf, isEntry, Node.isBlock, isBare.isKind]
  have isDefault := stands.isDefault.reading program.tree id .none
  refine ⟨stands.isRunning, ⟨isDefault.options, isDefault.defaults⟩, .inr ⟨?_, ?_⟩, ?_,
    (stands.isPositive.enter id).mark id, ?_⟩
  · change program.tree.scopeOf id ∈ classes.module.children
    exact isScope.symm ▸ isMember
  · change ((state.guard.enter id).mark id).isResolving (program.tree.scopeOf id) = true
    rw [isScope, Guard.isResolving_mark, beq_self_eq_true, Bool.true_or]
  · intro frame isFrame
    rcases mem_cons.mp isFrame with rfl | isBelow
    · rfl
    · exact stands.hasNoBindings frame isBelow
  · exact Guard.IsShallow.enter_mark stands.isShallow isNew

theorem Stands.yields_named (stands : classes.Stands state)
    (isFound : classes.find? name = some id) (isClass : symbol.IsClass id)
    (yields : Yields program evaluator state (Query.symbolOf id .none) (some symbol)) :
    Yields program evaluator state (Resolution.searchName name) [symbol] := by
  obtain ⟨isMember, -⟩ := classes.find?_eq_some_iff.mp isFound
  obtain ⟨entry, sort, isMixin, names, isEntry, isBare, -⟩ := classes.areBare id isMember
  have isVisible := stands.yields_visible evaluator name
  rw [isFound] at isVisible
  have declares : Yields program evaluator state (Query.symbolsOf [⟨id, none⟩]) [symbol] :=
    Query.settles_symbolsOf_singleton stands.isRunning isClass.candidates_eq yields
  apply Yields.bind (Lookup.settles_candidates isVisible (cons_ne_nil _ _) declares)
  apply Yields.bind (.ofReads .options)
  rw [stands.isDefault.options]
  exact isClass.yields_instantiate stands.isRunning isEntry isBare.isNoTemplate isBare.isFree

theorem Stands.exists_unknown
    (stands : classes.Stands state) (isUnknown : classes.find? name = none)
    (isFree : program.IsFree name) :
    ∃ symbols,
      Yields program evaluator state (Resolution.searchName name) symbols ∧
        symbols.find? Symbol.isAggregate = none := by
  have isVisible := stands.yields_visible evaluator name
  rw [isUnknown] at isVisible
  refine ⟨program.namesakes name, ?_, ?_⟩
  · apply Yields.bind (Lookup.yields_namesakes isVisible)
    apply Yields.bind (.ofReads .options)
    rw [stands.isDefault.options]
    exact Program.yields_instantiate_namesakes stands.isRunning isFree
  · rcases program.namesakes_cases name with ⟨root, -, areNamed⟩ | areNamed | areNamed
    all_goals
      rw [areNamed]
      rfl

/-- What the symbol of a class holds: the classes that are reached beyond those cut off. -/
structure Unfolds (classes : ClassModule program) (cut : List NodeId) (id : NodeId)
    (symbol : Symbol) : Prop where
  isClass : symbol.IsClass id
  derivesFrom_iff :
    ∀ target, symbol.derivesFrom target = true ↔ Descends classes.Inherits cut id target

/-- The bases of a class are found in the order in which they are written. -/
theorem Stands.exists_bases
    {cut : List NodeId} (stands : classes.Stands state) (isBusy : state.guard.isIdle = false)
    (unfolds :
      ∀ base ∈ classes.module.children,
        ∃ symbol,
          Yields program evaluator state (Query.symbolOf base .none) (some symbol) ∧
            classes.Unfolds cut base symbol)
    {names : List String}
    (areKnown :
      ∀ name ∈ names,
        name ∈ classes.module.children.map program.tree.nameOf ∨ program.IsFree name)
    {mayBeClass : Bool} {bases : Bases} (isFirst : mayBeClass = true → bases.baseClass = none) :
    ∃ found,
      Yields program evaluator state (basesOf mayBeClass bases (names.map .named)) found ∧
        ∀ target,
          found.derivesFrom target = true ↔
            bases.derivesFrom target = true ∨
              ∃ name ∈ names,
                ∃ base, classes.find? name = some base ∧
                  Descends classes.Inherits cut base target := by
  induction names generalizing mayBeClass bases with
  | nil => exact ⟨bases, .pure bases, fun target => by simp⟩
  | cons name rest ih =>
    obtain ⟨isKnown, areKnown⟩ := forall_mem_cons.mp areKnown
    cases isFound : classes.find? name with
    | none =>
      have isFree : program.IsFree name := by
        refine isKnown.resolve_left fun isDeclared => ?_
        obtain ⟨id, isMember, isName⟩ := mem_map.mp isDeclared
        rw [classes.find?_eq_some_iff.mpr ⟨isMember, isName⟩] at isFound
        cases isFound
      obtain ⟨symbols, searches, areNoClasses⟩ := stands.exists_unknown isFound isFree
      obtain ⟨found, yields, derives⟩ := @ih areKnown false bases (fun isTrue => nomatch isTrue)
      refine ⟨found, ?_, fun target => ?_⟩
      · apply Yields.bind (Resolution.yields_resolve_of_busy stands.isRunning isBusy searches)
        rw [areNoClasses]
        exact yields
      · rw [derives target]
        simp [isFound]
    | some base =>
      obtain ⟨isMember, -⟩ := classes.find?_eq_some_iff.mp isFound
      obtain ⟨symbol, declares, unfold⟩ := unfolds base isMember
      have searches := stands.yields_named isFound unfold.isClass declares
      obtain ⟨found, yields, derives⟩ :=
        @ih areKnown false (bases.add mayBeClass symbol) (fun isTrue => nomatch isTrue)
      refine ⟨found, ?_, fun target => ?_⟩
      · apply Yields.bind (Resolution.yields_resolve_of_busy stands.isRunning isBusy searches)
        rw [find?_cons_of_pos unfold.isClass.isAggregate]
        exact yields
      · rw [derives target, Bases.derivesFrom_add isFirst, Bool.or_eq_true,
          unfold.derivesFrom_iff target]
        simp [isFound, or_assoc]

/-- The symbol of a class with the bases that were found. -/
def symbolWith (id : NodeId) (kind : AggregateKind) (bases : DeclaredSymbol.Bases) : Symbol :=
  .declared id (.aggregate ⟨kind, id, bases.baseClass, bases.interfaces, .none⟩)

theorem derivesFrom_symbolWith
    (id : NodeId) (kind : AggregateKind) (bases : Bases) (target : NodeId) :
    (symbolWith id kind bases).derivesFrom target = true ↔
      id = target ∨ bases.derivesFrom target = true := by
  simp [symbolWith, Symbol.declared, Symbol.withOrigin, Symbol.ofShape, Symbol.derivesFrom,
    Bases.derivesFrom, or_assoc]

theorem inherits_iff {base : NodeId} (isMember : id ∈ classes.module.children)
    (isEntry : program.tree.node? id = some entry) (isBare : entry.IsBare sort isMixin names) :
    classes.Inherits id base ↔ ∃ name ∈ names, classes.find? name = some base := by
  constructor
  · rintro ⟨-, isBase, other, otherSort, otherIsMixin, written, isOther, isKind, isWritten⟩
    cases isEntry.symm.trans isOther
    cases isBare.isKind.symm.trans isKind
    obtain ⟨name, isName, isNamed⟩ := mem_map.mp isWritten
    cases isNamed
    exact ⟨_, isName, classes.find?_eq_some_iff.mpr ⟨isBase, rfl⟩⟩
  · rintro ⟨name, isName, isFound⟩
    obtain ⟨isBase, rfl⟩ := classes.find?_eq_some_iff.mp isFound
    exact ⟨isMember, isBase, entry, sort, isMixin, _, isEntry, isBare.isKind, mem_map_of_mem isName⟩

theorem kind_of_isBare (isBare : entry.IsBare sort isMixin names) :
    AggregateKind.ofDeclared sort isMixin = .classType ∨
      AggregateKind.ofDeclared sort isMixin = .interfaceType := by
  rcases isBare.isClassLike with rfl | rfl
  · exact .inl rfl
  · exact .inr rfl

section

variable (stands : classes.Stands state) (isEntry : program.tree.node? id = some entry)
  (isBare : entry.IsBare sort isMixin names)
include stands isEntry isBare

theorem Stands.yields_symbolOf
    (builds :
      Yields program evaluator (state.reading program.tree id .none)
        (ofAggregate id sort isMixin (names.map .named) true .none) symbol) :
    Yields program evaluator state (Query.symbolOf id .none) (some symbol) := by
  have isLow : ¬(state.guard.enter id).depth id > Guard.baseLimit :=
    Nat.not_lt.mpr (Guard.IsShallow.depth_enter_le stands.isShallow)
  have reaches :
      (Reach.ofOptions state.options
        ((state.guard.enter id).depth id)).baseClasses = true := by
    simp [Reach.ofOptions, isLow, stands.isDefault.options]
  apply DeclaredSymbol.yields_symbolOf stands.isRunning stands.isPositive isEntry
  rw [DeclaredSymbol.attached_eq_none stands.hasNoBindings isBare.isNoTemplate,
    visit, isBare.isKind]
  rw [reaches]
  exact .bind builds (.pure _)

theorem Stands.yields_without_bases (isCut : state.guard.isResolving id = true ∨ names = []) :
    Yields program evaluator state (Query.symbolOf id .none)
      (some (symbolWith id (.ofDeclared sort isMixin) {})) := by
  apply stands.yields_symbolOf isEntry isBare
  unfold ofAggregate
  dsimp only
  rcases isCut with isResolving | rfl
  · have resolves :
        Yields program evaluator (state.reading program.tree id .none)
          (Query.whileResolving id (basesOf (sort == .classType) {} (names.map .named))) none :=
      .whileResolving_of_isResolving isResolving
    split
    · exact .bind resolves (.pure _)
    · exact .bind (.pure none) (.pure _)
  · rw [map_nil, isEmpty_nil, Bool.not_true, Bool.and_false]
    exact .bind (.pure none) (.pure _)

theorem Stands.yields_with_bases {bases : Bases}
    (isNew : state.guard.isResolving id = false) (isNonempty : names ≠ [])
    (resolves :
      Yields program evaluator (state.inside program.tree id)
        (basesOf (sort == .classType) {} (names.map .named)) bases) :
    Yields program evaluator state (Query.symbolOf id .none)
      (some (symbolWith id (.ofDeclared sort isMixin) bases)) := by
  have isResolved :
      ((AggregateKind.ofDeclared sort isMixin).isClassLike &&
        !(names.map TypeExpr.named).isEmpty && true) = true := by
    rcases kind_of_isBare isBare with isKind | isKind <;>
      simp [isKind, AggregateKind.isClassLike, isNonempty]
  have isUnmarked : ¬(state.reading program.tree id .none).guard.isResolving id = true := by
    rw [Bool.not_eq_true]
    exact isNew
  apply stands.yields_symbolOf isEntry isBare
  unfold ofAggregate
  rw [if_pos isResolved]
  exact .bind (.whileResolving isUnmarked resolves) (.pure _)

end

/--
A class yields a symbol that holds the classes reached from it.

A class whose bases are being resolved is cut off, and resolving the bases of
another one cuts it off, so fewer and fewer classes remain.
-/
theorem Stands.exists_symbol (evaluator : Evaluator) (stands : classes.Stands state)
    (isMember : id ∈ classes.module.children) :
    ∃ symbol,
      Yields program evaluator state (Query.symbolOf id .none) (some symbol) ∧
        classes.Unfolds state.guard.resolving id symbol := by
  induction isCount : remaining classes.module.children state.guard.resolving
    using Nat.strongRecOn generalizing state id with
  | ind count ih =>
    obtain ⟨entry, sort, isMixin, names, isEntry, isBare, areKnown⟩ := classes.areBare id isMember
    have isClass (bases : Bases) : (symbolWith id (.ofDeclared sort isMixin) bases).IsClass id :=
      ⟨_, _, _, kind_of_isBare isBare, rfl⟩
    by_cases isCut : state.guard.isResolving id = true ∨ names = []
    · refine ⟨_, stands.yields_without_bases isEntry isBare isCut, isClass {}, fun target => ?_⟩
      have leadsNowhere :
          ¬(id ∉ state.guard.resolving ∧
            ∃ base, classes.Inherits id base ∧
            Descends classes.Inherits (id :: state.guard.resolving) base target) := by
        rintro ⟨isNew, base, inherits, -⟩
        rcases isCut with isResolving | rfl
        · exact isNew (contains_iff_mem.mp isResolving)
        · obtain ⟨name, isName, -⟩ := (inherits_iff isMember isEntry isBare).mp inherits
          cases isName
      rw [derivesFrom_symbolWith, Descends.iff_along, or_iff_left leadsNowhere]
      exact or_iff_left Bool.false_ne_true
    · obtain ⟨isUnmarked, isNonempty⟩ := not_or.mp isCut
      have isNew : state.guard.isResolving id = false := Bool.eq_false_iff.mpr isUnmarked
      have isNewPlace : id ∉ state.guard.resolving :=
        fun isPlace => isUnmarked (contains_iff_mem.mpr isPlace)
      have standsInside := stands.inside isMember isNew
      have isMarked :
          (state.inside program.tree id).guard.resolving = id :: state.guard.resolving :=
        Guard.resolving_mark isNew
      have isBusy : (state.inside program.tree id).guard.isIdle = false := by
        simp [Guard.isIdle, isMarked]
      have isFewer :
          remaining classes.module.children (state.inside program.tree id).guard.resolving <
            count := by
        rw [isMarked, ← isCount]
        exact remaining_cons_lt isMember isNewPlace
      have noBases : (sort == .classType) = true → ({} : Bases).baseClass = none := fun _ => rfl
      obtain ⟨bases, resolves, derives⟩ :=
        standsInside.exists_bases isBusy
          (fun base isBase => ih _ isFewer standsInside isBase rfl) areKnown noBases
      refine ⟨_, stands.yields_with_bases isEntry isBare isNew isNonempty resolves,
        isClass bases, fun target => ?_⟩
      rw [isMarked] at derives
      rw [derivesFrom_symbolWith, derives target, Descends.iff_along]
      simp only [inherits_iff isMember isEntry isBare]
      constructor
      · rintro (isSame | isNone | ⟨name, isName, base, isFound, descends⟩)
        · exact .inl isSame
        · cases isNone
        · exact .inr ⟨isNewPlace, base, ⟨name, isName, isFound⟩, descends⟩
      · rintro (isSame | ⟨-, base, ⟨name, isName, isFound⟩, descends⟩)
        · exact .inl isSame
        · exact .inr (.inr ⟨name, isName, base, isFound, descends⟩)

def start (classes : ClassModule program) (statement : Option StatementId) : State :=
  .start classes.moduleId statement

theorem stands_start (classes : ClassModule program) (statement : Option StatementId) :
    classes.Stands (classes.start statement) where
  isRunning := rfl
  isDefault := ⟨rfl, rfl⟩
  isHome := .inl rfl
  hasNoBindings := by
    intro frame isFrame
    cases mem_singleton.mp isFrame
    rfl
  isPositive := fun _ isEntered => by cases isEntered
  isShallow := fun _ => Nat.le_refl 0

theorem exists_settles (evaluator : Evaluator) (statement : Option StatementId)
    (isMember : id ∈ classes.module.children) :
    ∃ symbol final,
      Settles program evaluator (Resolution.ofName (program.tree.nameOf id))
          (classes.start statement) [symbol] final ∧
        symbol.IsClass id ∧
        ∀ target,
          symbol.derivesFrom target = true ↔
            Relation.ReflTransGen classes.Inherits id target := by
  have stands := classes.stands_start statement
  have isFound : classes.find? (program.tree.nameOf id) = some id :=
    classes.find?_eq_some_iff.mpr ⟨isMember, rfl⟩
  obtain ⟨symbol, yields, isClass, derives⟩ := stands.exists_symbol evaluator isMember
  have searches := stands.yields_named isFound isClass yields
  have areFinite : ∀ heir base, classes.Inherits heir base → heir ∈ classes.module.children :=
    fun _ _ inherits => inherits.1
  refine ⟨symbol, _, Resolution.settles_ofName rfl searches rfl, isClass, fun target => ?_⟩
  rw [derives target]
  exact Descends.iff_reaches areFinite

end ClassModule

/--
In a module of classes each name means one class, and a class converts to
another one if and only if declared links lead from it to the other.
-/
theorem classes_convert_along_inheritance
    {program : Program}
    (classes : ClassModule program)
    (evaluator : Evaluator)
    (statement : Option StatementId)
    {source target : NodeId}
    (isSource : source ∈ classes.module.children)
    (isTarget : target ∈ classes.module.children) :
    ∃ sourceSymbol sourceFinal targetSymbol targetFinal,
      Engine.Settles program evaluator
          (Operation.resolveIdentifier (program.tree.nameOf source)).query
          (.start classes.moduleId statement) [sourceSymbol] sourceFinal ∧
        Engine.Settles program evaluator
            (Operation.resolveIdentifier (program.tree.nameOf target)).query
            (.start classes.moduleId statement) [targetSymbol] targetFinal ∧
          sourceSymbol.aggregate?.map Aggregate.node = some source ∧
            targetSymbol.aggregate?.map Aggregate.node = some target ∧
            (sourceSymbol.convertsTo targetSymbol = true ↔
              Relation.ReflTransGen classes.Inherits source target) := by
  obtain ⟨sourceSymbol, sourceFinal, settles, isClass, derives⟩ :=
    ClassModule.exists_settles evaluator statement isSource
  obtain ⟨targetSymbol, targetFinal, targetSettles, targetIsClass, -⟩ :=
    ClassModule.exists_settles evaluator statement isTarget
  refine ⟨sourceSymbol, sourceFinal, targetSymbol, targetFinal, settles, targetSettles,
    isClass.node_eq, targetIsClass.node_eq, ?_⟩
  rw [isClass.convertsTo_eq targetIsClass]
  exact derives target

/-- Classes with a diamond, a circle, a class that is its own base, and bases without a class. -/
def Draft.tangled : List Step :=
  [ .module "m",
    .member ⟨0⟩ "A" (.aggregate .classType false [.named "B", .named "C"]),
    .member ⟨0⟩ "B" (.aggregate .classType false [.named "D"]),
    .member ⟨0⟩ "C" (.aggregate .interfaceType false [.named "D", .named "A"]),
    .member ⟨0⟩ "D" (.aggregate .classType false [.named "D", .named "m", .named "missing"]) ]

def Program.tangled : Program :=
  .ofTree (.ofSteps Draft.tangled)

def ClassModule.tangled : ClassModule .tangled where
  moduleId := ⟨0⟩
  module := (Program.tangled.tree.node? ⟨0⟩).get (by decide +kernel)
  isCoherent := by
    have isTree : Program.tangled.tree = .ofSteps Draft.tangled := (Program.ofTree_spec _).1
    exact isTree ▸ (Tree.isDrafted_ofSteps (by decide +kernel)).isCoherent
  isModuleEntry := (Option.some_get _).symm
  isModule := rfl
  isRoot := rfl
  isNoTemplate := rfl
  hasNoObject := by decide +kernel
  areBare := by
    have isFree (name : String) : Program.tangled.IsFree name := by
      intro root isModule
      have isAlone : Program.tangled.modules.all (·.2 == ⟨0⟩) = true := by decide +kernel
      cases Program.isAlone_of_all isAlone name root isModule
      exact ⟨_, rfl, rfl⟩
    change ∀ id ∈ [(⟨1⟩ : NodeId), ⟨2⟩, ⟨3⟩, ⟨4⟩], _
    simp only [List.forall_mem_cons]
    exact ⟨⟨_, _, _, ["B", "C"], rfl, ⟨rfl, .inl rfl, rfl, rfl, rfl⟩, fun _ _ => .inr (isFree _)⟩,
      ⟨_, _, _, ["D"], rfl, ⟨rfl, .inl rfl, rfl, rfl, rfl⟩, fun _ _ => .inr (isFree _)⟩,
      ⟨_, _, _, ["D", "A"], rfl, ⟨rfl, .inr rfl, rfl, rfl, rfl⟩, fun _ _ => .inr (isFree _)⟩,
      ⟨_, _, _, ["D", "m", "missing"], rfl, ⟨rfl, .inl rfl, rfl, rfl, rfl⟩,
        fun _ _ => .inr (isFree _)⟩, forall_mem_nil _⟩
  haveDistinctNames := by
    change ["A", "B", "C", "D"].Nodup
    decide

theorem ClassModule.tangled_inherits
    {target : NodeId} (reaches : Relation.ReflTransGen tangled.Inherits ⟨4⟩ target) :
    target = ⟨4⟩ := by
  have areMembers : tangled.module.children = [⟨1⟩, ⟨2⟩, ⟨3⟩, ⟨4⟩] := rfl
  have isMember : (⟨4⟩ : NodeId) ∈ tangled.module.children := by simp [areMembers]
  obtain ⟨entry, isEntry, isBare⟩ :
      ∃ entry,
        Program.tangled.tree.node? ⟨4⟩ = some entry ∧
          entry.IsBare .classType false ["D", "m", "missing"] :=
    ⟨_, rfl, rfl, .inl rfl, rfl, rfl, rfl⟩
  have areFound : ["D", "m", "missing"].filterMap tangled.find? = [⟨4⟩] := by decide +kernel
  induction reaches with
  | refl => rfl
  | tail _ inherits ih =>
    subst ih
    have isFound := mem_filterMap.mpr ((inherits_iff isMember isEntry isBare).mp inherits)
    rw [areFound] at isFound
    exact mem_singleton.mp isFound

/-- The class on top of the diamond converts to the one below it, and not the other way round. -/
theorem tangled_classes_convert :
    ∃ top final bottom bottomFinal,
      Engine.Settles .tangled .standard (Operation.resolveIdentifier "A").query (.start ⟨0⟩ none)
          [top] final ∧
        Engine.Settles .tangled .standard (Operation.resolveIdentifier "D").query
            (.start ⟨0⟩ none) [bottom] bottomFinal ∧
        top.convertsTo bottom = true ∧ bottom.convertsTo top = false := by
  have areMembers : ClassModule.tangled.module.children = [⟨1⟩, ⟨2⟩, ⟨3⟩, ⟨4⟩] := rfl
  have isTop : (⟨1⟩ : NodeId) ∈ ClassModule.tangled.module.children := by simp [areMembers]
  have isLeft : (⟨2⟩ : NodeId) ∈ ClassModule.tangled.module.children := by simp [areMembers]
  have isBottom : (⟨4⟩ : NodeId) ∈ ClassModule.tangled.module.children := by simp [areMembers]
  have leadsDown : Relation.ReflTransGen ClassModule.tangled.Inherits ⟨1⟩ ⟨4⟩ := by
    have first : ClassModule.tangled.Inherits ⟨1⟩ ⟨2⟩ :=
      ⟨isTop, isLeft, _, _, _, _, rfl, rfl, mem_cons_self⟩
    have second : ClassModule.tangled.Inherits ⟨2⟩ ⟨4⟩ :=
      ⟨isLeft, isBottom, _, _, _, _, rfl, rfl, mem_cons_self⟩
    exact .head first (.head second .refl)
  obtain ⟨top, final, bottom, bottomFinal, settlesTop, settlesBottom, -, -, convertsDown⟩ :=
    classes_convert_along_inheritance .tangled .standard none isTop isBottom
  obtain ⟨bottom', bottomFinal', top', final', settlesBottom', settlesTop', -, -, convertsUp⟩ :=
    classes_convert_along_inheritance .tangled .standard none isBottom isTop
  cases settlesTop.unique settlesTop'
  cases settlesBottom.unique settlesBottom'
  refine ⟨top, final, bottom, bottomFinal, settlesTop, settlesBottom, convertsDown.mpr leadsDown,
    ?_⟩
  rw [Bool.eq_false_iff, Ne, convertsUp]
  intro leadsUp
  cases ClassModule.tangled_inherits leadsUp

/-- The name of a class whose constraint fails stands for nothing. -/
theorem constrained_class_is_not_found :
    ∃ final,
      Engine.Settles
        (.ofTree (.ofSteps
          [ .module "m",
            .member ⟨0⟩ "A" (.aggregate .classType false []),
            .constraint ⟨1⟩ (.literal (.bool false)) ]))
        .standard (Operation.resolveIdentifier "A").query (.start ⟨0⟩ none) [] final :=
  Operation.exists_final 9 isEmpty isEmpty_iff.mp (by decide +kernel)

end DScope
