import DScope.Proofs.Agreement
import DScope.Proofs.Drafting

namespace DScope

/-!
# Access control

What a search gives from another module may be named from outside: it is public,
or of the same package, or protected and inherited. The scan keeps this of
everything that it has found. Whatever is met from inside a scope has the root of
that scope, and whatever is met from outside passes a test of its visibility;
only the bindings of an import are given without one.
-/

open List

variable {home : NodeId} {may : NodeId → Prop}

namespace Statement

/-- The declarations that the statement declares. -/
def declared (statement : Statement) : List NodeId :=
  match statement.kind with
  | .declaration nodes => nodes
  | .forEach loopVariables .. => loopVariables
  | .mixin node => [node]
  | _ => []

theorem declares_iff {statement : Statement} {node : NodeId} :
    statement.declares node = true ↔ node ∈ statement.declared := by
  unfold declares declared
  cases statement.kind with
  | declaration nodes => exact contains_iff_mem
  | forEach loopVariables source body isReverse => exact contains_iff_mem
  | mixin declared => exact beq_iff_eq.trans (eq_comm.trans mem_singleton.symm)
  | _ => simp

end Statement

namespace Tree

variable {tree : Tree}

/-- The statements of a function: those that it owns and their parts. -/
inductive IsStatementOf (tree : Tree) (method : NodeId) : StatementId → Prop
  | owned {id : StatementId} (isOwner : tree.owner? id = some method) :
      tree.IsStatementOf method id
  | part
      {outer id : StatementId}
      {statement : Statement}
      (isOuter : tree.IsStatementOf method outer)
      (isEntry : tree.statement? outer = some statement)
      (isPart : id ∈ statement.parts) :
      tree.IsStatementOf method id

/-- The parameters of a function and what its statements declare belong to the function. -/
structure KeepsToMethods (tree : Tree) : Prop where
  parameters :
    ∀ {method entry}, tree.node? method = some entry →
      ∀ id ∈ entry.parameters, tree.encloses method id = true
  declared :
    ∀ {method entry id statement}, tree.node? method = some entry → entry.isMethod = true →
      tree.IsStatementOf method id → tree.statement? id = some statement →
      ∀ node, statement.declares node = true → tree.encloses method node = true

/-- Whether each statement keeps to the function that owns it, and so do its parts. -/
def keepsToMethods (tree : Tree) : Bool :=
  (tree.nodeIds.all fun id =>
      (tree.node? id).all fun entry => entry.parameters.all (tree.encloses id)) &&
    tree.statements.all fun statement =>
      (statement.parts.all fun part => tree.owner? part == some statement.owner) &&
        statement.declared.all (tree.encloses statement.owner)

theorem owner?_of_isStatementOf
    {method : NodeId} {id : StatementId} (keeps : tree.keepsToMethods = true)
    (isStatement : tree.IsStatementOf method id) : tree.owner? id = some method := by
  simp only [keepsToMethods, Bool.and_eq_true, Array.all_eq_true_iff_forall_mem] at keeps
  induction isStatement with
  | owned isOwner => exact isOwner
  | @part outer id statement isOuter isEntry isPart ih =>
    obtain ⟨partsKeep, -⟩ := keeps.2 statement (Array.mem_of_getElem? isEntry)
    have isOwner := all_eq_true.mp partsKeep id isPart
    rw [owner?, isEntry] at ih
    exact (beq_iff_eq.mp isOwner).trans ih

theorem keepsToMethods_of_check (keeps : tree.keepsToMethods = true) : tree.KeepsToMethods := by
  have passes := keeps
  simp only [keepsToMethods, Bool.and_eq_true, all_eq_true, Option.all_eq_true,
    Array.all_eq_true_iff_forall_mem] at passes
  obtain ⟨parametersKeep, statementsKeep⟩ := passes
  refine ⟨?_, ?_⟩
  · intro method entry isEntry id isParameter
    exact parametersKeep method (mem_nodeIds_of_holds (holds_of_node? isEntry)) entry isEntry id
      isParameter
  · intro method entry id statement _ _ isStatement isEntry node declares
    have isOwner := owner?_of_isStatementOf keeps isStatement
    rw [owner?, isEntry] at isOwner
    obtain ⟨-, declaredKeep⟩ := statementsKeep statement (Array.mem_of_getElem? isEntry)
    rw [← Option.some.inj isOwner]
    exact declaredKeep node (Statement.declares_iff.mp declares)

def HasNoMixin (tree : Tree) : Prop :=
  ∀ id entry, tree.node? id = some entry → entry.isMixin = false

/-- What holds of the trees that are searched. -/
structure IsOrdered (tree : Tree) : Prop where
  isCoherent : tree.IsCoherent
  hasNoMixin : tree.HasNoMixin
  keepsToMethods : tree.KeepsToMethods

theorem hasNoMixin_of_all (passes : (tree.nodes.all fun node => !node.isMixin) = true) :
    tree.HasNoMixin := by
  intro id entry isEntry
  rw [Array.all_eq_true_iff_forall_mem] at passes
  simpa using passes entry (Array.mem_of_getElem? isEntry)

end Tree

namespace Program

/--
Whether the visibility of a declaration lets a module name it from outside.

A protected declaration may be named where it is inherited.
-/
def Permits (program : Program) (home : NodeId) (isFromInside : Bool) (id : NodeId)
    (entry : Node) : Prop :=
  entry.visibility = .publicAccess ∨
    (entry.visibility = .packageAccess ∧
      program.packageOf (program.tree.rootOf id) = program.packageOf home) ∨
    entry.visibility = .protectedAccess ∧ isFromInside = true

/-- Whether a search from a module may give the declaration at a place. -/
def MayGive (program : Program) (home : NodeId) (isFromInside : Bool) (id : NodeId) : Prop :=
  ∃ entry,
    program.tree.node? id = some entry ∧
      (program.tree.rootOf id = home ∨
        (∃ outer outerEntry,
          entry.parent = some outer ∧
            program.tree.node? outer = some outerEntry ∧ outerEntry.isImport = true) ∨
        program.Permits home isFromInside id entry)

end Program

namespace Scan

variable {program : Program} {tree : Tree} {scan : Scan}

/-- The scan is one from the module, and has found only what it may find. -/
structure IsPermitted (home : NodeId) (may : NodeId → Prop) (scan : Scan) : Prop where
  isHome : scan.home = home
  found : ∀ declaration ∈ scan.found, may declaration.node

theorem IsPermitted.take {offers : List Declaration} (isPermitted : scan.IsPermitted home may)
    (areOffered : ∀ offer ∈ offers, tree.holds offer.node = true → may offer.node) :
    (offers.foldl (Scan.take tree) scan).IsPermitted home may :=
  ⟨(home_foldl_take tree offers scan).trans isPermitted.isHome,
    forall_found_foldl_take may isPermitted.found areOffered⟩

theorem IsPermitted.considerAll {ids : List NodeId} (isPermitted : scan.IsPermitted home may)
    (areOffered : ∀ id ∈ ids, tree.holds id = true → may id) :
    (ids.foldl (Scan.consider tree none) scan).IsPermitted home may := by
  have isTaken :
      ids.foldl (Scan.consider tree none) scan =
        (ids.map (⟨·, none⟩)).foldl (Scan.take tree) scan := by
    rw [foldl_map]
    rfl
  rw [isTaken]
  apply isPermitted.take
  simpa using areOffered

theorem mem_offers_cases
    {access : Access} {via : Option Symbol} {scope : Node} {offer : Declaration}
    (isOffer : offer ∈ offers program home access via scope) :
    (offer.node ∈ scope.children ++ scope.templateParameters ∧
      ∀ entry, program.tree.node? offer.node = some entry →
        isOpen program home access offer.node entry = true) ∨
      ∃ id entry,
        program.tree.node? id = some entry ∧ entry.isImport = true ∧ offer.node ∈ entry.children := by
  rcases mem_append.mp isOffer with isMember | isParameter
  · obtain ⟨child, isChild, isOffer⟩ := mem_flatMap.mp isMember
    unfold memberOffers at isOffer
    cases isEntry : program.tree.node? child with
    | none => simp [isEntry] at isOffer
    | some entry => grind
  · have isInside : access = .lexical := by grind
    refine .inl ⟨by grind, fun entry _ => ?_⟩
    rw [isInside]
    rfl

end Scan

namespace Lookup

open Query

variable {environment : Environment} {declarations : List Declaration}

/-- Whether a step of a scan that returns keeps a property of the scan. -/
def Keeps (environment : Environment) (holds : Scan → Prop) (step : Scan → Query Scan) : Prop :=
  ∀ ⦃scan state after later⦄, holds scan →
    step scan environment state = .ok (after, later) → holds after

namespace Keeps

variable {holds : Scan → Prop} {α : Type} {first second : Scan → Query Scan}

theorem ofPure {step : Scan → Scan} (keeps : ∀ scan, holds scan → holds (step scan)) :
    Keeps environment holds fun scan => pure (step scan) := by
  rintro scan state _ _ isKept ⟨⟩
  exact keeps scan isKept

theorem unchanged : Keeps environment holds fun scan => pure scan :=
  ofPure fun _ isKept => isKept

theorem after {query : Query α} {next : α → Scan → Query Scan}
    (each :
      ∀ value state later, query environment state = .ok (value, later) →
        Keeps environment holds (next value)) :
    Keeps environment holds fun scan => query >>= fun value => next value scan := by
  intro scan state _ later isKept returned
  obtain ⟨value, middle, isFirst, isSecond⟩ := bind_eq_ok.mp returned
  exact each value state middle isFirst isKept isSecond

theorem comp (before : Keeps environment holds first) (after : Keeps environment holds second) :
    Keeps environment holds fun scan => first scan >>= second := by
  intro scan state _ later isKept returned
  obtain ⟨middle, middleState, isFirst, isSecond⟩ := bind_eq_ok.mp returned
  exact after (before isKept isFirst) isSecond

theorem ite {condition : Scan → Bool} (whenTrue : Keeps environment holds first)
    (whenFalse : Keeps environment holds second) :
    Keeps environment holds fun scan => if condition scan then first scan else second scan := by
  intro scan state _ later isKept returned
  dsimp only at returned
  split at returned
  · exact whenTrue isKept returned
  · exact whenFalse isKept returned

theorem closedUnderSteps : ClosedUnderSteps environment (Keeps environment holds) where
  unchanged := unchanged
  after := after
  unlessOpen _ keeps := ite unchanged keeps
  comp := comp

theorem unlessDone {step : Scan → Query Scan} (keeps : Keeps environment holds step) :
    Keeps environment holds (Lookup.unlessDone step) :=
  ite unchanged keeps

theorem andThen (before : Keeps environment holds first) (after : Keeps environment holds second) :
    Keeps environment holds fun scan => first scan >>= Lookup.unlessDone second :=
  comp before (unlessDone after)

end Keeps

/-- Whether a scope may be scanned with the access from where the lookup takes place. -/
def reaches (isFromInside : Bool) : Access → Bool
  | .lexical => false
  | .inherited => isFromInside
  | .external => true

/-- A step of a scan keeps to what may be found. -/
abbrev KeepsTo (environment : Environment) (home : NodeId) (may : NodeId → Prop)
    (step : Scan → Query Scan) : Prop :=
  Keeps environment (Scan.IsPermitted home may) step

/-- What may be found apart from the scopes around the lookup. -/
structure Supplies (environment : Environment) (home : NodeId) (isFromInside : Bool)
    (may : NodeId → Prop) : Prop where
  members :
    ∀ {access}, reaches isFromInside access = true →
      ∀ {scope id entry}, id ∈ environment.program.tree.listed scope →
      environment.program.tree.node? id = some entry →
        Scan.isOpen environment.program home access id entry = true → may id
  bindings :
    ∀ {id entry binding}, environment.program.tree.node? id = some entry →
      entry.isImport = true → binding ∈ entry.children →
      environment.program.tree.holds binding = true → may binding
  mixins : ∀ scope, KeepsTo environment home may (scanMixins scope)

section Layers

variable {isFromInside : Bool} (supplies : Supplies environment home isFromInside may)
  {access : Access}

include supplies

theorem keeps_scanMembers (scope : NodeId)
    (areListed :
      ∀ {id entry}, id ∈ environment.program.tree.listed scope →
        environment.program.tree.node? id = some entry →
        Scan.isOpen environment.program home access id entry = true → may id)
    (via : Option Symbol) :
    KeepsTo environment home may (scanMembers access via scope) := by
  refine .after fun program _ _ isProgram => .after fun entry _ _ isRead =>
    .ofPure fun scan isPermitted => ?_
  cases isProgram
  rw [Scan.members_eq, isPermitted.isHome]
  refine isPermitted.take fun offer isOffer isHeld => ?_
  rcases Scan.mem_offers_cases isOffer with
    ⟨isListed, isOpen⟩ | ⟨id, importEntry, isEntry, isImport, isBinding⟩
  · obtain ⟨offered, isOffered⟩ := Option.isSome_iff_exists.mp isHeld
    apply areListed _ isOffered (isOpen offered isOffered)
    rwa [Tree.listed, (node_eq_ok.mp isRead).1]
  · exact supplies.bindings isEntry isImport isBinding isHeld

theorem keeps_closedUnderLayers (isReached : reaches isFromInside access = true) :
    ClosedUnderLayers environment access (KeepsTo environment home may) where
  toClosedUnderQueries := Keeps.closedUnderSteps.toClosedUnderQueries
  andThen := .andThen
  opened via scope := by
    have opens :
        KeepsTo environment home may fun scan =>
          pure { scan with openBlocks := scope :: scan.openBlocks } :=
      .ofPure fun scan isPermitted => ⟨isPermitted.isHome, isPermitted.found⟩
    exact opens.comp (keeps_scanMembers supplies scope (supplies.members isReached) via)
  mixins := supplies.mixins

theorem keeps_scanModule (module : NodeId) : KeepsTo environment home may (scanModule module) := by
  refine .after fun entry _ _ _ => .after fun program _ _ isProgram =>
    .ofPure fun scan isPermitted => ?_
  cases isProgram
  obtain ⟨later, offers, explores, isScanned⟩ :=
    Scan.exists_walk environment.program home (environment.program.tree.nodes.size + 1) module
      scan.seenModules
  have isMarked : Scan.IsPermitted home may { scan with seenModules := later } :=
    ⟨isPermitted.isHome, isPermitted.found⟩
  rw [isScanned scan isPermitted.isHome rfl]
  refine isMarked.take fun offer isOffer isHeld => ?_
  -- A walk offers members of modules, which are open, and bindings of imports.
  obtain ⟨-, isFalse | ⟨visited, -, -, root, isRoot, isMember | isBound⟩⟩ :=
    (explores.isOffered offer).mp isOffer
  · cases isFalse
  · obtain ⟨isChild, child, isEntry, -, -, isOpen⟩ := isMember
    have isListed : offer.node ∈ environment.program.tree.listed visited := by
      rw [Tree.listed, isRoot]
      exact mem_append_left _ isChild
    have isReached : reaches isFromInside .external = true := rfl
    exact supplies.members isReached isListed isEntry isOpen
  · obtain ⟨_, -, entry, isEntry, isPublic, isBinding⟩ := isBound
    exact supplies.bindings isEntry (Node.isImport_of_publicTarget? isPublic) isBinding isHeld

end Layers

section Outward

variable (supplies : Supplies environment home true may)

include supplies

/-- What may be found of a scope around the lookup, in the states in which it is scanned. -/
structure Surrounds (environment : Environment) (home : NodeId) (may : NodeId → Prop)
    (isAt : State → Prop) (scope : NodeId) : Prop where
  method :
    ∀ {scan state after later}, isAt state → Scan.IsPermitted home may scan →
      scanMethod scope scan environment state = .ok (after, later) → after.IsPermitted home may
  areListed :
    ∀ {id entry}, id ∈ environment.program.tree.listed scope →
      environment.program.tree.node? id = some entry → may id
  stays :
    ∀ {scan state after later}, isAt state →
      scanScope scope scan environment state = .ok (after, later) → isAt later

variable {isAt : State → Prop} {scan after : Scan} {state later : State}

theorem keeps_scanScope
    {scope : NodeId} (surrounds : Surrounds environment home may isAt scope) (isHere : isAt state)
    (isPermitted : scan.IsPermitted home may)
    (returned : scanScope scope scan environment state = .ok (after, later)) :
    after.IsPermitted home may := by
  have members : KeepsTo environment home may (scanMembers .lexical none scope) :=
    keeps_scanMembers supplies scope
      (fun isListed isEntry _ => surrounds.areListed isListed isEntry) none
  have layers : KeepsTo environment home may _ :=
    members.unlessDone.andThen (supplies.mixins scope) |>.andThen
      ((keeps_closedUnderLayers supplies rfl).scanInherited scope) |>.andThen
      (Keeps.closedUnderSteps.scanImports (keeps_scanModule supplies) scope)
  simp only [bind_assoc] at layers
  obtain ⟨first, _, isFirst, returned⟩ := bind_eq_ok.mp returned
  exact layers (surrounds.method isHere isPermitted isFirst) returned

theorem keeps_scanOutward
    {scopes : List NodeId} (surround : ∀ scope ∈ scopes, Surrounds environment home may isAt scope)
    (isHere : isAt state) (isPermitted : scan.IsPermitted home may)
    (returned : scanOutward scopes scan environment state = .ok (after, later)) :
    after.IsPermitted home may := by
  induction scopes generalizing scan state with
  | nil =>
    cases returned
    exact isPermitted
  | cons scope rest ih =>
    obtain ⟨surrounds, surround⟩ := forall_mem_cons.mp surround
    obtain ⟨isCancelled, _, ⟨⟩, returned⟩ := bind_eq_ok.mp returned
    split at returned
    · cases returned
      exact ⟨isPermitted.isHome, nofun⟩
    · obtain ⟨middle, _, isFirst, returned⟩ := bind_eq_ok.mp returned
      have isKept := keeps_scanScope supplies surrounds isHere isPermitted isFirst
      unfold unlessDone at returned
      split at returned
      · cases returned
        exact isKept
      · exact ih surround (surrounds.stays isHere isFirst) isKept returned

theorem found_of_outward {name : Option String} {filter : Filter}
    (isHome : environment.program.tree.rootOf state.stack.top.scope = home)
    (surround :
      ∀ scope ∈ environment.program.tree.lineage state.stack.top.scope,
        Surrounds environment home may isAt scope)
    (isHere : isAt state)
    (returned :
      (do
        let scan ← start name filter
        let scan ← scanOutward ((← tree).lineage (← scope)) scan
        return scan.found) environment state =
        .ok (declarations, later)) : ∀ declaration ∈ declarations, may declaration.node := by
  obtain ⟨scan, _, isStart, walk⟩ := bind_eq_ok.mp returned
  obtain ⟨-, rfl, rfl⟩ := start_eq_ok.mp isStart
  obtain ⟨_, _, ⟨⟩, walk⟩ := bind_eq_ok.mp walk
  obtain ⟨_, _, ⟨⟩, walk⟩ := bind_eq_ok.mp walk
  obtain ⟨last, _, isWalk, ⟨⟩⟩ := bind_eq_ok.mp walk
  refine (keeps_scanOutward supplies surround isHere ?_ isWalk).found
  exact ⟨isHome, nofun⟩

end Outward

/-- The members of a symbol are found only if they may be found from outside. -/
theorem found_of_members {state later : State} {owner : Symbol} {name : String} {filter : Filter}
    (supplies :
      Supplies environment (environment.program.tree.rootOf state.stack.top.scope) false may)
    (returned : members owner name filter environment state = .ok (declarations, later)) :
    ∀ declaration ∈ declarations, may declaration.node := by
  obtain ⟨scan, _, isStart, walk⟩ := bind_eq_ok.mp returned
  obtain ⟨-, rfl, rfl⟩ := start_eq_ok.mp isStart
  generalize environment.program.tree.rootOf _ = home at supplies walk
  have isReached : reaches false .external = true := rfl
  have isStartPermitted : Scan.IsPermitted home may { name := some name, filter, home } :=
    ⟨rfl, nofun⟩
  cases isShape : owner.shape with
  | aggregate aggregate =>
    rw [isShape] at walk
    obtain ⟨first, _, isFirst, walk⟩ := bind_eq_ok.mp walk
    obtain ⟨second, _, isSecond, walk⟩ := bind_eq_ok.mp walk
    obtain ⟨third, _, isThird, ⟨⟩⟩ := bind_eq_ok.mp walk
    have isPermitted :=
      keeps_scanMembers supplies _ (supplies.members isReached) _ isStartPermitted isFirst
    have isSecondPermitted := (supplies.mixins aggregate.node).unlessDone isPermitted isSecond
    have bases := (keeps_closedUnderLayers supplies isReached).scanBasesOf owner
    exact (bases.unlessDone isSecondPermitted isThird).found
  | enumeration node _ =>
    rw [isShape] at walk
    obtain ⟨scanned, _, isScanned, ⟨⟩⟩ := bind_eq_ok.mp walk
    exact (keeps_scanMembers supplies node (supplies.members isReached) none isStartPermitted
      isScanned).found
  | module node =>
    rw [isShape] at walk
    obtain ⟨scanned, _, isScanned, ⟨⟩⟩ := bind_eq_ok.mp walk
    exact (keeps_scanModule supplies node isStartPermitted isScanned).found
  | _ =>
    rw [isShape] at walk
    cases walk
    exact isStartPermitted.found

/-! ## Trees that are searched -/

section Ordered

variable {isFromInside : Bool} (isOrdered : environment.program.tree.IsOrdered)

include isOrdered

theorem supplies_mayGive :
    Supplies environment home isFromInside (environment.program.MayGive home isFromInside) where
  members := by
    intro access isReached scope id entry _ isEntry isOpen
    refine ⟨entry, isEntry, ?_⟩
    simp only [Scan.isOpen, Scan.mayAccess, Bool.or_eq_true, beq_iff_eq] at isOpen
    rcases isOpen with rfl | isOpen
    · cases isReached
    split at isOpen
    next isPublic => exact .inr (.inr (.inl isPublic))
    next isPrivate => exact .inl (beq_iff_eq.mp isOpen)
    next isPackage =>
      simp only [Bool.or_eq_true, beq_iff_eq] at isOpen
      rcases isOpen with isSame | isSamePackage
      · exact .inl isSame
      · exact .inr (.inr (.inr (.inl ⟨isPackage, isSamePackage⟩)))
    next isProtected =>
      simp only [Bool.or_eq_true, beq_iff_eq] at isOpen
      rcases isOpen with isSame | rfl
      · exact .inl isSame
      · exact .inr (.inr (.inr (.inr ⟨isProtected, isReached⟩)))
  bindings := by
    intro id entry binding isEntry isImport isBinding isHeld
    obtain ⟨bound, isBound⟩ := Option.isSome_iff_exists.mp isHeld
    have isListed : binding ∈ environment.program.tree.listed id := by
      rw [Tree.listed, isEntry]
      exact mem_append_left _ isBinding
    have isParent := isOrdered.isCoherent.parentOfListed isListed
    rw [Tree.parent?, isBound] at isParent
    exact ⟨bound, isBound, .inr (.inl ⟨id, entry, isParent, isEntry, isImport⟩)⟩
  mixins := by
    intro scope
    unfold scanMixins
    refine .after fun entry _ _ _ => Keeps.closedUnderSteps.foldlM fun child _ =>
      .after fun childEntry _ _ isRead => ?_
    rw [isOrdered.hasNoMixin child childEntry (node_eq_ok.mp isRead).1]
    exact .unchanged

variable {method : NodeId}
  (isHome : environment.program.tree.rootOf method = home)

include isHome

theorem mayGive_of_encloses
    {id : NodeId} (isInside : environment.program.tree.encloses method id = true)
    (isHeld : environment.program.tree.holds id = true) :
    environment.program.MayGive home isFromInside id := by
  obtain ⟨entry, isEntry⟩ := Option.isSome_iff_exists.mp isHeld
  have isAncestor : method ∈ environment.program.tree.lineage id := by
    simpa [Tree.encloses] using isInside
  have sameRoot := isOrdered.isCoherent.rootOf_of_mem_lineage isAncestor
  exact ⟨entry, isEntry, .inl (sameRoot.symm.trans isHome)⟩

omit isHome in
theorem keeps_scanMixedIn {mixin : NodeId} :
    KeepsTo environment home may fun scan => scanMixedIn scan mixin := by
  refine .after fun tree _ _ _ => .after fun brought _ _ isBrought => ?_
  -- A declaration that is no mixin brings nothing in.
  obtain ⟨entry, _, isRead, returned⟩ := bind_eq_ok.mp isBrought
  have isNoMixin := isOrdered.hasNoMixin mixin entry (node_eq_ok.mp isRead).1
  cases isKind : entry.kind with
  | mixin target => simp [Node.isMixin, isKind] at isNoMixin
  | _ =>
    rw [isKind] at returned
    cases returned
    exact .unchanged

/-- The statements of the function declare what belongs to the function. -/
def DeclaresWithin (tree : Tree) (method : NodeId) : Prop :=
  ∀ {id statement}, tree.IsStatementOf method id → tree.statement? id = some statement →
    ∀ node, statement.declares node = true → tree.encloses method node = true

variable (declaresWithin : DeclaresWithin environment.program.tree method) {id : StatementId}

include declaresWithin

theorem keeps_scanStatement (isStatement : environment.program.tree.IsStatementOf method id) :
    KeepsTo environment home (environment.program.MayGive home isFromInside) fun scan =>
      scanStatement scan id := by
  refine .after fun entry _ _ isRead => ?_
  have isEntry := (statement_eq_ok.mp isRead).1
  split
  next nodes isKind =>
    refine .after fun tree _ _ isTree => .ofPure fun scan isPermitted =>
      isPermitted.considerAll fun node isMember isHeld => ?_
    cases isTree
    apply mayGive_of_encloses isOrdered isHome (declaresWithin isStatement isEntry node _) isHeld
    exact Statement.declares_iff.mpr (by rwa [Statement.declared, isKind])
  next => exact keeps_scanMixedIn isOrdered
  next => exact .unchanged

theorem keeps_scanAround
    (isStatement : environment.program.tree.IsStatementOf method id) (caret : Position)
    (isInnermost : Bool) :
    KeepsTo environment home (environment.program.MayGive home isFromInside) fun scan =>
      scanAround caret isInnermost scan id := by
  refine .after fun tree _ _ isTree => .after fun entry _ _ isRead => ?_
  cases isTree
  have isEntry := (statement_eq_ok.mp isRead).1
  split
  next children isKind =>
    refine Keeps.closedUnderSteps.foldlM fun child isEarlier =>
      keeps_scanStatement isOrdered isHome declaresWithin ?_
    apply isStatement.part isEntry
    rw [Statement.parts, isKind]
    exact (takeWhile_sublist _).subset isEarlier
  next loopVariables _ _ _ isKind =>
    cases isInnermost with
    | true => exact .unchanged
    | false =>
      refine .ofPure fun scan isPermitted =>
        isPermitted.considerAll fun node isMember isHeld => ?_
      apply mayGive_of_encloses isOrdered isHome (declaresWithin isStatement isEntry node _) isHeld
      exact Statement.declares_iff.mpr (by rwa [Statement.declared, isKind])
  next => exact .unchanged

theorem keeps_scanLocals :
    KeepsTo environment home (environment.program.MayGive home isFromInside)
      (scanLocals method) := by
  refine .after fun state _ _ _ => ?_
  split
  next => exact .unchanged
  next current _ =>
    refine .after fun entry _ _ isRead => ?_
    have isEntry := (statement_eq_ok.mp isRead).1
    cases isOther : entry.owner != method with
    | true => exact .unchanged
    | false =>
      have isOwner : environment.program.tree.owner? current = some method := by
        rw [Tree.owner?, isEntry]
        exact congrArg some (by simpa using isOther)
      refine .after fun tree _ _ isTree => ?_
      cases isTree
      apply Keeps.comp (keeps_scanAround isOrdered isHome declaresWithin (.owned isOwner) _ true)
      refine Keeps.closedUnderSteps.foldlM fun outer isAround => ?_
      have isOuterOwner := isOrdered.isCoherent.owner?_of_mem_statementLineage isOwner
        (mem_of_mem_tail isAround)
      exact keeps_scanAround isOrdered isHome declaresWithin (.owned isOuterOwner) _ false

omit declaresWithin in
theorem surrounds_mayGive :
    Surrounds environment home (environment.program.MayGive home isFromInside) (fun _ => True)
      method where
  method := by
    intro scan state after later _ isPermitted returned
    suffices keeps : KeepsTo environment home (environment.program.MayGive home isFromInside)
        (scanMethod method) from keeps isPermitted returned
    refine .after fun entry _ _ isRead => ?_
    have isEntry := (node_eq_ok.mp isRead).1
    cases isMethod : entry.isMethod with
    | false => exact .unchanged
    | true =>
      apply Keeps.comp (keeps_scanLocals isOrdered isHome
        (isOrdered.keepsToMethods.declared isEntry isMethod))
      refine .after fun tree _ _ isTree => .ofPure fun scan isPermitted =>
        isPermitted.considerAll fun id isParameter isHeld => ?_
      cases isTree
      exact mayGive_of_encloses isOrdered isHome
        (isOrdered.keepsToMethods.parameters isEntry id isParameter) isHeld
  areListed := by
    intro id entry isListed isEntry
    have sameRoot := isOrdered.isCoherent.rootOf_of_parent?
      (isOrdered.isCoherent.parentOfListed isListed)
    exact ⟨entry, isEntry, .inl (sameRoot.trans isHome)⟩
  stays _ _ := trivial

end Ordered

end Lookup

/-- A search for declarations from the current scope. -/
inductive Search where
  | lookup (name : String) (filter : Filter)
  | enumerate (filter : Filter)
  | members (owner : Symbol) (name : String) (filter : Filter)

namespace Search

def operation : Search → Operation (List Declaration)
  | lookup name filter => .lookup name filter
  | enumerate filter => .enumerate filter
  | members owner name filter => .searchMembers owner name filter

/-- Whether the search goes outward from inside the scopes that it scans. -/
def isFromInside : Search → Bool
  | lookup .. | enumerate _ => true
  | members .. => false

end Search

/--
A search gives from another module only what its visibility permits.

What it gives is there, and it is public, or of the same package, or protected
and met on the way outward; only the bindings of an import are given whatever
their visibility. So nothing private of another module is ever given, and
nothing protected as a member that is named from outside.
-/
theorem search_respects_visibility
    (program : Program)
    (evaluator : Evaluator)
    (search : Search)
    (isDrafted : program.tree.IsDrafted)
    (hasNoMixin : program.tree.HasNoMixin)
    (keepsToMethods : program.tree.KeepsToMethods)
    {limit : Nat}
    {state final : State}
    {declarations : List Declaration}
    (returned :
      Engine.run program evaluator limit search.operation.query state =
        .ok (declarations, final)) :
    ∀ declaration ∈ declarations,
      ∃ entry,
        program.tree.node? declaration.node = some entry ∧
          (program.tree.rootOf declaration.node ≠ program.tree.rootOf state.stack.top.scope →
            (∀ outer outerEntry,
              entry.parent = some outer → program.tree.node? outer = some outerEntry →
                outerEntry.isImport = false) →
            program.Permits (program.tree.rootOf state.stack.top.scope) search.isFromInside
              declaration.node entry) := by
  have isOrdered : program.tree.IsOrdered := ⟨isDrafted.isCoherent, hasNoMixin, keepsToMethods⟩
  have mayGive :
      ∀ declaration ∈ declarations,
        program.MayGive (program.tree.rootOf state.stack.top.scope) search.isFromInside
          declaration.node := by
    cases search with
    | lookup | enumerate =>
      exact Lookup.found_of_outward (Lookup.supplies_mayGive isOrdered) rfl
        (fun scope isAncestor => Lookup.surrounds_mayGive isOrdered
          (isOrdered.isCoherent.rootOf_of_mem_lineage isAncestor)) trivial returned
    | members =>
      exact Lookup.found_of_members (Lookup.supplies_mayGive isOrdered) returned
  intro declaration isGiven
  obtain ⟨entry, isEntry,
      isHome | ⟨outer, outerEntry, isOuter, isOuterEntry, isImport⟩ | permits⟩ :=
    mayGive declaration isGiven
  · exact ⟨entry, isEntry, fun isOther => absurd isHome isOther⟩
  · refine ⟨entry, isEntry, fun _ isNoBinding => ?_⟩
    rw [isNoBinding outer outerEntry isOuter isOuterEntry] at isImport
    cases isImport
  · exact ⟨entry, isEntry, fun _ _ => permits⟩

/--
A class with members of every visibility, and in another module of the package a
function of a class that is derived from it.
-/
def Draft.inheriting : List Step :=
  [ .module "library.base",
    .member ⟨0⟩ "Base" (.aggregate .classType false []),
    .member ⟨1⟩ "open" (.var (some (.basic .int)) none),
    .member ⟨1⟩ "hidden" (.var (some (.basic .int)) none),
    .visibility ⟨3⟩ .privateAccess,
    .member ⟨1⟩ "shared" (.var (some (.basic .int)) none),
    .visibility ⟨4⟩ .packageAccess,
    .member ⟨1⟩ "kept" (.var (some (.basic .int)) none),
    .visibility ⟨5⟩ .protectedAccess,
    .module "library.derived",
    .member ⟨6⟩ "library.base" (.importModule "library.base" false false),
    .member ⟨6⟩ "Derived" (.aggregate .classType false [.named "Base"]),
    .member ⟨8⟩ "f" (.method none [] none),
    .parameter ⟨9⟩ "argument" (.basic .int),
    .body ⟨9⟩,
    .localVariable ⟨0⟩ "own" (some (.basic .int)) none,
    .statement ⟨0⟩ (.returning none) ]

/-- The program of the two classes. -/
def Program.inheriting : Program :=
  .ofTree (.ofSteps Draft.inheriting)

/--
From the function the members of the base are given, the protected one included
and the private one left out.
-/
theorem search_respects_visibility_in_inheriting :
    ∃ declarations final,
      Engine.run .inheriting .standard 9 (Search.enumerate .all).operation.query
            (.start ⟨9⟩ (some ⟨2⟩)) =
          .ok (declarations, final) ∧
        declarations.map Declaration.node = [⟨11⟩, ⟨10⟩, ⟨9⟩, ⟨2⟩, ⟨4⟩, ⟨5⟩, ⟨8⟩, ⟨1⟩] ∧
          ∀ declaration ∈ declarations,
            ∃ entry,
              Program.inheriting.tree.node? declaration.node = some entry ∧
                (Program.inheriting.tree.rootOf declaration.node ≠ ⟨6⟩ →
                  (∀ outer outerEntry,
                    entry.parent = some outer →
                      Program.inheriting.tree.node? outer = some outerEntry →
                      outerEntry.isImport = false) →
                  Program.inheriting.Permits ⟨6⟩ true declaration.node entry) := by
  refine exists_returned
    (·.1.map Declaration.node == [⟨11⟩, ⟨10⟩, ⟨9⟩, ⟨2⟩, ⟨4⟩, ⟨5⟩, ⟨8⟩, ⟨1⟩]) (by decide +kernel) ?_
  intro declarations final returned nodes
  have isTree : Program.inheriting.tree = .ofSteps Draft.inheriting := (Program.ofTree_spec _).1
  have isRoot : Program.inheriting.tree.rootOf ⟨9⟩ = ⟨6⟩ := by decide +kernel
  have isDrafted : Program.inheriting.tree.IsDrafted :=
    isTree ▸ Tree.isDrafted_ofSteps (by decide +kernel)
  have hasNoMixin : Program.inheriting.tree.HasNoMixin := Tree.hasNoMixin_of_all (by decide +kernel)
  have keepsToMethods : Program.inheriting.tree.KeepsToMethods :=
    Tree.keepsToMethods_of_check (by decide +kernel)
  refine ⟨beq_iff_eq.mp nodes, ?_⟩
  rw [← isRoot]
  exact search_respects_visibility .inheriting .standard (.enumerate .all) isDrafted hasNoMixin
    keepsToMethods returned

end DScope
