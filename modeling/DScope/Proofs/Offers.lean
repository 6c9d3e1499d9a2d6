import DScope.Lookup.Scan
import DScope.Proofs.Descent

namespace DScope

/-!
# What a scan is offered

A scan of members, and a scan of a module together with what it imports publicly, is
offered declarations one after another, and takes those that it looks for. What it is
offered does not depend on what it looks for. A module offers its own declarations
once, however often the imports lead to it.
-/

open List

variable {tree : Tree} {id : NodeId} {program : Program}

namespace Tree

def holds (tree : Tree) (id : NodeId) : Bool :=
  (tree.node? id).isSome

theorem holds_of_node? {entry : Node} (isEntry : tree.node? id = some entry) :
    tree.holds id = true := by
  rw [holds, isEntry]
  rfl

theorem mem_nodeIds_of_holds (isHeld : tree.holds id = true) : id ∈ tree.nodeIds := by
  obtain ⟨entry, isEntry⟩ := Option.isSome_iff_exists.mp isHeld
  obtain ⟨isSmaller, -⟩ := Array.getElem?_eq_some_iff.mp isEntry
  exact mem_map.mpr ⟨id.index, mem_range.mpr isSmaller, rfl⟩

theorem remaining_nodeIds_lt (tree : Tree) : remaining tree.nodeIds [] < tree.nodes.size + 1 := by
  have isBounded := length_filter_le (fun id => !([] : List NodeId).contains id) tree.nodeIds
  simp only [remaining, nodeIds, length_map, length_range] at isBounded ⊢
  omega

end Tree

namespace Node

def isImport (node : Node) : Bool :=
  match node.kind with
  | .importModule .. => true
  | _ => false

/-- Whether the declaration is a mixin without a name. -/
def isAnonymousMixin (node : Node) : Bool :=
  node.isMixin && node.name.isEmpty

/-- The name of the module that a public import imports. -/
def publicTarget? (node : Node) : Option String :=
  match node.kind with
  | .importModule target true _ => some target
  | _ => none

theorem isImport_of_publicTarget? {node : Node} (isPublic : node.publicTarget?.isSome = true) :
    node.isImport = true := by
  unfold publicTarget? at isPublic
  unfold isImport
  split at isPublic <;> simp_all

end Node

namespace Scan

variable {home : NodeId} {access : Access} {via : Option Symbol} {scan : Scan}

def nodes (scan : Scan) : List NodeId :=
  scan.found.map Declaration.node

def IsDistinct (scan : Scan) : Prop :=
  (scan.found.map Declaration.node).Nodup

/-- Whether the declaration at a place is looked for. -/
def seeks (tree : Tree) (scan : Scan) (id : NodeId) : Bool :=
  (tree.node? id).any scan.wants

/-- The scan with a declaration that it is offered, if it looks for it. -/
def take (tree : Tree) (scan : Scan) (offer : Declaration) : Scan :=
  scan.consider tree offer.via offer.node

theorem take_eq (tree : Tree) (scan : Scan) (offer : Declaration) :
    scan.take tree offer =
      if scan.seeks tree offer.node = true ∧ offer.node ∉ scan.nodes then
        { scan with found := scan.found ++ [offer] }
      else
        scan := by
  obtain ⟨id, via⟩ := offer
  unfold take consider seeks
  cases tree.node? id with
  | none => simp
  | some node => grind [add, nodes]

/-- Taking offers finds those that are looked for, each once, whatever was seen or is open. -/
theorem exists_foldl_take (tree : Tree) (offers : List Declaration) (scan : Scan) :
    ∃ found,
      (∀ seenModules openBlocks,
        offers.foldl (take tree) { scan with seenModules, openBlocks } =
          { scan with found, seenModules, openBlocks }) ∧
        (scan.IsDistinct → IsDistinct { scan with found }) ∧
        ∀ id, id ∈ found.map Declaration.node ↔
          id ∈ scan.nodes ∨ (scan.seeks tree id = true ∧ id ∈ offers.map Declaration.node) := by
  induction offers generalizing scan with
  | nil => exact ⟨scan.found, fun _ _ => rfl, id, by simp [nodes]⟩
  | cons offer rest ih =>
    by_cases isAdded : scan.seeks tree offer.node = true ∧ offer.node ∉ scan.nodes
    · obtain ⟨found, isTaken, isDistinct, isFound⟩ :=
        ih { scan with found := scan.found ++ [offer] }
      refine ⟨found, fun seenModules openBlocks => ?_, fun wasDistinct => isDistinct ?_, ?_⟩
      · have isNext :=
          (take_eq tree { scan with seenModules, openBlocks } offer).trans (if_pos isAdded)
        exact (congrArg (rest.foldl (take tree)) isNext).trans (isTaken seenModules openBlocks)
      · have isNew : offer.node ∉ scan.nodes := isAdded.2
        simpa [IsDistinct, nodup_append] using ⟨wasDistinct, by simpa [nodes] using isNew⟩
      · have isSought (id : NodeId) :
            seeks tree { scan with found := scan.found ++ [offer] } id = scan.seeks tree id :=
          rfl
        grind [nodes]
    · obtain ⟨found, isTaken, isDistinct, isFound⟩ := ih scan
      refine ⟨found, fun seenModules openBlocks => ?_, isDistinct, ?_⟩
      · have isNext :=
          (take_eq tree { scan with seenModules, openBlocks } offer).trans (if_neg isAdded)
        exact (congrArg (rest.foldl (take tree)) isNext).trans (isTaken seenModules openBlocks)
      · grind

theorem home_foldl_take (tree : Tree) (offers : List Declaration) (scan : Scan) :
    (offers.foldl (take tree) scan).home = scan.home := by
  obtain ⟨found, isTaken, -⟩ := exists_foldl_take tree offers scan
  rw [isTaken scan.seenModules scan.openBlocks]

theorem forall_found_foldl_take {offers : List Declaration} (property : NodeId → Prop)
    (areFound : ∀ declaration ∈ scan.found, property declaration.node)
    (areOffered : ∀ offer ∈ offers, tree.holds offer.node = true → property offer.node) :
    ∀ declaration ∈ (offers.foldl (take tree) scan).found, property declaration.node := by
  obtain ⟨found, isTaken, -, isFound⟩ := exists_foldl_take tree offers scan
  intro declaration isMember
  rw [isTaken scan.seenModules scan.openBlocks] at isMember
  rcases (isFound _).mp (mem_map_of_mem isMember) with isOld | ⟨isSought, isOffer⟩
  · obtain ⟨old, isOld, isSame⟩ := mem_map.mp isOld
    exact isSame ▸ areFound old isOld
  · obtain ⟨offer, isOffer, isSame⟩ := mem_map.mp isOffer
    rw [← isSame] at isSought ⊢
    exact areOffered offer isOffer (Option.isSome_of_any isSought)

theorem foldl_take_of_nodup
    {offers : List Declaration} (areDistinct : (offers.map Declaration.node).Nodup)
    (areNew : ∀ offer ∈ offers, offer.node ∉ scan.nodes) :
    offers.foldl (take tree) scan =
      { scan with found := scan.found ++ offers.filter (scan.seeks tree ·.node) } := by
  induction offers generalizing scan with
  | nil => simp
  | cons offer rest ih =>
    obtain ⟨isOther, areDistinct⟩ := nodup_cons.mp areDistinct
    have isNew := areNew offer mem_cons_self
    have areNewRest : ∀ later ∈ rest, later.node ∉ scan.nodes := (forall_mem_cons.mp areNew).2
    rw [foldl_cons, take_eq]
    cases isSought : scan.seeks tree offer.node with
    | false => simp [isSought, ih areDistinct areNewRest]
    | true =>
      rw [if_pos ⟨rfl, isNew⟩, ih areDistinct]
      · have isSame : seeks tree { scan with found := scan.found ++ [offer] } = scan.seeks tree := rfl
        simp [isSame, isSought]
      · grind [nodes]

theorem foldl_consider_eq (tree : Tree) (scan : Scan) (ids : List NodeId) :
    ids.foldl (consider tree none) scan =
      { scan with
        found := scan.found ++
          (ids.filter fun id => scan.seeks tree id && id ∉ scan.nodes).eraseDups.map (⟨·, none⟩) } := by
  induction ids generalizing scan with
  | nil => simp
  | cons id rest ih =>
    have isTaken : scan.consider tree none id = _ := take_eq tree scan ⟨id, none⟩
    rw [foldl_cons, isTaken, ih]
    by_cases isAdded : scan.seeks tree id = true ∧ id ∉ scan.nodes
    · let added : Scan := { scan with found := scan.found ++ [⟨id, none⟩] }
      have areNew :
          (rest.filter fun other => added.seeks tree other && other ∉ added.nodes) =
            (rest.filter fun other => scan.seeks tree other && other ∉ scan.nodes).filter
              (!· == id) := by
        have sameSeeks : added.seeks tree = scan.seeks tree := rfl
        have moreNodes : added.nodes = scan.nodes ++ [id] := by simp [nodes, added]
        rw [sameSeeks, moreNodes, filter_filter]
        apply filter_congr
        intro other _
        by_cases isSame : other = id <;> simp [isSame]
      rw [if_pos isAdded, areNew, filter_cons_of_pos (by simpa using isAdded), eraseDups_cons]
      simp
    · grind

/-! ## Members -/

/-- Whether a declaration may be named from a module across the given access. -/
def isOpen (program : Program) (home : NodeId) (access : Access) (id : NodeId) (node : Node) :
    Bool :=
  ({ name := none, filter := .all, home } : Scan).mayAccess program access id node

/-- What one member of a scope offers. -/
def memberOffers (program : Program) (home : NodeId) (access : Access) (via : Option Symbol)
    (id : NodeId) : List Declaration :=
  match program.tree.node? id with
  | none => []
  | some node =>
    if node.isImport then
      if access == .lexical then node.children.map (⟨·, none⟩) else []
    else if !node.isAnonymousMixin && isOpen program home access id node then
      [⟨id, via⟩]
    else
      []

/-- What a scope offers. -/
def offers (program : Program) (home : NodeId) (access : Access) (via : Option Symbol)
    (scope : Node) : List Declaration :=
  scope.children.flatMap (memberOffers program home access via) ++
    if access == .lexical then scope.templateParameters.map (⟨·, none⟩) else []

theorem member_eq (scan : Scan) (id : NodeId) :
    scan.member program access via id =
      (memberOffers program scan.home access via id).foldl (take program.tree) scan := by
  have sameAccess (node : Node) :
      scan.mayAccess program access id node = isOpen program scan.home access id node :=
    rfl
  unfold member memberOffers
  cases isEntry : program.tree.node? id with
  | none => rfl
  | some node =>
    cases isKind : node.kind with
    | importModule module isPublic isStatic =>
      have isImport : node.isImport = true := by rw [Node.isImport, isKind]
      simp only [isKind, if_true]
      split
      · rw [foldl_map]
        rfl
      · rfl
    | _ =>
      simp only [isKind, Node.isImport, Node.isAnonymousMixin, Node.isMixin]
      grind [take, consider]

theorem foldl_member_eq (children : List NodeId) (scan : Scan) :
    children.foldl (member program access via) scan =
      (children.flatMap (memberOffers program scan.home access via)).foldl (take program.tree)
        scan := by
  induction children generalizing scan with
  | nil => rfl
  | cons child rest ih =>
    rw [foldl_cons, flatMap_cons, foldl_append, member_eq, ih, home_foldl_take]

theorem members_eq (scan : Scan) (scope : Node) :
    scan.members program access via scope =
      (offers program scan.home access via scope).foldl (take program.tree) scan := by
  unfold members offers
  rw [foldl_member_eq, foldl_append]
  split
  · rw [foldl_map]
    rfl
  · rfl

end Scan

/-! ## Modules -/

namespace Program

/-- The declaration is a public import of a module as a whole. -/
def PassesOn (program : Program) (id imported : NodeId) : Prop :=
  ∃ entry target,
    program.tree.node? id = some entry ∧
      entry.publicTarget? = some target ∧
      entry.children = [] ∧ program.module? target = some imported

/-- The declaration is a public import that binds the name. -/
def Binds (program : Program) (id name : NodeId) : Prop :=
  ∃ entry,
    program.tree.node? id = some entry ∧
      entry.publicTarget?.isSome = true ∧ name ∈ entry.children

/-- The declaration is one of its own that may be named from a module. -/
def IsOpenTo (program : Program) (home id : NodeId) : Prop :=
  ∃ entry,
    program.tree.node? id = some entry ∧
      entry.isImport = false ∧
      entry.isAnonymousMixin = false ∧
        Scan.isOpen program home .external id entry = true

/-- The first module publicly imports the second one as a whole. -/
def Reexports (program : Program) (id imported : NodeId) : Prop :=
  ∃ root,
    program.tree.node? id = some root ∧ ∃ child ∈ root.children, program.PassesOn child imported

/-- The module gives a declaration to a module that imports it. -/
def Exports (program : Program) (home id member : NodeId) : Prop :=
  ∃ root,
    program.tree.node? id = some root ∧
      ((member ∈ root.children ∧ program.IsOpenTo home member) ∨
        ∃ child ∈ root.children, program.Binds child member)

end Program

namespace Scan

variable {program : Program} {home : NodeId} {steps : Nat} {seen : List NodeId}

theorem mem_offers_external {root : Node} {offer : Declaration} :
    offer ∈ offers program home .external none root ↔
      offer.via = none ∧ offer.node ∈ root.children ∧ program.IsOpenTo home offer.node := by
  have member_iff (child : NodeId) :
      offer ∈ memberOffers program home .external none child ↔
        offer = ⟨child, none⟩ ∧ program.IsOpenTo home child := by
    unfold memberOffers Program.IsOpenTo
    cases program.tree.node? child with
    | none => simp
    | some entry => grind
  obtain ⟨node, via⟩ := offer
  simp only [offers]
  grind

/--
A walk through modules that were not seen.

It starts at the roots, and offers what they and the modules that they lead to export,
besides some names. With steps left for every module it leaves none out.
-/
structure Explores (program : Program) (home : NodeId) (steps : Nat) (roots names : NodeId → Prop)
    (seen later : List NodeId) (offers : List Declaration) : Prop where
  grows : seen ⊆ later
  isReached :
    ∀ id ∈ later, id ∈ seen ∨ ∃ root, roots root ∧ Relation.ReflTransGen program.Reexports root id
  isClosed :
    remaining program.tree.nodeIds seen < steps →
      ∀ id, (roots id ∨ ∃ module ∈ later, module ∉ seen ∧ program.Reexports module id) →
      program.tree.holds id = true → id ∈ later
  isOffered :
    ∀ offer,
      offer ∈ offers ↔
        offer.via = none ∧
          (names offer.node ∨
            ∃ module ∈ later, module ∉ seen ∧ program.Exports home module offer.node)

/-- A step of a scan walks through modules and takes what they offer. -/
def Gathers (program : Program) (home : NodeId) (steps : Nat) (roots names : NodeId → Prop)
    (seen : List NodeId) (step : Scan → Scan) : Prop :=
  ∃ later offers,
    Explores program home steps roots names seen later offers ∧
      ∀ scan, scan.home = home → scan.seenModules = seen →
        step scan = offers.foldl (take program.tree) { scan with seenModules := later }

theorem exists_new_iff {middle later : List NodeId} {property : NodeId → Prop}
    (grows : seen ⊆ middle) (growsOn : middle ⊆ later) :
    (∃ id ∈ later, id ∉ seen ∧ property id) ↔
      (∃ id ∈ middle, id ∉ seen ∧ property id) ∨ ∃ id ∈ later, id ∉ middle ∧ property id := by
  constructor
  · rintro ⟨id, isLater, isNew, holds⟩
    by_cases isMiddle : id ∈ middle
    · exact .inl ⟨id, isMiddle, isNew, holds⟩
    · exact .inr ⟨id, isLater, isMiddle, holds⟩
  · rintro (⟨id, isMiddle, isNew, holds⟩ | ⟨id, isLater, isNew, holds⟩)
    · exact ⟨id, growsOn isMiddle, isNew, holds⟩
    · exact ⟨id, isLater, fun isSeen => isNew (grows isSeen), holds⟩

namespace Gathers

variable {roots names : NodeId → Prop} {step : Scan → Scan}

theorem ofNames (bound : List NodeId)
    (areSeen :
      remaining program.tree.nodeIds seen < steps →
        ∀ id, roots id → program.tree.holds id = true → id ∈ seen)
    (areBound : ∀ id, names id ↔ id ∈ bound)
    (isStep :
      ∀ scan : Scan, scan.seenModules = seen →
        step scan = bound.foldl (consider program.tree none) scan) :
    Gathers program home steps roots names seen step := by
  refine ⟨seen, bound.map (⟨·, none⟩), ⟨Subset.refl _, fun _ => .inl, ?_, ?_⟩, ?_⟩
  · rintro isEnough id (isRoot | ⟨module, isLater, isNew, -⟩) isHeld
    · exact areSeen isEnough id isRoot isHeld
    · exact absurd isLater isNew
  · rintro ⟨node, via⟩
    grind
  · rintro scan - rfl
    rw [isStep scan rfl, foldl_map]
    rfl

theorem comp {others more : NodeId → Prop} {next : Scan → Scan}
    (first : Gathers program home steps roots names seen step)
    (second : ∀ later, Gathers program home steps others more later next) :
    Gathers program home steps (fun id => roots id ∨ others id) (fun id => names id ∨ more id)
      seen fun scan => next (step scan) := by
  obtain ⟨middle, offers, explores, isStep⟩ := first
  obtain ⟨later, moreOffers, goesOn, isNext⟩ := second middle
  refine ⟨later, offers ++ moreOffers, ⟨?_, ?_, ?_, ?_⟩, ?_⟩
  · exact Subset.trans explores.grows goesOn.grows
  · intro id isLater
    rcases goesOn.isReached id isLater with isMiddle | ⟨root, isRoot, reaches⟩
    · rcases explores.isReached id isMiddle with isSeen | ⟨root, isRoot, reaches⟩
      · exact .inl isSeen
      · exact .inr ⟨root, .inl isRoot, reaches⟩
    · exact .inr ⟨root, .inr isRoot, reaches⟩
  · intro isEnough id isLink isHeld
    have isMoreEnough : remaining program.tree.nodeIds middle < steps :=
      Nat.lt_of_le_of_lt (remaining_le_of_subset explores.grows) isEnough
    rw [exists_new_iff explores.grows goesOn.grows, or_or_or_comm] at isLink
    rcases isLink with isBefore | isAfter
    · exact goesOn.grows (explores.isClosed isEnough id isBefore isHeld)
    · exact goesOn.isClosed isMoreEnough id isAfter isHeld
  · intro offer
    rw [mem_append, explores.isOffered, goesOn.isOffered, ← and_or_left,
      exists_new_iff explores.grows goesOn.grows, or_or_or_comm]
  · intro scan isHome isSeen
    obtain ⟨found, isTaken, -⟩ := exists_foldl_take program.tree offers scan
    dsimp only
    rw [isStep scan isHome isSeen, foldl_append, isTaken, isTaken]
    exact isNext { scan with found, seenModules := middle } isHome rfl

theorem foldl {step : Scan → NodeId → Scan}
    (each :
      ∀ child seen,
        Gathers program home steps (program.PassesOn child) (program.Binds child) seen
          (step · child))
    (children seen : List NodeId) :
    Gathers program home steps (fun id => ∃ child ∈ children, program.PassesOn child id)
      (fun id => ∃ child ∈ children, program.Binds child id) seen (children.foldl step) := by
  induction children generalizing seen with
  | nil => exact ofNames [] (by simp) (by simp) fun _ _ => rfl
  | cons child rest ih =>
    simp only [mem_cons, exists_eq_or_imp]
    exact (each child seen).comp ih

/-- A module that was not seen offers its members before its imports are gone through. -/
theorem unlessSeen {root : Node} (isRoot : program.tree.node? id = some root)
    (rest :
      Gathers program home steps (fun next => ∃ child ∈ root.children, program.PassesOn child next)
        (fun name => ∃ child ∈ root.children, program.Binds child name) (id :: seen) step) :
    Gathers program home (steps + 1) (id = ·) (fun _ => False) seen fun scan =>
      if scan.seenModules.contains id then
        scan
      else
        step (members program .external none { scan with seenModules := id :: scan.seenModules }
          root) := by
  by_cases isSeen : id ∈ seen
  · refine ofNames [] ?_ (by simp) ?_
    · rintro - _ rfl -
      exact isSeen
    · rintro scan rfl
      simp [isSeen]
  obtain ⟨later, moreOffers, explores, isStep⟩ := rest
  have hasSeen : seen ⊆ later := fun _ isSeen => explores.grows (mem_cons_of_mem id isSeen)
  have new_iff (property : NodeId → Prop) :
      (∃ module ∈ later, module ∉ seen ∧ property module) ↔
        property id ∨ ∃ module ∈ later, module ∉ id :: seen ∧ property module := by
    rw [exists_new_iff (subset_cons_self id seen) explores.grows]
    grind
  refine ⟨later, offers program home .external none root ++ moreOffers, ⟨hasSeen, ?_, ?_, ?_⟩, ?_⟩
  · intro other isLater
    rcases explores.isReached other isLater with isKnown | ⟨next, link, reaches⟩
    · rcases mem_cons.mp isKnown with rfl | isKnown
      · exact .inr ⟨other, rfl, .refl⟩
      · exact .inl isKnown
    · exact .inr ⟨id, rfl, .head ⟨root, isRoot, link⟩ reaches⟩
  · intro isEnough other isLink isHeld
    have isLess := remaining_cons_lt (Tree.mem_nodeIds_of_holds (Tree.holds_of_node? isRoot)) isSeen
    rw [new_iff] at isLink
    rcases isLink with rfl | ⟨_, isSame, isPassedOn⟩ | isLink
    · exact explores.grows mem_cons_self
    · cases isRoot.symm.trans isSame
      exact explores.isClosed (by omega) other (.inl isPassedOn) isHeld
    · exact explores.isClosed (by omega) other (.inr isLink) isHeld
  · intro offer
    rw [mem_append, mem_offers_external, explores.isOffered, new_iff]
    simp only [Program.Exports]
    grind
  · rintro scan rfl rfl
    obtain ⟨found, isTaken, -⟩ := exists_foldl_take program.tree
      (offers program scan.home .external none root) scan
    simp only [contains_eq_mem, isSeen]
    rw [members_eq, isTaken, foldl_append, isTaken]
    exact isStep { scan with found, seenModules := id :: scan.seenModules } rfl rfl

theorem module (steps : Nat) (id : NodeId) (seen : List NodeId) :
    Gathers program home steps (id = ·) (fun _ => False) seen (Scan.module program steps · id) := by
  induction steps generalizing id seen with
  | zero =>
    exact ofNames [] (fun isEnough => absurd isEnough (Nat.not_lt_zero _)) (by simp) fun _ _ => rfl
  | succ steps ih =>
    unfold Scan.module
    cases isRoot : program.tree.node? id with
    | none =>
      refine ofNames [] ?_ (by simp) fun _ _ => rfl
      rintro - _ rfl isHeld
      simp [Tree.holds, isRoot] at isHeld
    | some root =>
      refine unlessSeen isRoot (foldl (fun child seen => ?_) root.children _)
      unfold Program.PassesOn Program.Binds
      cases program.tree.node? child with
      | none => exact ofNames [] (by simp) (by simp) fun _ _ => rfl
      | some entry =>
        dsimp only
        split
        next target isStatic isKind =>
          have isTarget : entry.publicTarget? = some target := by
            rw [Node.publicTarget?, isKind]
          split
          next hasNone =>
            have isWhole : entry.children = [] := by simpa using hasNone
            cases isModule : program.module? target with
            | none =>
              exact ofNames [] (by simp [isTarget, isModule]) (by simp [isWhole]) fun _ _ => rfl
            | some imported =>
              simpa [isTarget, isWhole, isModule] using ih imported seen
          next => exact ofNames entry.children (by simp_all) (by simp [isTarget]) fun _ _ => rfl
        next =>
          have hasNoTarget : entry.publicTarget? = none := by
            unfold Node.publicTarget?
            split <;> simp_all
          exact ofNames [] (by simp [hasNoTarget]) (by simp [hasNoTarget]) fun _ _ => rfl

end Gathers

theorem exists_walk (program : Program) (home : NodeId) (steps : Nat) (id : NodeId)
    (seen : List NodeId) :
    ∃ later offers,
      Explores program home steps (id = ·) (fun _ => False) seen later offers ∧
        ∀ scan : Scan, scan.home = home → scan.seenModules = seen →
          scan.module program steps id =
            offers.foldl (take program.tree) { scan with seenModules := later } :=
  Gathers.module steps id seen

end Scan

end DScope
