import DScope.Proofs.Sieve.Query

namespace DScope

/-!
# Lookup keeps to a realm

Lookup reads the tree at places that it has from the state, from symbols and from
the tree itself, so what it finds passes as well. Its bounds on nesting are taken
from the size of the tree and suffice in both programs.
-/

open Sieve

variable {realm : Realm} {standing : Standing} {asks : Question → Prop} {mixin : NodeId}

namespace Lookup

variable {scan : Scan} {scope : NodeId} {via : Option Symbol}

theorem unlessDone_confined {next : Scan → Query Scan}
    (each : ∀ {scan}, realm.Passes scan → realm.Confined standing asks (next scan))
    (passes : realm.Passes scan) : realm.Confined standing asks (unlessDone next scan) := by
  unfold unlessDone
  split
  · exact .pure passes
  · exact each passes

theorem scanMembers_confined (isVia : realm.Passes via) (isScope : realm.node scope)
    (access : Access) (passes : realm.Passes scan) :
    realm.Confined standing asks (scanMembers access via scope scan) := by
  refine .reading (.node_bind isScope fun entry _ isEntry => ?_)
  have follows := Follows.members realm.fits passes isVia isEntry access
  rw [follows.same]
  exact .pure follows.passes

theorem scanModule_confined
    {module : NodeId} (isModule : realm.node module) (passes : realm.Passes scan) :
    realm.Confined standing asks (scanModule module scan) := by
  refine .node_bind isModule fun _ _ _ => .reading ?_
  have follows := Follows.module realm.fits passes isModule
    (.ofSize (fun _ => rfl) (Nat.lt_succ_self _) _)
    (.ofSize realm.fits.tree.node? (Nat.lt_succ_self _) _)
  rw [follows.same]
  exact .pure follows.passes

theorem scanImports_confined (isScope : realm.node scope) (passes : realm.Passes scan) :
    realm.Confined standing asks (scanImports scope scan) := by
  refine .node_bind isScope fun entry _ isEntry => .bind .isCancelled fun stops _ => ?_
  split
  · exact .pure passes
  · refine .reading ?_
    rw [realm.fits.importTargets isEntry]
    have areModules := realm.fits.passes_importTargets entry scope
    exact .foldlM (fun later module isModule isLater =>
      scanModule_confined (passes_node.mp (areModules.mem isModule)) isLater) passes

theorem consider_confined
    {nodes : List NodeId} (areNodes : realm.Passes nodes) (passes : realm.Passes scan) :
    realm.Relates standing asks
      (pure (nodes.foldl (Scan.consider realm.narrow.tree none) scan))
      (pure (nodes.foldl (Scan.consider realm.wide.tree none) scan)) realm.Passes := by
  have follows := Follows.considerAll realm.fits.tree passes areNodes
  rw [follows.same]
  exact .pure follows.passes

theorem takeWhile_congr {α : Type} {items : List α} {test other : α → Bool}
    (agree : ∀ item ∈ items, test item = other item) :
    items.takeWhile test = items.takeWhile other := by
  induction items with
  | nil => rfl
  | cons item rest ih =>
    rw [List.takeWhile_cons, List.takeWhile_cons, agree item List.mem_cons_self,
      ih (List.forall_mem_cons.mp agree).2]

theorem start_confined (name : Option String) (filter : Filter) :
    realm.Confined standing asks (start name filter) := by
  refine Realm.Relates.scope.bind fun scope isScope => .node_bind isScope fun _ _ _ => ?_
  refine .tree_bind ?_
  rw [realm.fits.tree.rootOf isScope]
  exact .pure (passes_scan.mpr ⟨realm.fits.tree.passes_rootOf isScope, passes_nil⟩)

/-- A scan that passes and has the given blocks open. -/
structure StaysOpen (sieve : Sieve) (blocks : List NodeId) (scan : Scan) : Prop where
  passes : sieve.Passes scan
  openBlocks : scan.openBlocks = blocks

theorem StaysOpen.addIf {sieve : Sieve} {blocks : List NodeId}
    (keeps : StaysOpen sieve blocks scan) {id : NodeId} (isNode : sieve.node id)
    (isVia : sieve.Passes via) (condition : Bool) :
    StaysOpen sieve blocks (if condition then scan.add id via else scan) := by
  have follows := Follows.addIf keeps.passes isNode isVia (rfl : condition = condition)
  exact ⟨follows.passes, follows.openBlocks.trans keeps.openBlocks⟩

end Lookup

variable (raised : realm.narrow.tree.RaisesOnly asks)

include raised

namespace Query

theorem mixedIn_confined (isNode : realm.node mixin) :
    realm.Confined standing asks (mixedIn mixin) := by
  refine .node_bind isNode fun entry isEntry _ => ?_
  split
  next target isKind =>
    have isRaised : realm.narrow.tree.Raises (.type target) :=
      .declaration isEntry (by simp [Node.sharedQuestions, isKind]) (Nat.le_refl _)
    refine .tree_bind (.bind (.optional (.resolving (.withDeclaration isNode passes_noBindings
      (.resolve (by decide) (raised _ isRaised))))) fun found areFound => .pure ?_)
    exact ((areFound.optionBind fun _ passes => passes).getD passes_nil).find? _
  next => exact .pure passes_none

theorem symbolsThrough_confined {declaration : Declaration} (passes : realm.Passes declaration) :
    realm.Confined standing asks (symbolsThrough declaration) := by
  obtain ⟨isNode, isVia⟩ := passes_declaration.mp passes
  refine (Realm.Relates.symbolThrough raised isNode isVia).bind fun symbol isSymbol => .pure ?_
  exact (isSymbol.optionMap fun _ => Passes.candidates).getD passes_nil

theorem symbolsOf_confined {declarations : List Declaration} (passes : realm.Passes declarations) :
    realm.Confined standing asks (symbolsOf declarations) :=
  .collect fun _ isDeclared => symbolsThrough_confined raised (passes.mem isDeclared)

end Query

namespace Lookup

variable {scan : Scan} {scope : NodeId} {owner : Symbol} {id : StatementId}

/-- Scanning a mixin leaves the same blocks open as before. -/
theorem scanMixin_confined (isNode : realm.node mixin) {steps others : Nat}
    (isEnough : realm.Suffices realm.narrow.tree scan.openBlocks steps)
    (isOtherEnough : realm.Suffices realm.narrow.tree scan.openBlocks others)
    (passes : realm.Passes scan) :
    realm.Relates standing asks (scanMixin steps scan mixin) (scanMixin others scan mixin)
      (StaysOpen realm.toSieve scan.openBlocks) := by
  -- Every mixin opens a block that was not open, so the steps left suffice for the rest.
  induction steps generalizing standing others scan mixin with
  | zero =>
    obtain ⟨_, ⟨⟩⟩ := isEnough.exists_succ
  | succ steps ih =>
    obtain ⟨others, rfl⟩ := isOtherEnough.exists_succ
    refine (Query.mixedIn_confined raised isNode).bind fun brought isBrought => ?_
    split
    case h_2 => exact .pure ⟨passes, rfl⟩
    next brought =>
      split
      case h_2 => exact .pure ⟨passes, rfl⟩
      next aggregate isAggregate =>
        obtain ⟨isBlock, -, -, areBound, -⟩ :=
          passes_aggregate.mp ((passes_some.mp isBrought).aggregate? isAggregate)
        split
        · exact .pure ⟨passes, rfl⟩
        next isNew =>
          have isNew : aggregate.node ∉ scan.openBlocks := by simpa using isNew
          have isOpened :
              StaysOpen realm.toSieve (aggregate.node :: scan.openBlocks)
                { scan with openBlocks := aggregate.node :: scan.openBlocks } :=
            ⟨passes_scan.mpr (passes_scan.mp passes), rfl⟩
          refine .node_bind isBlock fun template isEntry isTemplate => ?_
          have isLeft := isEnough.step isBlock isEntry isNew
          have isOtherLeft := isOtherEnough.step isBlock isEntry isNew
          refine .bind (.foldlM ?_ isOpened) fun scanned isScanned => ?_
          · intro later member isMember keeps
            have isMember := passes_node.mp (isTemplate.children.mem isMember)
            refine .node_bind isMember fun entry _ isEntry => ?_
            split
            · have isNamed :=
                keeps.addIf isMember isBrought (!entry.name.isEmpty && later.wants entry)
              have isScope := isEntry.parent.getD (passes_node.mpr isMember)
              refine .bind (.framed ⟨rfl, .inr fun _ stands => by cases stands⟩
                (passes_node.mp isScope) (fun stands => by cases stands) areBound
                (ih isMember (isNamed.openBlocks ▸ isLeft) (isNamed.openBlocks ▸ isOtherLeft)
                  isNamed.passes))
                fun inner isInner => .pure ?_
              cases inner with
              | none => exact isNamed
              | some inner =>
                have keepsInner := isInner inner rfl
                exact ⟨keepsInner.passes, keepsInner.openBlocks.trans isNamed.openBlocks⟩
            · have isAdded := keeps.addIf isMember isBrought (later.wants entry)
              split
              next isWanted => exact .pure (by simpa only [isWanted, if_true] using isAdded)
              next => exact .pure keeps
          · refine .pure ⟨passes_scan.mpr (passes_scan.mp isScanned.passes), ?_⟩
            simp [isScanned.openBlocks]

theorem scanMixedIn_confined (isNode : realm.node mixin) (passes : realm.Passes scan) :
    realm.Confined standing asks (scanMixedIn scan mixin) := by
  exact .tree_bind ((scanMixin_confined raised isNode (.ofSize (fun _ => rfl) (Nat.lt_succ_self _) _)
    (.ofSize realm.fits.tree.node? (Nat.lt_succ_self _) _) passes).mono fun _ keeps => keeps.passes)

theorem scanMixins_confined (isScope : realm.node scope) (passes : realm.Passes scan) :
    realm.Confined standing asks (scanMixins scope scan) := by
  refine .node_bind isScope fun entry _ isEntry => .foldlM (fun later child isChild isLater => ?_)
    passes
  have isChild := passes_node.mp (isEntry.children.mem isChild)
  refine .node_bind isChild fun childEntry _ _ => ?_
  split
  · exact scanMixedIn_confined raised isChild isLater
  · exact .pure isLater

set_option linter.unusedSectionVars false in
mutual

theorem scanBase_confined (access : Access) :
    ∀ {base : Symbol} {scan : Scan}, realm.Passes base → realm.Passes scan →
      realm.Confined standing asks (scanBase access base scan)
  | ⟨shape, origin, modifier, tags⟩, scan, isBase, passes => by
    unfold scanBase
    cases shape with
    | aggregate aggregate =>
      obtain ⟨kind, scope, baseClass, interfaces, bindings⟩ := aggregate
      obtain ⟨isScope, isBaseClass, areInterfaces, -⟩ := passes_aggregate.mp (isBase.shape rfl)
      dsimp only
      split
      · exact .pure passes
      · have isVia :
            realm.Passes (if bindings.isEmpty then none else some (Symbol.mk
              (.aggregate ⟨kind, scope, baseClass, interfaces, bindings⟩) origin modifier tags)) := by
          split
          · exact passes_none
          · exact passes_some.mpr isBase
        have isOpened : realm.Passes { scan with openBlocks := scope :: scan.openBlocks } :=
          passes_scan.mpr (passes_scan.mp passes)
        refine (scanMembers_confined isVia isScope access isOpened).bind fun scan passes => ?_
        refine (unlessDone_confined (scanMixins_confined raised isScope) passes).bind
          fun scan passes => ?_
        refine (unlessDone_confined ?_ passes).bind fun scan passes =>
          unlessDone_confined ?_ passes
        · exact scanBaseOption_confined access isBaseClass
        · exact scanBases_confined access areInterfaces
    | _ => exact .pure passes

theorem scanBaseOption_confined (access : Access) :
    ∀ {base : Option Symbol} {scan : Scan}, realm.Passes base → realm.Passes scan →
      realm.Confined standing asks (scanBaseOption access base scan)
  | none, _, _, passes => .pure passes
  | some _, _, isBase, passes => scanBase_confined access (passes_some.mp isBase) passes

theorem scanBases_confined (access : Access) :
    ∀ {bases : List Symbol} {scan : Scan}, realm.Passes bases → realm.Passes scan →
      realm.Confined standing asks (scanBases access bases scan)
  | [], _, _, passes => .pure passes
  | _ :: _, _, areBases, passes =>
    (scanBase_confined access (passes_cons.mp areBases).1 passes).bind fun _ passes =>
      unlessDone_confined (scanBases_confined access (passes_cons.mp areBases).2) passes

end

theorem scanBasesOf_confined
    (isOwner : realm.Passes owner) (access : Access) (passes : realm.Passes scan) :
    realm.Confined standing asks (scanBasesOf access owner scan) := by
  unfold scanBasesOf
  split
  next aggregate isAggregate =>
    obtain ⟨-, isBase, areInterfaces, -⟩ := passes_aggregate.mp (isOwner.aggregate? isAggregate)
    exact scanBases_confined raised access (passes_append.mpr ⟨isBase.toList, areInterfaces⟩) passes
  next => exact .pure passes

theorem scanInherited_confined (isScope : realm.node scope) (passes : realm.Passes scan) :
    realm.Confined standing asks (scanInherited scope scan) := by
  refine .node_bind isScope fun entry _ _ => ?_
  split
  case h_3 => exact .pure passes
  -- A class and an interface are scanned alike.
  all_goals
    refine .seeing (fun first second same => ?_) fun state _ => ?_
    · have sameGuard : first.guard = second.guard := congrArg View.guard same
      simp only [sameGuard]
    split
    · exact .pure passes
    · refine (Realm.Relates.symbolThrough raised isScope passes_none).bind fun symbol isSymbol => ?_
      split
      · exact scanBasesOf_confined raised (passes_some.mp isSymbol) .inherited passes
      · exact .pure passes

theorem scanStatement_confined (isStatement : realm.statement id) (passes : realm.Passes scan) :
    realm.Confined standing asks (scanStatement scan id) := by
  refine .statement_bind isStatement fun entry _ isEntry => ?_
  split
  next nodes isKind =>
    refine .tree_bind (consider_confined (passes_list.mpr fun node isNode => ?_) passes)
    exact passes_node.mpr (isEntry.declares (by simpa [Statement.declares, isKind] using isNode))
  next mixin isKind =>
    exact scanMixedIn_confined raised (isEntry.declares (by simp [Statement.declares, isKind])) passes
  next => exact .pure passes

theorem scanAround_confined
    (isStatement : realm.statement id) (caret : Position) (isInnermost : Bool)
    (passes : realm.Passes scan) :
    realm.Confined standing asks (scanAround caret isInnermost scan id) := by
  refine .tree_bind (.statement_bind isStatement fun entry _ isEntry => ?_)
  split
  next children isKind =>
    have areParts : ∀ child ∈ children, realm.statement child := by
      intro child isChild
      exact isEntry.parts child (by simpa [Statement.parts, isKind] using isChild)
    have sameEarlier :
        (children.takeWhile fun child =>
            ((realm.wide.tree.statement? child).map (·.span.startsBefore caret)).getD false) =
          children.takeWhile fun child =>
            ((realm.narrow.tree.statement? child).map (·.span.startsBefore caret)).getD false :=
      takeWhile_congr fun child isChild => by rw [realm.fits.tree.statement? (areParts child isChild)]
    rw [sameEarlier]
    refine .foldlM (fun later child isChild isLater =>
      scanStatement_confined raised ?_ isLater) passes
    exact areParts child ((List.takeWhile_subset _) isChild)
  next loopVariables _ _ _ isKind =>
    split
    · exact .pure passes
    · refine consider_confined (passes_list.mpr fun node isNode => ?_) passes
      exact passes_node.mpr (isEntry.declares (by simpa [Statement.declares, isKind] using isNode))
  next => exact .pure passes

theorem scanLocals_confined {method : NodeId} (passes : realm.Passes scan) :
    realm.Confined standing asks (scanLocals method scan) := by
  refine .seeing (fun first second same => ?_) fun state isStack => ?_
  · have sameStatement : first.stack.top.statement = second.stack.top.statement :=
      congrArg View.statement same
    simp only [sameStatement]
  split
  next => exact .pure passes
  next current isCurrent =>
    have isStatement := isStack.top.statement isCurrent
    refine .statement_bind isStatement fun entry _ _ => ?_
    split
    · exact .pure passes
    · refine .tree_bind ?_
      rw [realm.fits.tree.statementLineage isStatement]
      refine (scanAround_confined raised isStatement _ true passes).bind fun scan passes => ?_
      refine .foldlM (fun later id isAround isLater =>
        scanAround_confined raised ?_ _ false isLater) passes
      exact realm.fits.tree.passes_statementLineage isStatement id (List.mem_of_mem_tail isAround)

theorem scanMethod_confined (isScope : realm.node scope) (passes : realm.Passes scan) :
    realm.Confined standing asks (scanMethod scope scan) := by
  refine .node_bind isScope fun entry _ isEntry => ?_
  split
  · refine (scanLocals_confined raised passes).bind fun scan passes => .tree_bind ?_
    exact consider_confined isEntry.parameters passes
  · exact .pure passes

theorem scanScope_confined (isScope : realm.node scope) (passes : realm.Passes scan) :
    realm.Confined standing asks (scanScope scope scan) := by
  refine (scanMethod_confined raised isScope passes).bind fun scan passes => ?_
  refine (unlessDone_confined (scanMembers_confined passes_none isScope .lexical) passes).bind
    fun scan passes => ?_
  refine (unlessDone_confined (scanMixins_confined raised isScope) passes).bind fun scan passes => ?_
  refine (unlessDone_confined (scanInherited_confined raised isScope) passes).bind fun scan passes => ?_
  exact unlessDone_confined (scanImports_confined isScope) passes

theorem scanOutward_confined
    {scopes : List NodeId} (areScopes : realm.Passes scopes) (passes : realm.Passes scan) :
    realm.Confined standing asks (scanOutward scopes scan) := by
  induction scopes generalizing scan with
  | nil => exact .pure passes
  | cons scope rest ih =>
    obtain ⟨isScope, areScopes⟩ := passes_cons.mp areScopes
    refine .bind .isCancelled fun stops _ => ?_
    split
    · exact .pure (passes_scan.mpr ⟨(passes_scan.mp passes).1, passes_nil⟩)
    · refine (scanScope_confined raised (passes_node.mp isScope) passes).bind fun scan passes => ?_
      exact unlessDone_confined (ih areScopes) passes

theorem scanFromScope_confined (passes : realm.Passes scan) :
    realm.Confined standing asks
      (do
        let scan ← scanOutward ((← Query.tree).lineage (← Query.scope)) scan
        return scan.found) := by
  refine .tree_bind (Realm.Relates.scope.bind fun scope isScope => ?_)
  rw [realm.fits.tree.lineage isScope]
  refine (scanOutward_confined raised (realm.fits.tree.passes_lineage isScope) passes).bind ?_
  exact fun scan passes => .pure (passes_scan.mp passes).2

theorem visible_confined (name : String) (filter : Filter) :
    realm.Confined standing asks (visible name filter) :=
  (start_confined (some name) filter).bind fun _ => scanFromScope_confined raised

theorem everything_confined (filter : Filter) : realm.Confined standing asks (everything filter) :=
  (start_confined none filter).bind fun _ => scanFromScope_confined raised

theorem members_confined (isOwner : realm.Passes owner) (name : String) (filter : Filter) :
    realm.Confined standing asks (members owner name filter) := by
  refine (start_confined _ filter).bind fun scan passes => ?_
  split
  next aggregate isShape =>
    obtain ⟨isNode, -⟩ := passes_aggregate.mp (isOwner.shape isShape)
    have isVia : realm.Passes (if aggregate.bindings.isEmpty then none else some owner) := by
      split
      · exact passes_none
      · exact passes_some.mpr isOwner
    refine (scanMembers_confined isVia isNode .external passes).bind fun scan passes => ?_
    refine (unlessDone_confined (scanMixins_confined raised isNode) passes).bind fun scan passes => ?_
    refine (unlessDone_confined (scanBasesOf_confined raised isOwner .external) passes).bind ?_
    exact fun scan passes => .pure (passes_scan.mp passes).2
  next node _ isShape =>
    obtain ⟨isNode, -⟩ := passes_enumeration.mp (isOwner.shape isShape)
    refine (scanMembers_confined passes_none isNode .external passes).bind ?_
    exact fun scan passes => .pure (passes_scan.mp passes).2
  next node isShape =>
    refine (scanModule_confined (passes_module.mp (isOwner.shape isShape)) passes).bind ?_
    exact fun scan passes => .pure (passes_scan.mp passes).2
  next => exact .pure (passes_scan.mp passes).2

theorem candidates_confined (name : String) : realm.Confined standing asks (candidates name) := by
  refine (visible_confined raised name .all).bind fun declarations areDeclared => ?_
  refine (Query.symbolsOf_confined raised areDeclared).bind fun found areFound => ?_
  split
  · refine .reading ?_
    rw [realm.fits.module?, realm.fits.package?]
    cases isModule : realm.narrow.module? name with
    | some module =>
      have passes := passes_moduleSymbol (realm.fits.isModule isModule)
      exact .pure (passes_append.mpr ⟨areFound, passes_cons.mpr ⟨passes, passes_nil⟩⟩)
    | none =>
      dsimp only
      split
      · exact .pure (passes_append.mpr ⟨areFound, passes_cons.mpr ⟨passes_package, passes_nil⟩⟩)
      · exact .pure areFound
  · exact .pure areFound

theorem first?_confined (name : String) : realm.Confined standing asks (first? name) :=
  (candidates_confined raised name).bind fun _ areFound => .pure areFound.head?

theorem sizeType_confined : realm.Confined standing asks sizeType :=
  (first?_confined raised "size_t").bind fun _ isFirst => .pure (isFirst.getD (passes_basic .ulong))

end Lookup

end DScope
