import DScope.Proofs.Access
import DScope.Proofs.Bodies
import DScope.Proofs.Signatures

namespace DScope

/-!
# Visible locals

At a statement of a function those locals are visible that a block around it
declares before it, and the variables of the loops around it. A search scans the
statements of a block up to the first that does not begin before the current one,
which finds all of them since a block lists its statements in their order.
-/

open List
open Query (Reads)

variable {method : NodeId} {nextLine : Nat}

/-- The locals that a statement of a block declares. -/
def StatementKind.locals : StatementKind → List NodeId
  | .declaration nodes => nodes
  | _ => []

namespace Tree

def declaredBy (tree : Tree) (id : StatementId) : List NodeId :=
  ((tree.statement? id).map (·.kind.locals)).getD []

/--
The locals of a statement around the current one that are visible there. A block has
those that it declares before the current statement, and a loop its variables, which
are not visible at the loop itself.
-/
def localsOf (tree : Tree) (current : StatementId) (isInnermost : Bool) :
    StatementKind → List NodeId
  | .block children => (children.filter (·.index < current.index)).flatMap tree.declaredBy
  | .forEach loopVariables .. => if isInnermost then [] else loopVariables
  | _ => []

def localsAround (tree : Tree) (current : StatementId) (isInnermost : Bool) (id : StatementId) :
    List NodeId :=
  ((tree.statement? id).map (tree.localsOf current isInnermost ·.kind)).getD []

/-- The locals that are visible at a statement, those of the innermost block first. -/
def localsAt (tree : Tree) (current : StatementId) : List NodeId :=
  tree.localsAround current true current ++
    (tree.statementLineage current).tail.flatMap (tree.localsAround current false)

/-- The locals of a function: what its statements declare. -/
def IsLocalOf (tree : Tree) (method id : NodeId) : Prop :=
  ∃ place statement,
    tree.statement? place = some statement ∧ statement.owner = method ∧
      id ∈ statement.kind.nodes

/-- The declarations among some that have a name and that a filter lets through, each once. -/
def called (tree : Tree) (name : String) (filter : Filter) (ids : List NodeId) : List NodeId :=
  (ids.filter fun id =>
    (tree.node? id).any fun entry => entry.name == name && filter.accepts entry).eraseDups

end Tree

theorem Draft.IsLaidOut.startsBefore_eq {first second : Nat} {statements : Array Statement}
    {earlier later : Statement} (isLaidOut : IsLaidOut method nextLine statements)
    (isFirst : statements[first]? = some earlier) (isSecond : statements[second]? = some later) :
    earlier.span.startsBefore later.span.start = decide (first < second) := by
  unfold Span.startsBefore Position.before
  rcases Nat.lt_trichotomy first second with isBefore | rfl | isAfter
  · simp [isBefore, isLaidOut.inOrder isFirst isSecond isBefore]
  · cases isFirst.symm.trans isSecond
    simp
  · have isLower := isLaidOut.inOrder isSecond isFirst isAfter
    simp [Nat.lt_asymm isAfter, Nat.lt_asymm isLower, Nat.ne_of_gt isLower]

theorem takeWhile_eq_filter_of_inOrder
    {places : List StatementId} {limit : Nat} {isBefore : StatementId → Bool}
    (inOrder : places.Pairwise (·.index < ·.index))
    (isLower : ∀ place ∈ places, isBefore place = decide (place.index < limit)) :
    places.takeWhile isBefore = places.filter (·.index < limit) := by
  induction places with
  | nil => rfl
  | cons place rest ih =>
    obtain ⟨isFirst, inOrder⟩ := pairwise_cons.mp inOrder
    obtain ⟨isPlace, areLower⟩ := forall_mem_cons.mp isLower
    rw [takeWhile_cons, filter_cons, isPlace]
    split
    · rw [ih inOrder areLower]
    next isHigh =>
      rw [eq_comm, filter_eq_nil_iff]
      grind

namespace Lookup

open Query

variable {program : Program} {state : State} {scan : Scan} {id : StatementId} {entry : Statement}
  {scope : NodeId} {current : StatementId}

theorem reads_statement (isEntry : program.tree.statement? id = some entry) :
    Reads program state (Query.statement id) entry := by
  rintro environment rfl
  exact statement_eq_ok.mpr ⟨isEntry, rfl⟩

theorem reads_foldlM_consider
    {step : Scan → StatementId → Query Scan} {offers : StatementId → List NodeId}
    {items : List StatementId}
    (each :
      ∀ item ∈ items, ∀ scan,
        Reads program state (step scan item)
          ((offers item).foldl (Scan.consider program.tree none) scan))
    (scan : Scan) :
    Reads program state (items.foldlM step scan)
      ((items.flatMap offers).foldl (Scan.consider program.tree none) scan) := by
  induction items generalizing scan with
  | nil => exact .pure scan
  | cons item rest ih =>
    rw [flatMap_cons, foldl_append]
    apply Reads.bind (each item mem_cons_self scan)
    exact ih (forall_mem_cons.mp each).2 _

theorem reads_scanStatement
    (isEntry : program.tree.statement? id = some entry) (isNoMixin : entry.kind.isMixin = false)
    (scan : Scan) :
    Reads program state (scanStatement scan id)
      ((program.tree.declaredBy id).foldl (Scan.consider program.tree none) scan) := by
  apply Reads.bind (reads_statement isEntry)
  rw [Tree.declaredBy, isEntry, Option.map_some]
  cases isKind : entry.kind with
  | declaration nodes => exact .bind .tree (.pure _)
  | mixin node => simp [StatementKind.isMixin, isKind] at isNoMixin
  | _ => exact .pure scan

section Body

variable (isLaidOut : Draft.IsLaidOut method nextLine program.tree.statements)
  (isCurrent : program.tree.statement? current = some entry)

include isLaidOut isCurrent

theorem reads_scanAround {outer : Statement} (isOuter : program.tree.statement? id = some outer)
    (isOwner : outer.owner = method) (isInnermost : Bool) (scan : Scan) :
    Reads program state (scanAround entry.span.start isInnermost scan id)
      ((program.tree.localsAround current isInnermost id).foldl (Scan.consider program.tree none)
        scan) := by
  apply Reads.bind .tree
  apply Reads.bind (reads_statement isOuter)
  rw [Tree.localsAround, isOuter, Option.map_some]
  cases isKind : outer.kind with
  | block children =>
    obtain ⟨-, inOrder, areOwned⟩ := (isLaidOut.entry isOuter).2 isOwner
    rw [isKind] at inOrder areOwned
    have areEntries : ∀ child ∈ children, ∃ part,
        program.tree.statement? child = some part ∧ part.owner = method :=
      fun child isChild => Option.map_eq_some_iff.mp (areOwned child isChild)
    have areEarlier :
        (children.takeWhile fun child =>
            ((program.tree.statement? child).map
              (·.span.startsBefore entry.span.start)).getD false) =
          children.filter (·.index < current.index) := by
      refine takeWhile_eq_filter_of_inOrder inOrder fun child isChild => ?_
      obtain ⟨part, isPart, -⟩ := areEntries child isChild
      rw [isPart]
      exact isLaidOut.startsBefore_eq isPart isCurrent
    simp only [areEarlier]
    refine reads_foldlM_consider (fun child isChild => ?_) scan
    obtain ⟨part, isPart, isPartOwner⟩ := areEntries child (mem_of_mem_filter isChild)
    exact reads_scanStatement isPart ((isLaidOut.entry isPart).2 isPartOwner).1
  | forEach loopVariables => cases isInnermost <;> exact .pure _
  | _ => exact .pure scan

theorem reads_scanLocals (isCoherent : program.tree.IsCoherent) (isOwner : entry.owner = method)
    (isAt : state.stack.top.statement = some current) (scan : Scan) :
    Reads program state (scanLocals method scan)
      ((program.tree.localsAt current).foldl (Scan.consider program.tree none) scan) := by
  apply Reads.bind .get
  rw [isAt]
  apply Reads.bind (reads_statement isCurrent)
  rw [isOwner, bne_self_eq_false]
  apply Reads.bind .tree
  rw [Tree.localsAt, foldl_append]
  apply Reads.bind (reads_scanAround isLaidOut isCurrent isCurrent isOwner true scan)
  refine reads_foldlM_consider (fun outer isAround => ?_) _
  have isOwned : program.tree.owner? current = some method :=
    Option.map_eq_some_iff.mpr ⟨entry, isCurrent, isOwner⟩
  obtain ⟨statement, isOuter, isOuterOwner⟩ := Option.map_eq_some_iff.mp
    (isCoherent.owner?_of_mem_statementLineage isOwned (mem_of_mem_tail isAround))
  exact reads_scanAround isLaidOut isCurrent isOuter isOuterOwner false

end Body

/-! ## What else is found -/

section Others

variable {environment : Environment} {home : NodeId} {may : NodeId → Prop}

theorem isPermitted_add
    {node : NodeId} {via : Option Symbol} (isPermitted : scan.IsPermitted home may)
    (isMay : may node) : (scan.add node via).IsPermitted home may := by
  unfold Scan.add
  split
  · exact isPermitted
  · refine ⟨isPermitted.isHome, fun declaration isFound => ?_⟩
    rcases mem_append.mp isFound with isOld | isNew
    · exact isPermitted.found declaration isOld
    · cases mem_singleton.mp isNew
      exact isMay

variable
  (areMembers :
    ∀ {outer entry}, environment.program.tree.node? outer = some entry →
      ∀ child ∈ entry.children, may child)

include areMembers

/-- What a mixin brings in are members of mixin templates. -/
theorem keeps_closedUnderMixins : ClosedUnderMixins environment (KeepsTo environment home may) where
  toClosedUnderSteps := Keeps.closedUnderSteps
  framed frame keeps := by
    intro scan state after later isPermitted returned
    obtain ⟨nested, _, isNested, ⟨⟩⟩ := bind_eq_ok.mp returned
    rw [withFrame_apply] at isNested
    split at isNested
    · cases isNested
      exact isPermitted
    · split at isNested
      next isInner =>
        cases isNested
        exact keeps isPermitted isInner
      next => cases isNested
  marks _ := .ofPure fun _ isPermitted => ⟨isPermitted.isHome, isPermitted.found⟩
  adds isBlock isMember _ _ _ := .ofPure fun scan isPermitted => by
    split
    · exact isPermitted_add isPermitted (areMembers isBlock _ isMember)
    · exact isPermitted

omit areMembers in
theorem supplies_of_given {isFromInside : Bool}
    (areGiven :
      ∀ {outer entry}, environment.program.tree.node? outer = some entry →
        ∀ id ∈ entry.given false, may id) :
    Supplies environment home isFromInside may where
  members := by
    intro access _ scope id entry isListed _ _
    obtain ⟨outer, isOuter, isNamed⟩ := Tree.exists_of_mem_listed isListed
    exact areGiven isOuter id (mem_append_left _ isNamed)
  bindings isEntry _ isBinding _ := areGiven isEntry _ (by simp [Node.given, isBinding])
  mixins := (keeps_closedUnderMixins fun isEntry child isChild =>
    areGiven isEntry child (by simp [Node.given, isChild])).scanMixins

end Others

theorem reads_scanMethod
    {outer : Node} (isLaidOut : Draft.IsLaidOut method nextLine program.tree.statements)
    (isCoherent : program.tree.IsCoherent)
    (isCurrent : program.tree.statement? current = some entry) (isOwner : entry.owner = method)
    (isAt : state.stack.top.statement = some current)
    (isOuter : program.tree.node? scope = some outer) (isMethod : outer.isMethod = true)
    (scan : Scan) :
    Reads program state (scanMethod scope scan)
      (((if scope = method then program.tree.localsAt current else []) ++ outer.parameters).foldl
        (Scan.consider program.tree none) scan) := by
  apply Reads.bind (.node isOuter)
  rw [isMethod, foldl_append]
  refine .bind ?_ (.bind .tree (.pure _))
  by_cases isSame : scope = method
  · rw [if_pos isSame, isSame]
    exact reads_scanLocals isLaidOut isCurrent isCoherent isOwner isAt scan
  · rw [if_neg isSame]
    apply Reads.bind .get
    rw [isAt]
    apply Reads.bind (reads_statement isCurrent)
    rw [isOwner, if_pos (bne_iff_ne.mpr (Ne.symm isSame))]
    exact .pure scan

/-- A scope around the current statement gives no local but those that are visible. -/
theorem surrounds_body {evaluator : Evaluator} {limit : Nat} {home : NodeId}
    (isLaidOut : Draft.IsLaidOut method nextLine program.tree.statements)
    (isCoherent : program.tree.IsCoherent)
    (isCurrent : program.tree.statement? current = some entry) (isOwner : entry.owner = method)
    (isAt : state.stack.top.statement = some current) (isAround : scope.index ≤ method.index)
    (areNoLocals :
      ∀ {outer listing}, program.tree.node? outer = some listing →
        ∀ id ∈ listing.given (outer.index ≤ method.index), ¬program.tree.IsLocalOf method id) :
    Surrounds ⟨program, evaluator, Engine.answer program evaluator limit⟩ home
      (fun id => program.tree.IsLocalOf method id → id ∈ program.tree.localsAt current)
      (fun later => later.stack = state.stack ∧ later.guard.IsPositive) scope where
  method := by
    intro scan later after final isHere isPermitted returned
    obtain ⟨outer, _, isRead, isScanned⟩ := bind_eq_ok.mp returned
    have isOuter := (node_eq_ok.mp isRead).1
    cases isMethod : outer.isMethod with
    | false =>
      rw [isMethod] at isScanned
      cases isScanned
      exact isPermitted
    | true =>
      have isAtLater : later.stack.top.statement = some current := isHere.1 ▸ isAt
      have reads : Reads program later (scanMethod scope scan) _ :=
        reads_scanMethod isLaidOut isCoherent isCurrent isOwner isAtLater isOuter isMethod scan
      cases (reads _ rfl).symm.trans returned
      refine isPermitted.considerAll fun id isOffered _ isLocal => ?_
      rcases mem_append.mp isOffered with isVisible | isParameter
      · split at isVisible
        · exact isVisible
        · cases isVisible
      · have isNamed : id ∈ outer.kind.nodes := isParameter
        exact absurd isLocal (areNoLocals isOuter id (by simp [Node.given, isAround, isNamed]))
  areListed := by
    intro id entry isListed _ isLocal
    obtain ⟨outer, isOuter, isNamed⟩ := Tree.exists_of_mem_listed isListed
    exact absurd isLocal (areNoLocals isOuter id (mem_append_left _ isNamed))
  stays := by
    intro scan later after final isHere returned
    have orderly : Orderly program (fun _ _ => True) .plain (fun _ => True) (scanScope scope scan) :=
      (scanScope_confined (fun _ _ => trivial) trivial (Sieve.passes_whole scan)).orderly
    have balances := orderly.run_isBalanced evaluator limit isHere.2 returned
    exact ⟨balances.stack.trans isHere.1, balances.guard ▸ isHere.2⟩

end Lookup

/--
At a statement of a function a name means the locals that have it and are visible
there, from the innermost block outward, and then the parameters. Visible are what
a block around the statement declares before it and the variables of the loops
around it. No other local of the function is ever found.
-/
theorem locals_are_visible_from_their_declaration_on
    (program : Program)
    (evaluator : Evaluator)
    (limit : Nat)
    (name : String)
    (filter : Filter)
    {method : NodeId}
    {entry : Node}
    {current : StatementId}
    {state : State}
    (hasPlainBody : program.tree.HasPlainBody method)
    (isEntry : program.tree.node? method = some entry)
    (isMethod : entry.isMethod = true)
    (isOwned : program.tree.owner? current = some method)
    (isInside : state.stack.top.scope = method)
    (isAt : state.stack.top.statement = some current)
    (isRunning : state.isCancelled = false)
    (isPositive : state.guard.IsPositive) :
    (program.tree.called name filter (program.tree.localsAt current ++ entry.parameters) ≠ [] →
        Engine.run program evaluator limit (Operation.lookup name filter).query state =
          .ok
            ((program.tree.called name filter
                (program.tree.localsAt current ++ entry.parameters)).map (⟨·, none⟩),
              state)) ∧
      ∀ declarations final,
        Engine.run program evaluator limit (Operation.lookup name filter).query state =
            .ok (declarations, final) →
          ∀ declaration ∈ declarations, program.tree.IsLocalOf method declaration.node →
          declaration.node ∈ program.tree.localsAt current := by
  obtain ⟨steps, draft, areTaken, isTree⟩ := hasPlainBody
  obtain ⟨⟨isCoherent, -⟩, ⟨isLaidOut, isUnlisted⟩⟩ := Draft.hasPlainBody_of_foldlM areTaken
  rw [isTree] at isCoherent isLaidOut
  simp only [isTree] at isUnlisted
  obtain ⟨statement, isCurrent, isOwner⟩ := Option.map_eq_some_iff.mp isOwned
  constructor
  · intro isFound
    subst isInside
    let start : Scan :=
      { name := some name, filter, home := program.tree.rootOf state.stack.top.scope }
    have scansMethod := Lookup.reads_scanMethod isLaidOut isCoherent isCurrent isOwner isAt isEntry
      isMethod start
    have isCalled (ids : List NodeId) :
        (ids.filter fun id => start.seeks program.tree id && id ∉ start.nodes).eraseDups =
          program.tree.called name filter ids := by
      have wants : start.wants = fun entry => entry.name == name && filter.accepts entry := by
        funext entry
        simp [Scan.wants, start]
      simp [Tree.called, Scan.seeks, wants, Scan.nodes, start]
    rw [if_pos rfl, Scan.foldl_consider_eq, isCalled] at scansMethod
    let scan : Scan :=
      { start with
        found := (program.tree.called name filter
          (program.tree.localsAt current ++ entry.parameters)).map (⟨·, none⟩) }
    have isDone : scan.isDone = true := by simp [scan, Scan.isDone, start, isFound]
    exact Lookup.reads_visible_of_isDone isRunning isEntry scansMethod
      (Lookup.reads_unlessDone isDone _) isDone _ rfl
  · intro declarations final returned
    have areNoLocals {outer : NodeId} {listing : Node}
        (isListing : program.tree.node? outer = some listing) :
        ∀ id ∈ listing.given (outer.index ≤ method.index), ¬program.tree.IsLocalOf method id := by
      rintro id isGiven ⟨place, declaring, isDeclaring, isOwner, isDeclared⟩
      exact isUnlisted isDeclaring isOwner id isDeclared isListing isGiven
    have supplies :
        Lookup.Supplies ⟨program, evaluator, Engine.answer program evaluator limit⟩
          (program.tree.rootOf state.stack.top.scope) true fun id =>
            program.tree.IsLocalOf method id → id ∈ program.tree.localsAt current :=
      Lookup.supplies_of_given fun isOuter id isGiven isLocal =>
        absurd isLocal (areNoLocals isOuter id (by grind [Node.given]))
    have surround :
        ∀ scope ∈ program.tree.lineage state.stack.top.scope,
          Lookup.Surrounds ⟨program, evaluator, Engine.answer program evaluator limit⟩
            (program.tree.rootOf state.stack.top.scope)
            (fun id => program.tree.IsLocalOf method id → id ∈ program.tree.localsAt current)
            (fun later => later.stack = state.stack ∧ later.guard.IsPositive) scope := by
      intro scope isAncestor
      refine Lookup.surrounds_body isLaidOut isCoherent isCurrent isOwner isAt ?_ areNoLocals
      refine Tree.of_mem_lineage (·.index ≤ method.index) (isInside ▸ Nat.le_refl _) ?_ isAncestor
      exact fun isParent isAround =>
        Nat.le_trans (Nat.le_of_lt (isCoherent.parentPrecedes isParent)) isAround
    exact Lookup.found_of_outward supplies rfl surround ⟨rfl, isPositive⟩ returned

/--
A function with a parameter, locals and a loop variable of one name. The last local
comes after the loop.
-/
def Draft.shadowing : List Step :=
  [ .module "shadowing",
    .member ⟨0⟩ "f" (.method none [] none),
    .parameter ⟨1⟩ "x" (.basic .int),
    .body ⟨1⟩,
    .localVariable ⟨0⟩ "x" (some (.basic .int)) none,
    .loop ⟨0⟩ [("x", none)] (.collection (.named "x")) false,
    .statement ⟨3⟩ (.returning none),
    .localVariable ⟨3⟩ "x" (some (.basic .int)) none,
    .conditional ⟨3⟩ (.named "x"),
    .statement ⟨7⟩ (.returning none),
    .localVariable ⟨0⟩ "x" (some (.basic .int)) none ]

def Program.shadowing : Program :=
  .ofTree (((Draft.shadowing.foldlM (Draft.takePlain? ⟨1⟩) {}).map (·.tree)).getD {})

/-- Inside the loop the locals before are visible, the innermost first, and the last one is not. -/
theorem shadowing_locals_are_visible :
    let state : State := .start ⟨1⟩ (some ⟨8⟩)
    Engine.run .shadowing .standard 0 (Operation.lookup "x" .all).query state =
        .ok ([⟨⟨5⟩, none⟩, ⟨⟨4⟩, none⟩, ⟨⟨3⟩, none⟩, ⟨⟨2⟩, none⟩], state) ∧
      Program.shadowing.tree.IsLocalOf ⟨1⟩ ⟨6⟩ ∧
      ∀ declarations final,
        Engine.run .shadowing .standard 0 (Operation.lookup "x" .all).query state =
            .ok (declarations, final) →
          ∀ declaration ∈ declarations, declaration.node ≠ ⟨6⟩ := by
  intro state
  have isTaken : (Draft.shadowing.foldlM (Draft.takePlain? ⟨1⟩) {}).isSome = true := by
    decide +kernel
  obtain ⟨draft, areTaken, isTree⟩ := Tree.exists_draft_of_isSome isTaken
  have hasPlainBody : Program.shadowing.tree.HasPlainBody ⟨1⟩ :=
    ⟨Draft.shadowing, draft, areTaken, isTree.trans (Program.ofTree_spec _).1.symm⟩
  have isFunction :
      (Program.shadowing.tree.node? ⟨1⟩).any
          (fun entry => entry.isMethod && entry.parameters == [⟨2⟩]) =
        true := by
    decide +kernel
  have isDeclared :
      (Program.shadowing.tree.statement? ⟨9⟩).any
          (fun statement => statement.owner == ⟨1⟩ && statement.kind.nodes == [⟨6⟩]) =
        true := by
    decide +kernel
  simp only [Option.any_eq_true, Bool.and_eq_true, beq_iff_eq] at isFunction isDeclared
  obtain ⟨entry, isEntry, isMethod, areParameters⟩ := isFunction
  obtain ⟨statement, isStatement, isOwned, areDeclared⟩ := isDeclared
  have areVisible : Program.shadowing.tree.localsAt ⟨8⟩ = [⟨5⟩, ⟨4⟩, ⟨3⟩] := by decide +kernel
  have areCalled :
      Program.shadowing.tree.called "x" .all ([⟨5⟩, ⟨4⟩, ⟨3⟩] ++ [⟨2⟩]) = [⟨5⟩, ⟨4⟩, ⟨3⟩, ⟨2⟩] := by
    decide +kernel
  have isLocal : Program.shadowing.tree.IsLocalOf ⟨1⟩ ⟨6⟩ :=
    ⟨⟨9⟩, statement, isStatement, isOwned, areDeclared ▸ mem_singleton_self _⟩
  have isInside : state.stack.top.scope = ⟨1⟩ := rfl
  obtain ⟨isFound, onlyVisible⟩ :=
    locals_are_visible_from_their_declaration_on .shadowing .standard 0 "x" .all hasPlainBody
      isEntry isMethod (by decide +kernel) isInside rfl rfl nofun
  rw [areVisible, areParameters, areCalled] at isFound
  rw [areVisible] at onlyVisible
  refine ⟨?_, isLocal, fun declarations final returned declaration isMember isSame => ?_⟩
  · exact isFound (cons_ne_nil _ _)
  · have isVisible := onlyVisible declarations final returned declaration isMember (isSame ▸ isLocal)
    simp [isSame] at isVisible

end DScope
