import DScope.Proofs.Offers
import DScope.Proofs.ScanSteps
import DScope.Proofs.Settling

namespace DScope

/-!
# Looking up a name and listing every name

A lookup for a name and a listing of all visible declarations walk through the
same layers. Until the lookup is done the two are in step: they stand in the
same state, and the lookup has found what the listing has found under the name.
The lookup ends after the first layer that has the name, and from then on the
listing only adds to what it has found.
-/

open List

variable {scan : Scan} {condition : Scan → Bool}

namespace Scan

/-- The scan as it looks for one name: of what was found it has what bears the name. -/
def narrowed (tree : Tree) (name : String) (scan : Scan) : Scan :=
  { scan with
    name := some name
    found := scan.found.filter fun declaration => tree.nameOf declaration.node == name }

/-- Whether a scan may go on to another one: it only adds declarations, and none twice. -/
structure Leads (before after : Scan) : Prop where
  name : after.name = before.name
  found : before.found <+: after.found
  isDistinct : before.IsDistinct → after.IsDistinct

theorem Leads.refl (scan : Scan) : scan.Leads scan :=
  ⟨rfl, prefix_rfl, id⟩

theorem Leads.trans
    {first second third : Scan} (before : first.Leads second) (after : second.Leads third) :
    first.Leads third :=
  ⟨after.name.trans before.name, before.found.trans after.found,
    fun isDistinct => after.isDistinct (before.isDistinct isDistinct)⟩

/-- Whether a step of a scan for all names narrows to the same step for one name. -/
def Narrows (tree : Tree) (name : String) (step : Scan → Scan) : Prop :=
  ∀ scan, scan.name = none →
    scan.Leads (step scan) ∧
      step (scan.narrowed tree name) = (step scan).narrowed tree name

variable {program : Program} {tree : Tree} {name : String}

theorem wants_narrowed (isWide : scan.name = none) (node : Node) :
    (scan.narrowed tree name).wants node = (node.name == name && scan.wants node) := by
  simp [wants, narrowed, isWide]

theorem leads_add (scan : Scan) (id : NodeId) (via : Option Symbol) :
    scan.Leads (scan.add id via) := by
  unfold add
  split
  · exact .refl scan
  next isNew =>
    refine ⟨rfl, prefix_append _ _, fun isDistinct => ?_⟩
    have isMissing : id ∉ scan.found.map Declaration.node := by
      intro isThere
      obtain ⟨declaration, isFound, isSame⟩ := mem_map.mp isThere
      exact isNew (any_eq_true.mpr ⟨declaration, isFound, beq_iff_eq.mpr isSame⟩)
    unfold IsDistinct at isDistinct ⊢
    rw [map_append]
    apply nodup_append.mpr
    refine ⟨isDistinct, by simp, ?_⟩
    rintro other isThere added isAdded rfl
    rw [mem_singleton.mp isAdded] at isThere
    exact isMissing isThere

theorem add_narrowed {id : NodeId} (isNamed : tree.nameOf id = name) (via : Option Symbol) :
    (scan.narrowed tree name).add id via = (scan.add id via).narrowed tree name := by
  have sameTest :
      ((scan.narrowed tree name).found.any (·.node == id)) = scan.found.any (·.node == id) := by
    rw [narrowed, any_filter]
    congr 1
    funext declaration
    by_cases isSame : declaration.node = id
    · simp [isSame, isNamed]
    · simp [isSame]
  unfold add
  rw [sameTest]
  split
  · rfl
  · simp [narrowed, isNamed]

theorem narrowed_add {id : NodeId} (isOther : tree.nameOf id ≠ name) (via : Option Symbol) :
    (scan.add id via).narrowed tree name = scan.narrowed tree name := by
  unfold add
  split
  · rfl
  · simp [narrowed, isOther]

namespace Narrows

variable {first second : Scan → Scan}

theorem id : Narrows tree name fun scan => scan :=
  fun scan _ => ⟨.refl scan, rfl⟩

theorem comp (before : Narrows tree name first) (after : Narrows tree name second) :
    Narrows tree name fun scan => second (first scan) := by
  intro scan isWide
  obtain ⟨firstLeads, firstNarrows⟩ := before scan isWide
  obtain ⟨secondLeads, secondNarrows⟩ := after (first scan) (firstLeads.name.trans isWide)
  refine ⟨firstLeads.trans secondLeads, ?_⟩
  dsimp only
  rw [firstNarrows, secondNarrows]

theorem foldl {α : Type} {step : Scan → α → Scan}
    (each : ∀ item, Narrows tree name fun scan => step scan item) (items : List α) :
    Narrows tree name fun scan => items.foldl step scan := by
  induction items with
  | nil => exact id
  | cons item rest ih => exact comp (each item) ih

theorem ofSeen {seenModules openBlocks : Scan → List NodeId}
    (sameModules : ∀ scan, seenModules (scan.narrowed tree name) = seenModules scan)
    (sameBlocks : ∀ scan, openBlocks (scan.narrowed tree name) = openBlocks scan) :
    Narrows tree name fun scan =>
      { scan with seenModules := seenModules scan, openBlocks := openBlocks scan } := by
  intro scan _
  refine ⟨⟨rfl, prefix_rfl, fun isDistinct => isDistinct⟩, ?_⟩
  simp only [sameModules, sameBlocks]
  rfl

theorem addIf {id : NodeId} {node : Node} (isEntry : tree.node? id = some node)
    (via : Option Symbol)
    (isNarrowed :
      ∀ scan, scan.name = none →
        condition (scan.narrowed tree name) = (node.name == name && condition scan)) :
    Narrows tree name fun scan => if condition scan then scan.add id via else scan := by
  intro scan isWide
  have isName : tree.nameOf id = node.name := by simp [Tree.nameOf, isEntry]
  dsimp only
  rw [isNarrowed scan isWide]
  cases isTrue : condition scan with
  | false =>
    rw [Bool.and_false]
    exact ⟨.refl scan, rfl⟩
  | true =>
    refine ⟨leads_add scan id via, ?_⟩
    by_cases isNamed : node.name = name
    · simp only [isNamed, beq_self_eq_true]
      exact add_narrowed (isName.trans isNamed) via
    · have isOther : (node.name == name) = false := beq_eq_false_iff_ne.mpr isNamed
      simp only [isOther]
      exact (narrowed_add (fun same => isNamed (isName.symm.trans same)) via).symm

end Narrows

theorem narrows_consider (via : Option Symbol) (id : NodeId) :
    Narrows tree name fun scan => scan.consider tree via id := by
  unfold consider
  cases isEntry : tree.node? id with
  | none => exact .id
  | some node => exact .addIf isEntry via fun scan isWide => wants_narrowed isWide node

theorem narrows_take (offers : List Declaration) :
    Narrows tree name fun scan => offers.foldl (take tree) scan :=
  .foldl (fun offer => narrows_consider offer.via offer.node) offers

theorem narrows_members (access : Access) (via : Option Symbol) (scope : Node) :
    Narrows program.tree name fun scan => scan.members program access via scope := by
  intro scan isWide
  simp only [members_eq]
  exact narrows_take (offers program scan.home access via scope) scan isWide

theorem narrows_module (steps : Nat) (id : NodeId) :
    Narrows program.tree name fun scan => scan.module program steps id := by
  intro scan isWide
  obtain ⟨later, offers, -, isScanned⟩ := exists_walk program scan.home steps id scan.seenModules
  have marks : Narrows program.tree name fun scan => { scan with seenModules := later } :=
    .ofSeen (fun _ => rfl) fun _ => rfl
  dsimp only
  rw [isScanned scan rfl rfl, isScanned (scan.narrowed program.tree name) rfl rfl]
  exact marks.comp (narrows_take offers) scan isWide

end Scan

namespace Lookup

open Query

variable {first second : Scan → Query Scan} {state later : State}

/--
Whether a step of a listing is in step with a lookup for a name.

The lookup takes the same step through the same states and has found what bears
the name.
-/
def InStep (environment : Environment) (name : String) (step : Scan → Query Scan) : Prop :=
  ∀ ⦃scan state wide later⦄, scan.name = none →
    step scan environment state = .ok (wide, later) →
    scan.Leads wide ∧
      step (scan.narrowed environment.program.tree name) environment state =
        .ok (wide.narrowed environment.program.tree name, later)

/--
Whether a lookup for a name agrees with a listing that takes a step from one scan
and state to another.

Either the lookup is still in step, or it is done and has found the first ones
of the declarations that bear the name.
-/
def AgreesAt (environment : Environment) (name : String) (step : Scan → Query Scan)
    (scan : Scan) (state : State) (wide : Scan) (later : State) : Prop :=
  scan.Leads wide ∧
    ∃ narrow narrowLater,
      step (scan.narrowed environment.program.tree name) environment state =
          .ok (narrow, narrowLater) ∧
        (narrow = wide.narrowed environment.program.tree name ∧ narrowLater = later ∨
          narrow.isDone = true ∧
            narrow.found <+: (wide.narrowed environment.program.tree name).found)

/-- Whether a lookup for a name agrees with every step of a listing. -/
def Agrees (environment : Environment) (name : String) (step : Scan → Query Scan) : Prop :=
  ∀ ⦃scan state wide later⦄, scan.name = none →
    step scan environment state = .ok (wide, later) →
    AgreesAt environment name step scan state wide later

variable {environment : Environment} {name : String} {α : Type}

namespace InStep

variable {step : Scan → Query Scan} {change : Scan → Scan}

theorem ofPure {step : Scan → Scan} (narrows : Scan.Narrows environment.program.tree name step) :
    InStep environment name fun scan => pure (step scan) := by
  rintro scan state _ _ isWide ⟨⟩
  obtain ⟨leads, isNarrowed⟩ := narrows scan isWide
  exact ⟨leads, congrArg (fun narrow => Except.ok (narrow, state)) isNarrowed⟩

theorem after {query : Query α} {next : α → Scan → Query Scan}
    (each :
      ∀ value state later, query environment state = .ok (value, later) →
        InStep environment name (next value)) :
    InStep environment name fun scan => query >>= fun value => next value scan := by
  intro scan state wide later isWide returned
  obtain ⟨value, middle, isFirst, isSecond⟩ := bind_eq_ok.mp returned
  obtain ⟨leads, isNarrowed⟩ := each value state middle isFirst isWide isSecond
  exact ⟨leads, bind_eq_ok.mpr ⟨value, middle, isFirst, isNarrowed⟩⟩

theorem comp (before : InStep environment name first) (after : InStep environment name second) :
    InStep environment name fun scan => first scan >>= second := by
  intro scan state wide later isWide returned
  obtain ⟨middle, middleState, isFirst, isSecond⟩ := bind_eq_ok.mp returned
  obtain ⟨firstLeads, firstNarrowed⟩ := before isWide isFirst
  obtain ⟨secondLeads, secondNarrowed⟩ := after (firstLeads.name.trans isWide) isSecond
  exact ⟨firstLeads.trans secondLeads, bind_eq_ok.mpr ⟨_, _, firstNarrowed, secondNarrowed⟩⟩

theorem framed (frame : Frame) (inStep : InStep environment name step) :
    InStep environment name fun scan => do
      let nested ← withFrame frame (step scan)
      return nested.getD scan := by
  intro scan state wide later isWide returned
  dsimp only at returned ⊢
  rw [bind_apply, withFrame_apply] at returned ⊢
  cases isCancelled : state.isCancelled with
  | true =>
    simp only [isCancelled] at returned ⊢
    cases returned
    exact ⟨.refl scan, rfl⟩
  | false =>
    simp only [isCancelled] at returned ⊢
    cases isInner : step scan environment (state.push frame) with
    | error reason =>
      rw [isInner] at returned
      cases returned
    | ok outcome =>
      rw [isInner] at returned
      cases returned
      obtain ⟨leads, isNarrowed⟩ := inStep isWide isInner
      rw [isNarrowed]
      exact ⟨leads, rfl⟩

theorem closedUnderMixins : ClosedUnderMixins environment (InStep environment name) where
  unchanged := .ofPure .id
  after := .after
  comp := .comp
  framed := .framed
  marks _ := .ofPure (.ofSeen (fun _ => rfl) fun _ => rfl)
  adds _ _ isMember _ _ := .ofPure <| .addIf isMember _ fun scan isWide => by
    rw [Scan.wants_narrowed isWide, Bool.and_left_comm]
  unlessOpen block inStep := by
    intro scan state wide later isWide returned
    have sameBlocks : (scan.narrowed environment.program.tree name).openBlocks = scan.openBlocks :=
      rfl
    dsimp only at returned ⊢
    rw [sameBlocks]
    split at returned
    next isOpen =>
      rw [if_pos isOpen]
      exact ofPure .id isWide returned
    next isClosed =>
      rw [if_neg isClosed]
      exact inStep isWide returned

theorem agrees (inStep : InStep environment name step) : Agrees environment name step := by
  intro scan state wide later isWide returned
  obtain ⟨leads, isNarrowed⟩ := inStep isWide returned
  exact ⟨leads, _, _, isNarrowed, .inl ⟨rfl, rfl⟩⟩

end InStep

theorem isDone_of_wide (isWide : scan.name = none) : scan.isDone = false := by
  simp [Scan.isDone, isWide]

theorem unlessDone_apply (next : Scan → Query Scan) (scan : Scan) (state : State) :
    unlessDone next scan environment state =
      if scan.isDone then .ok (scan, state) else next scan environment state := by
  unfold unlessDone
  split <;> rfl

/--
A lookup that agrees with two layers of a listing agrees with both of them.

It goes on to the second layer only if it found nothing in the first one.
-/
theorem AgreesAt.andThen {middle wide : Scan} {middleState : State}
    (firstAgrees : AgreesAt environment name first scan state middle middleState)
    (secondAgrees : AgreesAt environment name second middle middleState wide later) :
    AgreesAt environment name (fun scan => first scan >>= unlessDone second) scan state wide
      later := by
  obtain ⟨firstLeads, narrow, narrowLater, isNarrow, outcome⟩ := firstAgrees
  obtain ⟨secondLeads, narrowSecond, narrowSecondLater, isNarrowSecond, secondOutcome⟩ :=
    secondAgrees
  have grows :
      (middle.narrowed environment.program.tree name).found <+:
        (wide.narrowed environment.program.tree name).found :=
    secondLeads.found.filter _
  refine ⟨firstLeads.trans secondLeads, ?_⟩
  by_cases isDone : narrow.isDone
  · -- The lookup ends here, and the listing only adds to what it has found.
    have isFirst : narrow.found <+: (middle.narrowed environment.program.tree name).found := by
      rcases outcome with ⟨rfl, -⟩ | ⟨-, isFirst⟩
      · exact prefix_rfl
      · exact isFirst
    refine ⟨narrow, narrowLater, bind_eq_ok.mpr ⟨narrow, narrowLater, isNarrow, ?_⟩,
      .inr ⟨isDone, isFirst.trans grows⟩⟩
    rw [unlessDone_apply, if_pos isDone]
  · rcases outcome with ⟨rfl, rfl⟩ | ⟨isDoneAlready, -⟩
    · refine ⟨narrowSecond, narrowSecondLater, bind_eq_ok.mpr ⟨_, _, isNarrow, ?_⟩, secondOutcome⟩
      rw [unlessDone_apply, if_neg isDone]
      exact isNarrowSecond
    · exact absurd isDoneAlready isDone

theorem Agrees.andThen (firstAgrees : Agrees environment name first)
    (secondAgrees : Agrees environment name second) :
    Agrees environment name fun scan => first scan >>= unlessDone second := by
  intro scan state wide later isWide returned
  obtain ⟨middle, middleState, isFirst, isSecond⟩ := bind_eq_ok.mp returned
  have atFirst := firstAgrees isWide isFirst
  have isWideMiddle := atFirst.1.name.trans isWide
  rw [unlessDone_apply, isDone_of_wide isWideMiddle] at isSecond
  exact atFirst.andThen (secondAgrees isWideMiddle isSecond)

theorem inStep_scanMembers (access : Access) (via : Option Symbol) (scope : NodeId) :
    InStep environment name (scanMembers access via scope) := by
  refine .after fun program _ _ isProgram => .after fun entry _ _ _ => .ofPure ?_
  cases isProgram
  exact Scan.narrows_members access via entry

theorem agrees_closedUnderLayers (access : Access) :
    ClosedUnderLayers environment access (Agrees environment name) where
  unchanged := (InStep.ofPure .id).agrees
  after each := by
    intro scan state wide later isWide returned
    obtain ⟨value, middle, isFirst, isSecond⟩ := bind_eq_ok.mp returned
    obtain ⟨leads, narrow, narrowLater, isNarrow, outcome⟩ :=
      each value state middle isFirst isWide isSecond
    exact ⟨leads, narrow, narrowLater, bind_eq_ok.mpr ⟨value, middle, isFirst, isNarrow⟩, outcome⟩
  unlessOpen block agrees := by
    intro scan state wide later isWide returned
    have sameBlocks : (scan.narrowed environment.program.tree name).openBlocks = scan.openBlocks :=
      rfl
    unfold AgreesAt
    dsimp only at returned ⊢
    rw [sameBlocks]
    split at returned
    next isOpen =>
      rw [if_pos isOpen]
      exact (InStep.ofPure .id).agrees isWide returned
    next isClosed =>
      rw [if_neg isClosed]
      exact agrees isWide returned
  andThen := .andThen
  opened via scope :=
    ((InStep.closedUnderMixins.marks (scope :: ·)).comp
      (inStep_scanMembers access via scope)).agrees
  mixins scope := (InStep.closedUnderMixins.scanMixins scope).agrees

theorem inStep_scanModule (module : NodeId) :
    InStep environment name fun scan => scanModule module scan := by
  refine .after fun entry _ _ _ => .after fun program _ _ isProgram => .ofPure ?_
  cases isProgram
  exact Scan.narrows_module _ module

theorem inStep_scanStatement (id : StatementId) :
    InStep environment name fun scan => scanStatement scan id := by
  refine .after fun entry _ _ _ => ?_
  split
  · refine .after fun tree _ _ isTree => .ofPure ?_
    cases isTree
    exact .foldl (Scan.narrows_consider none) _
  · exact .after fun tree _ _ _ => InStep.closedUnderMixins.scanMixin _ _
  · exact .ofPure .id

theorem inStep_scanAround (caret : Position) (isInnermost : Bool) (id : StatementId) :
    InStep environment name fun scan => scanAround caret isInnermost scan id := by
  refine .after fun tree _ _ isTree => .after fun entry _ _ _ => ?_
  cases isTree
  split
  · exact InStep.closedUnderMixins.foldlM fun id _ => inStep_scanStatement id
  · cases isInnermost with
    | true => exact .ofPure .id
    | false => exact .ofPure (.foldl (Scan.narrows_consider none) _)
  · exact .ofPure .id

theorem inStep_scanLocals (method : NodeId) :
    InStep environment name fun scan => scanLocals method scan := by
  refine .after fun state _ _ _ => ?_
  split
  · exact .ofPure .id
  · refine .after fun entry _ _ _ => ?_
    cases entry.owner != method with
    | true => exact .ofPure .id
    | false =>
      refine .after fun tree _ _ _ => .comp (inStep_scanAround _ true _) ?_
      exact InStep.closedUnderMixins.foldlM fun id _ => inStep_scanAround _ false id

theorem inStep_scanMethod (scope : NodeId) :
    InStep environment name fun scan => scanMethod scope scan := by
  refine .after fun entry _ _ _ => ?_
  cases entry.isMethod with
  | true =>
    refine .comp (inStep_scanLocals scope) (.after fun tree _ _ isTree => .ofPure ?_)
    cases isTree
    exact .foldl (Scan.narrows_consider none) entry.parameters
  | false => exact .ofPure .id

theorem agrees_scanScope (scope : NodeId) :
    Agrees environment name fun scan => scanScope scope scan := by
  have layers : Agrees environment name _ :=
    (inStep_scanMethod scope).agrees.andThen
      (inStep_scanMembers .lexical none scope).agrees |>.andThen
      (InStep.closedUnderMixins.scanMixins scope).agrees |>.andThen
      ((agrees_closedUnderLayers .inherited).scanInherited scope) |>.andThen
      (InStep.closedUnderMixins.scanImports inStep_scanModule scope).agrees
  simp only [bind_assoc] at layers
  exact layers

theorem scanOutward_cons_apply (isRunning : state.isCancelled = false) (scope : NodeId)
    (rest : List NodeId) (scan : Scan) :
    scanOutward (scope :: rest) scan environment state =
      (scanScope scope scan >>= unlessDone (scanOutward rest)) environment state := by
  rw [scanOutward, bind_apply, isCancelled_apply, isRunning]
  rfl

theorem agreesAt_scanOutward
    (answers : ∀ question, Attempt.StaysCancelled (environment.answer question))
    (scopes : List NodeId) {wide : Scan} (isWide : scan.name = none)
    (returned : scanOutward scopes scan environment state = .ok (wide, later))
    (isRunning : later.isCancelled = false) :
    AgreesAt environment name (scanOutward scopes) scan state wide later := by
  induction scopes generalizing scan state with
  | nil => exact (InStep.ofPure .id).agrees isWide returned
  | cons scope rest ih =>
    have orderly :
        Orderly environment.program (fun _ _ => True) .plain (fun _ => True)
          (scanOutward (scope :: rest) scan) :=
      (scanOutward_confined (fun _ _ => trivial) (Sieve.passes_whole _)
        (Sieve.passes_whole scan)).orderly
    have stateIsRunning : state.isCancelled = false := by
      cases isCancelled : state.isCancelled with
      | false => rfl
      | true =>
        rw [orderly.staysCancelled environment rfl answers returned isCancelled] at isRunning
        cases isRunning
    rw [scanOutward_cons_apply stateIsRunning] at returned
    obtain ⟨middle, middleState, isFirst, isSecond⟩ := bind_eq_ok.mp returned
    have atFirst : AgreesAt environment name _ scan state middle middleState :=
      agrees_scanScope scope isWide isFirst
    have isWideMiddle := atFirst.1.name.trans isWide
    rw [unlessDone_apply, isDone_of_wide isWideMiddle] at isSecond
    obtain ⟨leads, narrow, narrowLater, isNarrow, outcome⟩ :=
      atFirst.andThen (ih isWideMiddle isSecond)
    exact ⟨leads, narrow, narrowLater,
      (scanOutward_cons_apply stateIsRunning scope rest _).trans isNarrow, outcome⟩

theorem start_eq_ok {searched : Option String} {filter : Filter} :
    start searched filter environment state = .ok (scan, later) ↔
      (environment.program.tree.node? state.stack.top.scope).isSome ∧
        scan =
          { name := searched
            filter
            home := environment.program.tree.rootOf state.stack.top.scope } ∧
        later = state := by
  constructor
  · intro returned
    obtain ⟨_, _, ⟨⟩, returned⟩ := bind_eq_ok.mp returned
    obtain ⟨entry, _, isRead, returned⟩ := bind_eq_ok.mp returned
    obtain ⟨isEntry, rfl⟩ := node_eq_ok.mp isRead
    obtain ⟨_, _, ⟨⟩, ⟨⟩⟩ := bind_eq_ok.mp returned
    exact ⟨by rw [isEntry]; rfl, rfl, rfl⟩
  · rintro ⟨isInside, rfl, rfl⟩
    obtain ⟨entry, isEntry⟩ := Option.isSome_iff_exists.mp isInside
    refine bind_eq_ok.mpr ⟨_, later, rfl, bind_eq_ok.mpr ⟨entry, later, ?_, rfl⟩⟩
    exact node_eq_ok.mpr ⟨isEntry, rfl⟩

end Lookup

def Tree.named (tree : Tree) (name : String) (declarations : List Declaration) :
    List Declaration :=
  declarations.filter fun declaration => tree.nameOf declaration.node == name

/--
Looking up a name gives the first ones of the declarations that a listing of
everything visible has under the name.

Where the listing returns without being cancelled the lookup returns as well. It
finds nothing only if nothing of the name is listed, and neither of the two
holds a declaration twice.
-/
theorem lookup_agrees_with_enumerate
    (program : Program)
    (evaluator : Evaluator)
    (filter : Filter)
    (name : String)
    {limit : Nat}
    {state final : State}
    {listed : List Declaration}
    (returned :
      Engine.run program evaluator limit (Operation.enumerate filter).query state =
        .ok (listed, final))
    (isRunning : final.isCancelled = false) :
    ∃ found lookupFinal,
      Engine.Settles program evaluator (Operation.lookup name filter).query state found
          lookupFinal ∧
        found <+: program.tree.named name listed ∧
        (found = [] → program.tree.named name listed = []) ∧
          (found.map Declaration.node).Nodup ∧ (listed.map Declaration.node).Nodup := by
  let environment : Environment :=
    { program, evaluator, answer := Engine.answer program evaluator limit }
  have answers := Engine.answer_staysCancelled program evaluator limit
  obtain ⟨scan, _, isStart, walk⟩ := Query.bind_eq_ok.mp returned
  obtain ⟨isInside, rfl, rfl⟩ := Lookup.start_eq_ok.mp isStart
  obtain ⟨_, _, ⟨⟩, walk⟩ := Query.bind_eq_ok.mp walk
  obtain ⟨_, _, ⟨⟩, walk⟩ := Query.bind_eq_ok.mp walk
  obtain ⟨wide, _, isWalk, ⟨⟩⟩ := Query.bind_eq_ok.mp walk
  obtain ⟨leads, narrow, narrowLater, isNarrow, outcome⟩ :
      Lookup.AgreesAt environment name _ _ _ wide final :=
    Lookup.agreesAt_scanOutward answers _ rfl isWalk isRunning
  have lookupReturns :
      Engine.run program evaluator limit (Operation.lookup name filter).query _ =
        .ok (narrow.found, narrowLater) :=
    Query.bind_eq_ok.mpr ⟨_, _, Lookup.start_eq_ok.mpr ⟨isInside, rfl, rfl⟩,
      Query.bind_eq_ok.mpr ⟨_, _, rfl, Query.bind_eq_ok.mpr ⟨_, _, rfl,
        Query.bind_eq_ok.mpr ⟨narrow, narrowLater, isNarrow, rfl⟩⟩⟩⟩
  have isDistinct : (wide.found.map Declaration.node).Nodup := leads.isDistinct nodup_nil
  have isFirst : narrow.found <+: program.tree.named name wide.found := by
    rcases outcome with ⟨rfl, -⟩ | ⟨-, isFirst⟩
    · exact prefix_rfl
    · exact isFirst
  refine ⟨narrow.found, narrowLater,
    .ofRun ((Operation.lookup name filter).query_orderly program) lookupReturns, isFirst, ?_, ?_,
    isDistinct⟩
  · intro isEmpty
    rcases outcome with ⟨rfl, -⟩ | ⟨isDone, -⟩
    · exact isEmpty
    · simp [Scan.isDone, isEmpty] at isDone
  · exact isDistinct.sublist ((isFirst.sublist.trans filter_sublist).map _)

/--
A variable of the same name in every layer around a function: a local, one that
is mixed in, one that is inherited and one that is imported.
-/
def Program.layered : Program :=
  let variableType : NodeKind := .var (some (.basic .int)) none
  let drafting : Drafting Unit := do
    let library ← Draft.addModule "library"
    discard <| Draft.addMember library "x" variableType
    let application ← Draft.addModule "application"
    discard <| Draft.addMember application "library" (.importModule "library" false false)
    let base ← Draft.addMember application "Base" (.aggregate .classType false [])
    discard <| Draft.addMember base "x" variableType
    let extra ← Draft.addMember application "Extra" (.aggregate .templateType true [])
    discard <| Draft.addMember extra "x" variableType
    let derived ←
      Draft.addMember application "Derived" (.aggregate .classType false [.named "Base"])
    discard <| Draft.addMember derived "" (.mixin (.named "Extra"))
    let method ← Draft.addMember derived "f" (.method none [] none)
    let body ← Draft.addBody method
    discard <| Draft.addLocal body "x" (some (.basic .int)) none
    discard <| Draft.addStatement body (.returning (some (.named "x")))
  .ofTree (drafting.run {}).2.tree

/-- Four declarations of `x` are listed from inside a method, and a lookup gives the first ones. -/
theorem lookup_agrees_in_layered :
    ∃ listed final,
      Engine.run .layered .standard 9 (Operation.enumerate .all).query (.start ⟨10⟩ (some ⟨2⟩)) =
          .ok (listed, final) ∧
        final.isCancelled = false ∧
        (Program.layered.tree.named "x" listed).map Declaration.node =
            [⟨11⟩, ⟨7⟩, ⟨5⟩, ⟨1⟩] ∧
          ∃ found lookupFinal,
            Engine.Settles .layered .standard (Operation.lookup "x" .all).query
                (.start ⟨10⟩ (some ⟨2⟩)) found lookupFinal ∧
              found <+: Program.layered.tree.named "x" listed ∧
              found ≠ [] ∧ (listed.map Declaration.node).Nodup := by
  have run :
      ((Engine.run .layered .standard 9 (Operation.enumerate .all).query
            (.start ⟨10⟩ (some ⟨2⟩))).toOption.any
        fun outcome =>
          !outcome.2.isCancelled &&
            ((Program.layered.tree.named "x" outcome.1).map Declaration.node ==
              [⟨11⟩, ⟨7⟩, ⟨5⟩, ⟨1⟩])) =
        true := by
    decide +kernel
  obtain ⟨⟨listed, final⟩, returned, passes⟩ := exists_of_any run
  simp only [Bool.and_eq_true, Bool.not_eq_true', beq_iff_eq] at passes
  obtain ⟨isRunning, nodes⟩ := passes
  obtain ⟨found, lookupFinal, settles, isFirst, isWhole, -, isDistinct⟩ :=
    lookup_agrees_with_enumerate .layered .standard .all "x" returned isRunning
  refine ⟨listed, final, returned, isRunning, nodes, found, lookupFinal, settles, isFirst, ?_,
    isDistinct⟩
  intro isEmpty
  simp [isWhole isEmpty] at nodes

end DScope
