import DScope.Proofs.Settling

namespace DScope

/-!
# What declarations yield

The steps that every name goes through once its declarations are found: each
declaration is read in a frame of its own, and symbols without template
parameters and constraints pass the choice among overloads unchanged.
-/

open List Query
open Engine (Settles Yields)
open Query (Reads)

variable {program : Program} {evaluator : Evaluator} {state : State} {entry : Node}
  {symbol : Symbol} {id : NodeId} {declarations : List Declaration} {name : String}
  {symbols : List Symbol}

namespace Guard

variable {guard : Guard} {node : NodeId}

theorem isResolving_mark (node other : NodeId) :
    (guard.mark node).isResolving other = (other == node || guard.isResolving other) := by
  unfold mark
  split
  next isMarked =>
    by_cases isSame : other = node
    · simp [isSame, isMarked]
    · simp [isSame]
  next =>
    by_cases isSame : other = node <;> simp [isResolving, isSame]

theorem resolving_mark (isNew : guard.isResolving node = false) :
    (guard.mark node).resolving = node :: guard.resolving := by
  simp [mark, isNew]

theorem notMem_resolving (isNew : guard.isResolving node = false) : node ∉ guard.resolving :=
  fun isMarked => by simp [isResolving, isMarked] at isNew

/-- Every declaration that was entered and not left was entered once and is marked. -/
def IsShallow (guard : Guard) : Prop :=
  ∀ node, guard.depth node ≤ if guard.isResolving node then 1 else 0

theorem IsShallow.enter_mark
    (isShallow : guard.IsShallow) (isNew : guard.isResolving node = false) :
    ((guard.enter node).mark node).IsShallow := by
  intro other
  have isLow := isShallow other
  have sameDepth : ((guard.enter node).mark node).depth other = (guard.enter node).depth other := by
    unfold mark
    split <;> rfl
  rw [sameDepth, isResolving_mark]
  by_cases isSame : other = node
  · subst isSame
    rw [isNew] at isLow
    rw [depth_enter_self]
    simpa using isLow
  · have sameMark :
        (other == node || (guard.enter node).isResolving other) = guard.isResolving other := by
      rw [beq_false_of_ne isSame]
      rfl
    rw [depth_enter_of_ne (Ne.symm isSame), sameMark]
    exact isLow

theorem IsShallow.depth_enter_le (isShallow : guard.IsShallow) :
    (guard.enter node).depth node ≤ baseLimit := by
  have isLow := isShallow node
  rw [depth_enter_self, baseLimit]
  split at isLow <;> omega

end Guard

/-- The state in which a declaration is read. -/
def State.reading (state : State) (tree : Tree) (id : NodeId) (given : Bindings) : State :=
  { state with guard := state.guard.enter id }.push (.ofDeclaration tree id given)

/-- A declaration stands for what a visit in its own frame gives. -/
theorem DeclaredSymbol.settles_symbolOf
    {given : Bindings} {value : Option Symbol} {later : State}
    (isRunning : state.isCancelled = false) (isEntry : program.tree.node? id = some entry)
    (reads :
      Settles program evaluator
        (visit id entry (.ofOptions state.options ((state.guard.enter id).depth id))
          (attached program.tree state.stack id entry given))
        (state.reading program.tree id given) value later) :
    Settles program evaluator (symbolOf id given) state value
      { later.truncate state.stack.depth with guard := later.guard.leave id } := by
  apply Settles.ask
  apply Settles.bind (.ofReads (.node isEntry))
  apply Settles.bind (.ofReads .tree)
  apply Settles.bind (.ofReads .options)
  apply Settles.bind (.ofReads .get)
  exact .visiting (.bind (.withFrame isRunning reads) (.pure value))

theorem DeclaredSymbol.yields_symbolOf
    {given : Bindings} {value : Option Symbol} (isRunning : state.isCancelled = false)
    (isPositive : state.guard.IsPositive) (isEntry : program.tree.node? id = some entry)
    (reads :
      Yields program evaluator (state.reading program.tree id given)
        (visit id entry (.ofOptions state.options ((state.guard.enter id).depth id))
          (attached program.tree state.stack id entry given))
        value) :
    Yields program evaluator state (symbolOf id given) value := by
  have settles := settles_symbolOf isRunning isEntry reads
  simp only [State.reading, State.truncate, State.push, Stack.truncate_push,
    Guard.leave_enter isPositive] at settles
  exact settles

/-- From a root, what is declared elsewhere takes its own parameters and what is given. -/
theorem DeclaredSymbol.attached_outside {tree : Tree} {stack : Stack} {root : Node}
    (isEntry : tree.node? id = some entry) (isScope : tree.node? stack.top.scope = some root)
    (isRoot : root.parent = none) (isOther : entry.kind ≠ root.kind) (given : Bindings) :
    attached tree stack id entry given =
      (Bindings.forParameters entry.templateParameters).mergeMissing given := by
  have isElsewhere : id ≠ stack.top.scope := by
    rintro rfl
    cases isEntry.symm.trans isScope
    exact isOther rfl
  have isOutside : tree.encloses id stack.top.scope = false := by
    simp [Tree.encloses, Tree.lineage, Tree.climb, Tree.parent?, isScope, isRoot, isElsewhere]
  unfold attached
  rw [isOutside]
  rfl

/-- The symbols that a declaration stands for, told apart. -/
def Symbol.toldApart (symbol : Option Symbol) : List Symbol :=
  (symbol.map candidates).getD []

theorem Query.yields_symbolsOf
    {gives : Declaration → Option Symbol} (isRunning : state.isCancelled = false)
    (yields :
      ∀ declaration ∈ declarations,
        Yields program evaluator state (symbolThrough declaration.node declaration.via)
          (gives declaration)) :
    Yields program evaluator state (symbolsOf declarations)
      (declarations.flatMap fun declaration => Symbol.toldApart (gives declaration)) := by
  apply Yields.collect isRunning
  intro declaration isMember
  exact .bind (yields declaration isMember) (.pure _)

/-- A single declaration stands for its symbol, unless this is ambiguous. -/
theorem Query.settles_symbolsOf_singleton
    {declaration : Declaration} {final : State} (isRunning : state.isCancelled = false)
    (isSingle : symbol.candidates = [symbol])
    (settles :
      Settles program evaluator (symbolThrough declaration.node declaration.via) state
        (some symbol) final) :
    Settles program evaluator (symbolsOf [declaration]) state [symbol] final := by
  apply Settles.collect_singleton isRunning
  apply settles.bind
  rw [Option.map_some, isSingle]
  exact .pure [symbol]

/-- No template, and not limited by a constraint: a symbol that instantiation leaves as it is. -/
structure Symbol.IsInert (program : Program) (symbol : Symbol) : Prop where
  isSingle : ∀ candidates, symbol.shape ≠ .ambiguous candidates
  isNoAggregate : symbol.aggregate? = none
  isPlain :
    ∀ owner, symbol.definition? = some owner →
      ∃ entry,
        program.tree.node? owner = some entry ∧
          entry.templateParameters = [] ∧ entry.constraint = none

theorem Symbol.isInert_of_definition? (isEntry : program.tree.node? id = some entry)
    (isPlain : entry.templateParameters = [] ∧ entry.constraint = none)
    (isDefined : symbol.definition? = some id) (isNoAggregate : symbol.aggregate? = none)
    (isSingle : ∀ candidates, symbol.shape ≠ .ambiguous candidates) : symbol.IsInert program := by
  refine ⟨isSingle, isNoAggregate, ?_⟩
  intro owner isOwner
  cases isDefined.symm.trans isOwner
  exact ⟨entry, isEntry, isPlain⟩

theorem Symbol.IsInert.withTag (isInert : symbol.IsInert program) (tag : Tag) :
    (symbol.withTag tag).IsInert program :=
  ⟨isInert.isSingle, isInert.isNoAggregate, isInert.isPlain⟩

theorem Symbol.IsInert.candidates_eq (isInert : symbol.IsInert program) :
    symbol.candidates = [symbol] := by
  unfold candidates
  split
  next candidates isAmbiguous => exact absurd isAmbiguous (isInert.isSingle candidates)
  next => rfl

namespace Template

variable {symbol : Symbol} {outcome : Option Symbol} {overload : Symbol} {given : List Argument}

theorem yields_instantiateOverload
    (isUntaken :
      ∀ owner, symbol.definition? = some owner →
        ∃ entry,
          program.tree.node? owner = some entry ∧
            (entry.templateParameters = [] ∨ ownsParameters symbol = false)) :
    Yields program evaluator state (instantiateOverload symbol [] false) (some symbol) := by
  unfold instantiateOverload
  split
  · exact .pure (some symbol)
  · unfold instantiateDeclared
    split
    · exact .pure (some symbol)
    next owner isOwner =>
      obtain ⟨entry, isEntry, isUntaken⟩ := isUntaken owner isOwner
      apply Yields.bind (.ofReads (.node isEntry))
      rcases isUntaken with isEmpty | isNoOwner
      · rw [isEmpty]
        exact .pure (some symbol)
      · rw [isNoOwner, Bool.not_false, Bool.or_true]
        exact .pure (some symbol)

theorem yields_meetsConstraint
    (isFree :
      ∀ owner, symbol.definition? = some owner →
        ∃ entry, program.tree.node? owner = some entry ∧ entry.constraint = none) :
    Yields program evaluator state (meetsConstraint symbol) true := by
  unfold meetsConstraint
  split
  · exact .pure true
  next owner isOwner =>
    obtain ⟨entry, isEntry, isFree⟩ := isFree owner isOwner
    apply Yields.bind (.ofReads (.node isEntry))
    rw [isFree]
    exact .pure true

theorem ranks_eq_nil (isInert : symbol.IsInert program) : ranks program.tree symbol = [] := by
  unfold ranks
  cases isOwner : symbol.definition? with
  | none => rfl
  | some owner =>
    obtain ⟨entry, isEntry, isEmpty, -⟩ := isInert.isPlain owner isOwner
    simp [isEntry, isEmpty]

theorem mostSpecialized_of_isInert (areInert : ∀ symbol ∈ symbols, symbol.IsInert program) :
    mostSpecialized program.tree symbols = symbols := by
  refine filter_eq_self.mpr fun symbol isMember => ?_
  rw [ranks_eq_nil (areInert symbol isMember)]
  simp [dominates]

theorem yields_expand (isInert : symbol.IsInert program) :
    Yields program evaluator state (expand symbol) [symbol] := by
  unfold expand
  rw [isInert.isNoAggregate]
  exact .pure [symbol]

theorem flatMap_candidates_of_isInert (areInert : ∀ symbol ∈ symbols, symbol.IsInert program) :
    symbols.flatMap Symbol.candidates = symbols := by
  calc
    symbols.flatMap Symbol.candidates = symbols.flatMap fun symbol => [symbol] := by
      exact congrArg flatten
        (map_congr_left fun symbol isMember => (areInert symbol isMember).candidates_eq)
    _ = symbols := flatMap_singleton' symbols

theorem yields_instantiate_of_isInert (isRunning : state.isCancelled = false)
    (areInert : ∀ symbol ∈ symbols, symbol.IsInert program) :
    Yields program evaluator state (instantiate symbols [] false) symbols := by
  have isItself : (symbols.flatMap fun symbol => [symbol]) = symbols := flatMap_singleton' symbols
  have each :
      ∀ symbol ∈ symbols,
        Yields program evaluator state
          (do return (← instantiateOverload symbol [] false).toList) [symbol] := by
    refine fun symbol isMember => .bind (yields_instantiateOverload fun owner isOwner => ?_)
      (.pure [symbol])
    obtain ⟨entry, isEntry, isEmpty, -⟩ := (areInert symbol isMember).isPlain owner isOwner
    exact ⟨entry, isEntry, .inl isEmpty⟩
  have instances := Yields.collect isRunning each
  rw [isItself] at instances
  have kept : Yields program evaluator state (narrow symbols) symbols := by
    apply Yields.bind (.ofReads .tree)
    apply Yields.bind (.filterM fun symbol isMember => yields_meetsConstraint fun owner isOwner =>
      ((areInert symbol isMember).isPlain owner isOwner).imp fun _ isPlain => ⟨isPlain.1, isPlain.2.2⟩)
    rw [mostSpecialized_of_isInert areInert]
    exact .pure symbols
  unfold instantiate
  rw [flatMap_candidates_of_isInert areInert]
  apply Yields.bind instances
  apply Yields.bind kept
  apply Yields.bind (.mapM fun symbol isMember => yields_expand (areInert symbol isMember))
  rw [← flatMap_def, isItself]
  exact .pure symbols

theorem mostSpecialized_singleton (tree : Tree) (overload : Symbol) :
    mostSpecialized tree [overload] = [overload] := by
  have isUndominated : ∀ ranks, dominates ranks ranks = false := by
    intro ranks
    induction ranks with
    | nil => rfl
    | cons rank rest ih => simpa [dominates] using ih
  simp [mostSpecialized, isUndominated]

theorem yields_narrow
    (meets : ∀ result ∈ outcome, Yields program evaluator state (meetsConstraint result) true) :
    Yields program evaluator state (narrow outcome.toList) outcome.toList := by
  have keeps :
      Yields program evaluator state (outcome.toList.filterM meetsConstraint) outcome.toList :=
    .filterM fun result isMember => meets result (Option.mem_toList.mp isMember)
  apply Yields.bind (.ofReads .tree)
  apply Yields.bind keeps
  cases outcome with
  | none => exact .pure []
  | some result =>
    rw [Option.toList_some, mostSpecialized_singleton]
    exact .pure [result]

theorem yields_instantiate_toList
    (isRunning : state.isCancelled = false) (isSingle : overload.candidates = [overload])
    (instantiates :
      Yields program evaluator state (instantiateOverload overload given false) outcome)
    (meets : ∀ result ∈ outcome, Yields program evaluator state (meetsConstraint result) true)
    (expands : ∀ result ∈ outcome, Yields program evaluator state (expand result) [result]) :
    Yields program evaluator state (instantiate [overload] given false) outcome.toList := by
  unfold instantiate
  rw [flatMap_cons, isSingle]
  apply Yields.bind (.collect_singleton isRunning (.bind instantiates (.pure _)))
  apply Yields.bind (yields_narrow meets)
  cases outcome with
  | none => exact .bind (.pure []) (.pure [])
  | some result => exact .bind (.mapM_singleton (expands result rfl)) (.pure [result])

/-- A single overload becomes its instance, if the constraint of this one is met. -/
theorem settles_instantiate_singleton {result : Symbol} {final : State}
    (isRunning : state.isCancelled = false) (isSingle : overload.candidates = [overload])
    (instantiates :
      Yields program evaluator state (instantiateOverload overload given false) (some result))
    (meets : Settles program evaluator (meetsConstraint result) state true final)
    (expands : Yields program evaluator final (expand result) [result]) :
    Settles program evaluator (instantiate [overload] given false) state [result] final := by
  have keeps : Settles program evaluator ([result].filterM meetsConstraint) state [result] final :=
    .bind (meets.bind (.pure [result])) (.pure [result])
  have narrows : Settles program evaluator (narrow [result]) state [result] final := by
    apply Settles.bind (.ofReads .tree)
    apply keeps.bind
    rw [mostSpecialized_singleton]
    exact .pure [result]
  unfold instantiate
  rw [flatMap_cons, isSingle]
  apply Settles.bind (.collect_singleton isRunning (.bind instantiates (.pure _)))
  exact narrows.bind (.bind (Yields.mapM_singleton expands) (.pure [result]))

theorem yields_instantiate_of_plain
    (isRunning : state.isCancelled = false) (isSingle : symbol.candidates = [symbol])
    (isPlain :
      ∀ owner, symbol.definition? = some owner →
        ∃ entry,
          program.tree.node? owner = some entry ∧
            (entry.templateParameters = [] ∨ ownsParameters symbol = false) ∧
            entry.constraint = none)
    (expands : Yields program evaluator state (expand symbol) [symbol]) :
    Yields program evaluator state (instantiate [symbol] [] false) [symbol] := by
  refine settles_instantiate_singleton isRunning isSingle
    (yields_instantiateOverload fun owner isOwner => ?_)
    (yields_meetsConstraint fun owner isOwner => ?_) expands
  all_goals obtain ⟨entry, isEntry, isUntaken, isFree⟩ := isPlain owner isOwner
  · exact ⟨entry, isEntry, isUntaken⟩
  · exact ⟨entry, isEntry, isFree⟩

end Template

namespace Lookup

theorem reads_start {name : Option String} {filter : Filter}
    (isEntry : program.tree.node? state.stack.top.scope = some entry) :
    Reads program state (start name filter)
      { name, filter, home := program.tree.rootOf state.stack.top.scope } :=
  .bind .scope (.bind (.node isEntry) (.bind .tree (.pure _)))

theorem reads_scanMembers {access : Access} {via : Option Symbol} {scan found : Scan}
    (isEntry : program.tree.node? id = some entry)
    (isFound : scan.members program access via entry = found) :
    Reads program state (scanMembers access via id scan) found :=
  isFound ▸ .bind .wholeProgram (.bind (.node isEntry) (.pure _))

theorem reads_unlessDone {scan : Scan} (isDone : scan.isDone = true) (next : Scan → Query Scan) :
    Reads program state (unlessDone next scan) scan := by
  rw [unlessDone, if_pos isDone]
  exact .pure scan

/-- A name that the members of the scope have, or what comes before them, is looked up no further. -/
theorem reads_visible_of_isDone {filter : Filter} {first scan : Scan}
    (isRunning : state.isCancelled = false)
    (isEntry : program.tree.node? state.stack.top.scope = some entry)
    (scansMethod :
      Reads program state
        (scanMethod state.stack.top.scope
          { name := some name, filter, home := program.tree.rootOf state.stack.top.scope })
        first)
    (scansMembers :
      Reads program state (unlessDone (scanMembers .lexical none state.stack.top.scope) first) scan)
    (isDone : scan.isDone = true) :
    Reads program state (visible name filter) scan.found := by
  apply Reads.bind (reads_start isEntry)
  apply Reads.bind .tree
  apply Reads.bind .scope
  rw [Tree.lineage, Tree.climb, scanOutward, bind_assoc]
  apply Reads.bind .isCancelled
  rw [isRunning]
  have scansScope : Reads program state (scanScope state.stack.top.scope _) scan :=
    .bind scansMethod (.bind scansMembers (.bind (reads_unlessDone isDone _)
      (.bind (reads_unlessDone isDone _) (reads_unlessDone isDone _))))
  exact .bind (.bind scansScope (reads_unlessDone isDone _)) (.pure _)

/-- The candidates for a visible name are the symbols of its declarations. -/
theorem settles_candidates {final : State}
    (isVisible : Yields program evaluator state (visible name .all) declarations)
    (isNonempty : declarations ≠ [])
    (settles : Settles program evaluator (symbolsOf declarations) state symbols final) :
    Settles program evaluator (candidates name) state symbols final := by
  apply Settles.bind isVisible
  apply settles.bind
  have isFound : declarations.isEmpty = false := by simpa using isNonempty
  rw [isFound]
  exact .pure symbols

end Lookup

/-- The module or the package with a name. -/
def Program.namesakes (program : Program) (name : String) : List Symbol :=
  match program.module? name with
  | some root => [.module root]
  | none => if (program.package? name).isSome then [.package name] else []

theorem Program.namesakes_cases (program : Program) (name : String) :
    (∃ root, program.module? name = some root ∧ program.namesakes name = [.module root]) ∨
      program.namesakes name = [.package name] ∨ program.namesakes name = [] := by
  unfold namesakes
  cases program.module? name with
  | some root => exact .inl ⟨root, rfl, rfl⟩
  | none =>
    by_cases isPackage : (program.package? name).isSome = true
    · exact .inr (.inl (if_pos isPackage))
    · exact .inr (.inr (if_neg isPackage))

theorem Lookup.yields_namesakes
    (isVisible : Yields program evaluator state (visible name .all) []) :
    Yields program evaluator state (candidates name) (program.namesakes name) := by
  refine .bind isVisible (.bind (.pure []) (.bind (.ofReads .wholeProgram) ?_))
  unfold Program.namesakes
  cases program.module? name with
  | some root => exact .pure _
  | none =>
    dsimp only
    split
    · exact .pure _
    · exact .pure _

/-- If the name is that of a module, this module has no constraint. -/
def Program.IsFree (program : Program) (name : String) : Prop :=
  ∀ root, program.module? name = some root →
    ∃ entry, program.tree.node? root = some entry ∧ entry.constraint = none

theorem Program.yields_instantiate_namesakes (isRunning : state.isCancelled = false)
    (isFree : program.IsFree name) :
    Yields program evaluator state
      (Template.instantiate (program.namesakes name) [] false) (program.namesakes name) := by
  rcases program.namesakes_cases name with ⟨root, isModule, areNamed⟩ | areNamed | areNamed
  · rw [areNamed]
    obtain ⟨entry, isEntry, isFree⟩ := isFree root isModule
    refine Template.yields_instantiate_of_plain isRunning rfl ?_ (.pure _)
    rintro owner ⟨rfl⟩
    exact ⟨entry, isEntry, .inr rfl, isFree⟩
  · rw [areNamed]
    refine Template.yields_instantiate_of_plain isRunning rfl ?_ (.pure _)
    intro owner isOwner
    cases isOwner
  · rw [areNamed]
    exact Template.yields_instantiate_of_isInert isRunning (by simp)

/-- The members of one owner are its candidates, if instantiation leaves these as they are. -/
theorem MemberAccess.settles_symbols {owner : Symbol} {final : State}
    (isRunning : state.isCancelled = false) (isSingle : owner.candidates = [owner])
    (offers : Settles program evaluator (candidatesOn name true owner) state symbols final)
    (instantiates : Yields program evaluator final (Template.instantiate symbols [] false) symbols) :
    Settles program evaluator (MemberAccess.symbols owner name none true) state symbols final := by
  unfold MemberAccess.symbols candidates
  rw [isSingle]
  apply Settles.bind (.collect_singleton isRunning offers)
  apply Settles.bind (.ofReads .options)
  split
  · exact .pure _
  · exact instantiates

namespace Resolution

variable {name : String}

variable (isRunning : state.isCancelled = false)
include isRunning

theorem yields_searchName
    (yields : Yields program evaluator state (Lookup.candidates name) symbols)
    (areInert : ∀ symbol ∈ symbols, symbol.IsInert program) :
    Yields program evaluator state (searchName name) symbols := by
  apply Yields.bind yields
  apply Yields.bind (.ofReads .options)
  split
  · exact .pure symbols
  · exact Template.yields_instantiate_of_isInert isRunning areInert

theorem yields_searchName_of_visible {id : NodeId}
    (isVisible : Yields program evaluator state (Lookup.visible name .all) [⟨id, none⟩])
    (isInert : symbol.IsInert program)
    (yields : Yields program evaluator state (symbolOf id .none) (some symbol)) :
    Yields program evaluator state (searchName name) [symbol] := by
  have declares : Yields program evaluator state (symbolsOf [⟨id, none⟩]) [symbol] :=
    settles_symbolsOf_singleton isRunning isInert.candidates_eq yields
  refine yields_searchName isRunning ?_ (forall_mem_singleton.mpr isInert)
  exact Lookup.settles_candidates isVisible (cons_ne_nil _ _) declares

theorem yields_ofName
    (isBusy : state.memoKey? name = none) (isNonempty : symbols ≠ [])
    (yields : Yields program evaluator state (searchName name) symbols) :
    Yields program evaluator state (ofName name) symbols := by
  have isNew : state.remembered? name = none := by simp [State.remembered?, isBusy]
  have settles := settles_ofName isNew yields isRunning
  have isUnchanged : concluded state name symbols = state := by
    simp [concluded, State.remember, isNonempty, isBusy]
  rwa [isUnchanged] at settles

theorem yields_ofName_of_busy
    (isBusy : state.guard.isIdle = false)
    (yields : Yields program evaluator state (searchName name) symbols) :
    Yields program evaluator state (ofName name) symbols := by
  have hasNoKey : state.memoKey? name = none := by simp [State.memoKey?, isBusy]
  have isNew : state.remembered? name = none := by simp [State.remembered?, hasNoKey]
  have settles := settles_ofName isNew yields isRunning
  have isUnchanged : concluded state name symbols = state := by
    simp [concluded, reportedMissing, State.remember, isBusy, hasNoKey]
  rwa [isUnchanged] at settles

theorem yields_resolve_of_busy
    (isBusy : state.guard.isIdle = false)
    (searches : Yields program evaluator state (searchName name) symbols) :
    Yields program evaluator state (resolve (.named name)) symbols := by
  apply Yields.ask
  apply Yields.bind (.ofReads .isCancelled)
  rw [isRunning]
  exact yields_ofName_of_busy isRunning isBusy searches

end Resolution

end DScope
