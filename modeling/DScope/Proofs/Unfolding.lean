import DScope.Proofs.Drafting
import DScope.Proofs.ModuleScope

namespace DScope

open Engine (Yields)

variable {id : NodeId} {target : TypeExpr} {entry : Node} {program : Program} {symbol : Symbol}
  {evaluator : Evaluator} {name : String}

/-!
# Unfolding of aliases

A module of aliases whose targets are built from basic types and from names of
aliases. A name stands for the target of its alias with the aliases in it unfolded
in their turn. An alias that is met inside its own unfolding stays as it is, and so
does an alias with a name in its target that means nothing.
-/

open List DeclaredSymbol Resolution

/-! ## Written types -/

namespace TypeExpr

/-- Built from basic types and names by pointers, arrays without lengths and modifiers. -/
inductive IsSimple : TypeExpr → Prop
  | basic (type : BasicType) : IsSimple (.basic type)
  | named (name : String) : IsSimple (.named name)
  | pointer {target : TypeExpr} (isSimple : IsSimple target) : IsSimple (.pointer target)
  | dynamicArray {element : TypeExpr} (isSimple : IsSimple element) :
      IsSimple (.dynamicArray element)
  | modified (modifier : Modifier) {inner : TypeExpr} (isSimple : IsSimple inner) :
      IsSimple (.modified modifier inner)

/-- The names in a simple type. -/
def names : TypeExpr → List String
  | .named name => [name]
  | .pointer inner | .dynamicArray inner | .modified _ inner => inner.names
  | _ => []

/-- What a simple type stands for, given what names stand for; nothing if a name means nothing. -/
def unfoldOver (known : String → Option Symbol) : TypeExpr → Option Symbol
  | .basic type => some (.primitive type)
  | .named name => known name
  | .pointer target => (target.unfoldOver known).map fun symbol => .pointer (some symbol)
  | .dynamicArray element =>
    (element.unfoldOver known).map fun symbol => .dynamicArray (some symbol)
  | .modified modifier inner => (inner.unfoldOver known).map (·.withModifier modifier)
  | _ => none

variable {known : String → Option Symbol} {type : TypeExpr}

theorem IsSimple.exists_name (isSimple : type.IsSimple) (isNothing : type.unfoldOver known = none) :
    ∃ name ∈ type.names, known name = none := by
  induction isSimple with
  | basic type => cases isNothing
  | named name => exact ⟨name, mem_singleton.mpr rfl, isNothing⟩
  | pointer _ ih | dynamicArray _ ih
  | modified _ _ ih =>
    exact ih (Option.map_eq_none_iff.mp isNothing)

theorem IsSimple.isInert (isSimple : type.IsSimple)
    (areInert : ∀ name ∈ type.names, ∀ found, known name = some found → found.IsInert program)
    (isSymbol : type.unfoldOver known = some symbol) : symbol.IsInert program := by
  have ofShape {shape : Shape} (isSingle : ∀ candidates, shape ≠ .ambiguous candidates)
      (isNoAggregate : (Symbol.ofShape shape).aggregate? = none)
      (isNoDeclaration : (Symbol.ofShape shape).definition? = none) :
      (Symbol.ofShape shape).IsInert program :=
    ⟨isSingle, isNoAggregate,
      fun owner isOwner => by rw [isNoDeclaration] at isOwner; cases isOwner⟩
  induction isSimple generalizing symbol with
  | basic type =>
    cases isSymbol
    exact ofShape (fun _ isOther => by cases isOther) rfl rfl
  | named name => exact areInert name (mem_singleton.mpr rfl) symbol isSymbol
  | pointer =>
    obtain ⟨target, -, rfl⟩ := Option.map_eq_some_iff.mp isSymbol
    exact ofShape (fun _ isOther => by cases isOther) rfl rfl
  | dynamicArray =>
    obtain ⟨element, -, rfl⟩ := Option.map_eq_some_iff.mp isSymbol
    exact ofShape (fun _ isOther => by cases isOther) rfl rfl
  | modified modifier _ ih =>
    obtain ⟨inner, isInner, rfl⟩ := Option.map_eq_some_iff.mp isSymbol
    have isInert := ih areInert isInner
    exact ⟨isInert.isSingle, isInert.isNoAggregate, isInert.isPlain⟩

theorem IsSimple.yields_resolve {state : State} (isSimple : type.IsSimple)
    (isRunning : state.isCancelled = false)
    (areKnown :
      ∀ name ∈ type.names, Yields program evaluator state (ofName name) (known name).toList) :
    Yields program evaluator state (Query.resolve type) (type.unfoldOver known).toList := by
  induction isSimple <;>
    refine .ask (.bind (.ofReads .isCancelled) ?_) <;>
    rw [isRunning]
  case basic type => exact .pure _
  case named name => exact areKnown name (mem_singleton.mpr rfl)
  case pointer ih | dynamicArray ih | modified ih =>
    rw [unfoldOver, Option.toList_map]
    exact .bind (ih areKnown) (.pure _)

end TypeExpr

/-! ## Modules of aliases -/

/-- An alias of a module that is no template. -/
structure Node.IsAlias (module : NodeId) (target : TypeExpr) (node : Node) : Prop where
  isKind : ∃ initializer, node.kind = .aliased (some target) initializer
  isInside : node.parent = some module
  isNoTemplate : node.templateParameters = []

/-- The target of an alias. -/
def Tree.aliasTarget? (tree : Tree) (id : NodeId) : Option TypeExpr :=
  (tree.node? id).bind fun entry =>
    match entry.kind with
    | .aliased target _ => target
    | _ => none

theorem Node.IsAlias.aliasTarget?_eq
    {tree : Tree} {module : NodeId} (isAlias : entry.IsAlias module target)
    (isEntry : tree.node? id = some entry) : tree.aliasTarget? id = some target := by
  obtain ⟨initializer, isKind⟩ := isAlias.isKind
  simp [Tree.aliasTarget?, isEntry, isKind]

namespace Tree

/-- The first of the aliases has the name of the second one in its target. -/
def Follows (tree : Tree) (aliases : List NodeId) (first second : NodeId) : Prop :=
  first ∈ aliases ∧ second ∈ aliases ∧
    ∃ target, tree.aliasTarget? first = some target ∧ tree.nameOf second ∈ target.names

/-- The alias has a name in its target that none of the aliases has. -/
def NamesUnknown (tree : Tree) (aliases : List NodeId) (id : NodeId) : Prop :=
  ∃ target, tree.aliasTarget? id = some target ∧
    ∃ name ∈ target.names, name ∉ aliases.map tree.nameOf

end Tree

/--
A module of aliases with simple targets and distinct names that is the only one of the
program.

A name in a target is that of an alias or means nothing. An alias that leads back to
itself, or that has a name in its target that means nothing, is not limited by a
constraint: it is its own symbol, and so a constraint would be put to it.
-/
structure AliasModule (program : Program) extends LoneModule program where
  areAliases :
    ∀ id ∈ module.children,
      ∃ entry target,
        program.tree.node? id = some entry ∧ entry.IsAlias moduleId target ∧ target.IsSimple
  haveDistinctNames : (module.children.map program.tree.nameOf).Nodup
  meanNothing :
    ∀ id ∈ module.children, ∀ target, program.tree.aliasTarget? id = some target →
      ∀ name ∈ target.names, name ∉ module.children.map program.tree.nameOf →
      program.namesakes name = []
  areFree :
    ∀ id ∈ module.children, ∀ entry, program.tree.node? id = some entry →
      Relation.TransGen (program.tree.Follows module.children) id id ∨
          program.tree.NamesUnknown module.children id →
        entry.constraint = none

namespace AliasModule

variable (aliases : AliasModule program) {path : List NodeId}

def plain : PlainModule program where
  toLoneModule := aliases.toLoneModule
  areOrdinary := by
    intro id isMember
    obtain ⟨entry, target, isEntry, ⟨⟨initializer, isKind⟩, -, -⟩, -⟩ :=
      aliases.areAliases id isMember
    exact ⟨entry, isEntry, by rw [Node.isOrdinary, isKind]⟩
  areDistinct := List.Nodup.of_map _ aliases.haveDistinctNames

def find? (name : String) : Option NodeId :=
  aliases.module.children.find? (program.tree.nameOf · == name)

theorem declared_eq (name : String) :
    aliases.plain.declared name .all = (aliases.find? name).toList :=
  aliases.plain.ordinary.declared_all aliases.haveDistinctNames name

theorem mem_of_find? (isFound : aliases.find? name = some id) :
    id ∈ aliases.module.children ∧ program.tree.nameOf id = name :=
  ⟨mem_of_find?_eq_some isFound, by simpa using find?_some isFound⟩

theorem find?_nameOf (isMember : id ∈ aliases.module.children) :
    aliases.find? (program.tree.nameOf id) = some id :=
  find?_key_eq aliases.haveDistinctNames isMember

theorem find?_eq_none_iff :
    aliases.find? name = none ↔ name ∉ aliases.module.children.map program.tree.nameOf := by
  simp [find?]

/-! ## Unfolding -/

theorem remaining_lt (isFound : aliases.find? name = some id) (isNew : id ∉ path) :
    remaining aliases.module.children (id :: path) < remaining aliases.module.children path :=
  remaining_cons_lt (aliases.mem_of_find? isFound).1 isNew

/--
The unfolding of a name inside the aliases of a path.

An alias on the path is its own symbol. Any other alias is its target unfolded one alias
further, with the alias noted in a tag, unless a name in the target means nothing: then
it is its own symbol as well.
-/
def unfolding (path : List NodeId) (name : String) : Option Symbol :=
  match _isFound : aliases.find? name with
  | none => none
  | some id =>
    if _isOnPath : id ∈ path then
      some (DeclaredSymbol.unfollowedAlias id)
    else
      let target := (program.tree.aliasTarget? id).bind
        (TypeExpr.unfoldOver fun inner => unfolding (id :: path) inner)
      some ((target.map (·.withTag (.aliased id))).getD (DeclaredSymbol.unfollowedAlias id))
termination_by remaining aliases.module.children path
decreasing_by exact aliases.remaining_lt _isFound _isOnPath

section Equations

variable {aliases}

theorem unfolding_of_none (isUnknown : aliases.find? name = none) :
    aliases.unfolding path name = none := by
  rw [unfolding]
  split
  · rfl
  next isFound =>
    rw [isUnknown] at isFound
    cases isFound

theorem unfolding_of_some (isFound : aliases.find? name = some id) :
    aliases.unfolding path name =
      if id ∈ path then
        some (unfollowedAlias id)
      else
        some ((((program.tree.aliasTarget? id).bind
          (TypeExpr.unfoldOver (aliases.unfolding (id :: path)))).map
            (·.withTag (.aliased id))).getD (unfollowedAlias id)) := by
  rw [unfolding]
  split
  next isUnknown =>
    rw [isUnknown] at isFound
    cases isFound
  next other isOther =>
    cases isFound.symm.trans isOther
    rfl

theorem find?_of_unfolding (isNothing : aliases.unfolding path name = none) :
    aliases.find? name = none := by
  cases isFound : aliases.find? name with
  | none => rfl
  | some id =>
    rw [unfolding_of_some isFound] at isNothing
    split at isNothing <;> cases isNothing

end Equations

end AliasModule

/-- The state in which the target of an alias is resolved. -/
def State.following (state : State) (tree : Tree) (id : NodeId) : State :=
  let marked := { state.reading tree id .none with guard := (state.guard.enter id).mark id }
  marked.push (marked.overridden (({} : Overrides).enable { referencesOnly := true }))

namespace AliasModule

variable {aliases : AliasModule program} {state : State} {entry : Node}

/-! ## Symbols of aliases -/

/-- A query in the module that follows aliases, and that follows each of them at most once. -/
structure Stands (aliases : AliasModule program) (state : State) : Prop where
  isRunning : state.isCancelled = false
  isScope : state.stack.top.scope = aliases.moduleId
  isPositive : state.guard.IsPositive
  isShallow : state.guard.IsShallow
  followsAliases : state.options.keepAliases = false
  hasNoDefaults : state.defaults = {}

theorem isInert_unfollowedAlias
    (isEntry : program.tree.node? id = some entry) (isAlias : entry.IsAlias aliases.moduleId target)
    (isFree : entry.constraint = none) :
    (unfollowedAlias id).IsInert program where
  isSingle _ isOther := by cases isOther
  isNoAggregate := rfl
  isPlain := by
    rintro owner ⟨⟩
    exact ⟨entry, isEntry, isAlias.isNoTemplate, isFree⟩

section

variable (stands : aliases.Stands state) (isEntry : program.tree.node? id = some entry)
  (isAlias : entry.IsAlias aliases.moduleId target)
include stands isEntry isAlias

theorem Stands.following (isNew : state.guard.isResolving id = false) :
    aliases.Stands (state.following program.tree id) where
  isRunning := stands.isRunning
  isScope := by
    obtain ⟨initializer, isKind⟩ := isAlias.isKind
    change program.tree.scopeOf id = aliases.moduleId
    simp [Tree.scopeOf, isEntry, Node.isBlock, isKind, isAlias.isInside]
  isPositive := (stands.isPositive.enter id).mark id
  isShallow := stands.isShallow.enter_mark isNew
  followsAliases := by
    change (Overrides.apply _ state.defaults).keepAliases = false
    rw [stands.hasNoDefaults]
    rfl
  hasNoDefaults := stands.hasNoDefaults

theorem Stands.yields_symbolOf
    (follows :
      Yields program evaluator (state.reading program.tree id .none)
        (DeclaredSymbol.ofAlias id target) symbol) :
    Yields program evaluator state (Query.symbolOf id .none) (some symbol) := by
  obtain ⟨initializer, isKind⟩ := isAlias.isKind
  have isLow : ¬(state.guard.enter id).depth id > Guard.baseLimit :=
    Nat.not_lt.mpr stands.isShallow.depth_enter_le
  have reaches :
      (DeclaredSymbol.Reach.ofOptions state.options
        ((state.guard.enter id).depth id)).aliases = true := by
    simp [DeclaredSymbol.Reach.ofOptions, isLow, stands.followsAliases]
  apply DeclaredSymbol.yields_symbolOf stands.isRunning stands.isPositive isEntry
  rw [DeclaredSymbol.visit, isKind]
  rw [reaches]
  exact .bind follows (.pure _)

theorem Stands.yields_unfollowed (isMarked : state.guard.isResolving id = true) :
    Yields program evaluator state (Query.symbolOf id .none) (some (unfollowedAlias id)) :=
  stands.yields_symbolOf isEntry isAlias (.bind (.whileResolving_of_isResolving isMarked) (.pure _))

theorem Stands.yields_followed {found : Option Symbol}
    (isNew : state.guard.isResolving id = false)
    (resolves :
      Yields program evaluator (state.following program.tree id) (Query.resolve target)
        found.toList) :
    Yields program evaluator state (Query.symbolOf id .none)
      (some ((found.map (·.withTag (.aliased id))).getD (unfollowedAlias id))) := by
  have isUnmarked : ¬(state.reading program.tree id .none).guard.isResolving id = true := by
    rw [Bool.not_eq_true]
    exact isNew
  apply stands.yields_symbolOf isEntry isAlias
  refine .bind (.whileResolving isUnmarked (.bind (.ofReads .get) (.withFrame ?_ resolves))) ?_
  · exact stands.isRunning
  · cases found <;> exact .pure _

end

/-! ## Names of aliases -/

theorem Stands.yields_named (stands : aliases.Stands state)
    (isFound : aliases.find? name = some id) (isInert : symbol.IsInert program)
    (yields : Yields program evaluator state (Query.symbolOf id .none) (some symbol)) :
    Yields program evaluator state (searchName name) [symbol] := by
  have isVisible := aliases.plain.yields_visible evaluator stands.isRunning stands.isScope name .all
  rw [aliases.declared_eq, isFound] at isVisible
  exact yields_searchName_of_visible stands.isRunning isVisible isInert yields

theorem Stands.yields_unknown
    (stands : aliases.Stands state) (isUnknown : aliases.find? name = none)
    (meansNothing : program.namesakes name = []) :
    Yields program evaluator state (searchName name) [] := by
  have isVisible := aliases.plain.yields_visible evaluator stands.isRunning stands.isScope name .all
  rw [aliases.declared_eq, isUnknown] at isVisible
  have searches :
      Yields program evaluator state (Lookup.candidates name) (program.namesakes name) :=
    Lookup.yields_namesakes isVisible
  rw [meansNothing] at searches
  exact yields_searchName stands.isRunning searches (fun _ isNone => by cases isNone)

/-- The symbol of an alias: what the alias yields, which is its unfolding. -/
structure Meets (aliases : AliasModule program) (evaluator : Evaluator) (state : State)
    (id : NodeId) (symbol : Symbol) : Prop where
  isUnfolding :
    aliases.unfolding state.guard.resolving (program.tree.nameOf id) = some symbol
  isInert : symbol.IsInert program
  yields : Yields program evaluator state (Query.symbolOf id .none) (some symbol)

theorem Stands.yields_name (stands : aliases.Stands state) (isBusy : state.guard.isIdle = false)
    (isMember : id ∈ aliases.module.children)
    (isTarget : program.tree.aliasTarget? id = some target) (isName : name ∈ target.names)
    (meet :
      ∀ other, program.tree.Follows aliases.module.children id other →
        ∃ symbol, aliases.Meets evaluator state other symbol) :
    Yields program evaluator state (ofName name)
        (aliases.unfolding state.guard.resolving name).toList ∧
      ∀ symbol, aliases.unfolding state.guard.resolving name = some symbol →
        symbol.IsInert program := by
  cases isFound : aliases.find? name with
  | none =>
    have meansNothing := aliases.meanNothing id isMember target isTarget name isName
      (aliases.find?_eq_none_iff.mp isFound)
    rw [unfolding_of_none isFound]
    refine ⟨yields_ofName_of_busy stands.isRunning isBusy
      (stands.yields_unknown isFound meansNothing), fun symbol isSymbol => ?_⟩
    cases isSymbol
  | some other =>
    obtain ⟨otherIsMember, rfl⟩ := aliases.mem_of_find? isFound
    obtain ⟨symbol, meets⟩ := meet other ⟨isMember, otherIsMember, target, isTarget, isName⟩
    rw [meets.isUnfolding]
    refine ⟨yields_ofName_of_busy stands.isRunning isBusy
      (stands.yields_named isFound meets.isInert meets.yields), ?_⟩
    rintro found ⟨⟩
    exact meets.isInert

/-- An alias that is not being followed meets its unfolding if the aliases in its target do. -/
theorem Stands.meets_of_following
    (stands : aliases.Stands state) (isMember : id ∈ aliases.module.children)
    (isNew : state.guard.isResolving id = false)
    (meet :
      ∀ other, program.tree.Follows aliases.module.children id other →
        ∃ symbol, aliases.Meets evaluator (state.following program.tree id) other symbol) :
    ∃ symbol, aliases.Meets evaluator state id symbol := by
  obtain ⟨entry, target, isEntry, isAlias, isSimple⟩ := aliases.areAliases id isMember
  have isTarget := isAlias.aliasTarget?_eq isEntry
  have standsInside := stands.following isEntry isAlias isNew
  have isPath : (state.following program.tree id).guard.resolving = id :: state.guard.resolving :=
    Guard.resolving_mark isNew
  have isBusy : (state.following program.tree id).guard.isIdle = false := by
    simp [Guard.isIdle, isPath]
  have names (name : String) (isName : name ∈ target.names) :=
    standsInside.yields_name isBusy isMember isTarget isName meet
  have resolves := isSimple.yields_resolve standsInside.isRunning
    fun name isName => (names name isName).1
  refine ⟨_, ?_, ?_, stands.yields_followed isEntry isAlias isNew resolves⟩
  · rw [unfolding_of_some (aliases.find?_nameOf isMember),
      if_neg (Guard.notMem_resolving isNew), isTarget, Option.bind_some, isPath]
  · cases isUnfolded :
        target.unfoldOver (aliases.unfolding (state.following program.tree id).guard.resolving) with
    | some symbol =>
      have isInert := isSimple.isInert (fun name isName => (names name isName).2) isUnfolded
      exact isInert.withTag (.aliased id)
    | none =>
      obtain ⟨name, isName, isNothing⟩ := isSimple.exists_name isUnfolded
      have isUnknown := aliases.find?_eq_none_iff.mp (find?_of_unfolding isNothing)
      have isFree := aliases.areFree id isMember entry isEntry
        (.inr ⟨target, isTarget, name, isName, isUnknown⟩)
      exact isInert_unfollowedAlias isEntry isAlias isFree

/--
Every alias yields its unfolding.

An alias that is being followed leads to the one that is met now, and so to itself if
it is met again. Following one more alias leaves fewer of them to follow.
-/
theorem Stands.exists_symbol (evaluator : Evaluator) (stands : aliases.Stands state)
    (isMember : id ∈ aliases.module.children)
    (leads :
      ∀ place ∈ state.guard.resolving,
        Relation.TransGen (program.tree.Follows aliases.module.children) place id) :
    ∃ symbol, aliases.Meets evaluator state id symbol := by
  induction isCount : remaining aliases.module.children state.guard.resolving
    using Nat.strongRecOn generalizing state id with
  | ind count ih =>
    obtain ⟨entry, target, isEntry, isAlias, -⟩ := aliases.areAliases id isMember
    cases isMarked : state.guard.isResolving id with
    | true =>
      have isPlace : id ∈ state.guard.resolving := contains_iff_mem.mp isMarked
      have isFree := aliases.areFree id isMember entry isEntry (.inl (leads id isPlace))
      refine ⟨_, ?_, isInert_unfollowedAlias isEntry isAlias isFree,
        stands.yields_unfollowed isEntry isAlias isMarked⟩
      rw [unfolding_of_some (aliases.find?_nameOf isMember), if_pos isPlace]
    | false =>
      have isNewPlace := Guard.notMem_resolving isMarked
      have isPath :
          (state.following program.tree id).guard.resolving = id :: state.guard.resolving :=
        Guard.resolving_mark isMarked
      apply stands.meets_of_following isMember isMarked
      intro other follows
      have standsInside := stands.following isEntry isAlias isMarked
      refine ih _ ?_ standsInside follows.2.1 ?_ rfl
      · rw [isPath, ← isCount]
        exact remaining_cons_lt isMember isNewPlace
      · rw [isPath]
        intro place isPlace
        rcases mem_cons.mp isPlace with rfl | isBefore
        · exact .single follows
        · exact (leads place isBefore).tail follows

theorem stands_start (aliases : AliasModule program) (statement : Option StatementId) :
    aliases.Stands (.start aliases.moduleId statement) where
  isRunning := rfl
  isScope := rfl
  isPositive _ isEntered := by cases isEntered
  isShallow _ := Nat.le_refl 0
  followsAliases := rfl
  hasNoDefaults := rfl

end AliasModule

/--
In a fresh query the name of an alias stands for one symbol, the unfolding of the
alias, and nothing is reported.
-/
theorem aliases_unfold_until_met_again
    {program : Program}
    (aliases : AliasModule program)
    (evaluator : Evaluator)
    (statement : Option StatementId)
    {id : NodeId}
    (isMember : id ∈ aliases.module.children) :
    ∃ symbol final,
      aliases.unfolding [] (program.tree.nameOf id) = some symbol ∧
        Engine.Settles program evaluator
            (Operation.resolveIdentifier (program.tree.nameOf id)).query
            (.start aliases.moduleId statement) [symbol] final ∧
          final.log = [] := by
  have stands := aliases.stands_start statement
  obtain ⟨symbol, meets⟩ :=
    stands.exists_symbol evaluator isMember fun place isPlace => by cases isPlace
  have searches := stands.yields_named (aliases.find?_nameOf isMember) meets.isInert meets.yields
  exact ⟨symbol, _, meets.isUnfolding, settles_ofName rfl searches rfl, rfl⟩

/-- Aliases in a cycle, one with an unknown name and one that is constrained. -/
def Draft.knotted : List Step :=
  [ .module "m",
    .member ⟨0⟩ "A" (.aliased (some (.pointer (.named "B"))) none),
    .member ⟨0⟩ "B" (.aliased (some (.modified .const (.dynamicArray (.named "C")))) none),
    .member ⟨0⟩ "C" (.aliased (some (.named "A")) none),
    .member ⟨0⟩ "D" (.aliased (some (.pointer (.named "missing"))) none),
    .member ⟨0⟩ "E" (.aliased (some (.basic .int)) none),
    .constraint ⟨5⟩ (.literal (.bool false)) ]

def Program.knotted : Program :=
  .ofTree (.ofSteps Draft.knotted)

theorem Program.knotted_meanNothing (isMember : id ∈ [⟨1⟩, ⟨2⟩, ⟨3⟩, ⟨4⟩, ⟨5⟩])
    (isTarget : Program.knotted.tree.aliasTarget? id = some target) (isName : name ∈ target.names)
    (isUnknown : name ∉ ["A", "B", "C", "D", "E"]) : Program.knotted.namesakes name = [] := by
  simp only [mem_cons, not_mem_nil, or_false] at isMember
  rcases isMember with rfl | rfl | rfl | rfl | rfl <;> cases isTarget <;>
    simp only [TypeExpr.names, mem_singleton, not_mem_nil] at isName <;> subst isName
  · simp at isUnknown
  · simp at isUnknown
  · simp at isUnknown
  · decide +kernel

theorem Program.knotted_areFree {aliases : List NodeId} (isMember : id ∈ [⟨1⟩, ⟨2⟩, ⟨3⟩, ⟨4⟩, ⟨5⟩])
    (isEntry : Program.knotted.tree.node? id = some entry)
    (isOwn :
      Relation.TransGen (Program.knotted.tree.Follows aliases) id id ∨
        Program.knotted.tree.NamesUnknown aliases id) :
    entry.constraint = none := by
  have hasNoNames {target : TypeExpr} {name : String}
      (isTarget : Program.knotted.tree.aliasTarget? ⟨5⟩ = some target) :
      name ∉ target.names := by
    cases isTarget
    exact not_mem_nil
  simp only [mem_cons, not_mem_nil, or_false] at isMember
  rcases isMember with rfl | rfl | rfl | rfl | rfl
  · cases isEntry; rfl
  · cases isEntry; rfl
  · cases isEntry; rfl
  · cases isEntry; rfl
  · rcases isOwn with leadsBack | ⟨target, isTarget, name, isName, -⟩
    · obtain ⟨other, ⟨-, -, target, isTarget, isName⟩, -⟩ :=
        Relation.TransGen.head'_iff.mp leadsBack
      exact absurd isName (hasNoNames isTarget)
    · exact absurd isName (hasNoNames isTarget)

def AliasModule.knotted : AliasModule .knotted where
  moduleId := ⟨0⟩
  module := (Program.knotted.tree.node? ⟨0⟩).get (by decide +kernel)
  isModuleEntry := (Option.some_get _).symm
  isModule := rfl
  isRoot := rfl
  isNoTemplate := rfl
  isAlone := Program.isAlone_of_all (by decide +kernel)
  areAliases := by
    intro id isMember
    change id ∈ [⟨1⟩, ⟨2⟩, ⟨3⟩, ⟨4⟩, ⟨5⟩] at isMember
    simp only [List.mem_cons, List.not_mem_nil, or_false] at isMember
    rcases isMember with rfl | rfl | rfl | rfl | rfl
    · exact ⟨_, _, rfl, ⟨⟨_, rfl⟩, rfl, rfl⟩, .pointer (.named "B")⟩
    · exact ⟨_, _, rfl, ⟨⟨_, rfl⟩, rfl, rfl⟩, .modified .const (.dynamicArray (.named "C"))⟩
    · exact ⟨_, _, rfl, ⟨⟨_, rfl⟩, rfl, rfl⟩, .named "A"⟩
    · exact ⟨_, _, rfl, ⟨⟨_, rfl⟩, rfl, rfl⟩, .pointer (.named "missing")⟩
    · exact ⟨_, _, rfl, ⟨⟨_, rfl⟩, rfl, rfl⟩, .basic .int⟩
  haveDistinctNames := by
    change ["A", "B", "C", "D", "E"].Nodup
    decide
  meanNothing _ isMember _ isTarget _ isName isUnknown :=
    Program.knotted_meanNothing isMember isTarget isName isUnknown
  areFree _ isMember _ isEntry isOwn := Program.knotted_areFree isMember isEntry isOwn

/-- The unfolding of the first alias of the knot: a pointer to constant arrays of the alias. -/
def AliasModule.unfoldedKnot : Symbol :=
  let again := (DeclaredSymbol.unfollowedAlias ⟨1⟩).withTag (.aliased ⟨3⟩)
  let array := ((Symbol.dynamicArray (some again)).withModifier .const).withTag (.aliased ⟨2⟩)
  (Symbol.pointer (some array)).withTag (.aliased ⟨1⟩)

theorem AliasModule.unfolding_knotted :
    AliasModule.knotted.unfolding [] "A" = some unfoldedKnot := by
  have isFirst : knotted.find? "A" = some ⟨1⟩ := by decide +kernel
  have isSecond : knotted.find? "B" = some ⟨2⟩ := by decide +kernel
  have isThird : knotted.find? "C" = some ⟨3⟩ := by decide +kernel
  have again : knotted.unfolding [⟨3⟩, ⟨2⟩, ⟨1⟩] "A" = some (unfollowedAlias ⟨1⟩) := by
    rw [unfolding_of_some isFirst]
    exact if_pos (by decide)
  have third : knotted.unfolding [⟨2⟩, ⟨1⟩] "C" =
      some ((unfollowedAlias ⟨1⟩).withTag (.aliased ⟨3⟩)) := by
    have isTarget : Program.knotted.tree.aliasTarget? ⟨3⟩ = some (.named "A") := rfl
    rw [unfolding_of_some isThird, if_neg (by decide), isTarget, Option.bind_some,
      TypeExpr.unfoldOver, again]
    rfl
  have second : knotted.unfolding [⟨1⟩] "B" =
      some (((Symbol.dynamicArray (some ((unfollowedAlias ⟨1⟩).withTag
        (.aliased ⟨3⟩)))).withModifier .const).withTag (.aliased ⟨2⟩)) := by
    have isTarget : Program.knotted.tree.aliasTarget? ⟨2⟩ =
        some (.modified .const (.dynamicArray (.named "C"))) := rfl
    rw [unfolding_of_some isSecond, isTarget, Option.bind_some,
      TypeExpr.unfoldOver, TypeExpr.unfoldOver, TypeExpr.unfoldOver, third]
    rfl
  have isTarget : Program.knotted.tree.aliasTarget? ⟨1⟩ = some (.pointer (.named "B")) := rfl
  rw [unfolding_of_some isFirst, isTarget, Option.bind_some,
    TypeExpr.unfoldOver, TypeExpr.unfoldOver, second]
  rfl

/-- The alias that leads back to itself stands in the middle of its own unfolding. -/
theorem knotted_alias_unfolds_once :
    ∃ final,
      Engine.Settles .knotted .standard (Operation.resolveIdentifier "A").query (.start ⟨0⟩ none)
          [AliasModule.unfoldedKnot] final ∧
        final.log = [] := by
  have isMember : (⟨1⟩ : NodeId) ∈ AliasModule.knotted.module.children := by
    decide
  obtain ⟨symbol, final, isUnfolding, settles, isQuiet⟩ :=
    aliases_unfold_until_met_again .knotted .standard none isMember
  cases isUnfolding.symm.trans AliasModule.unfolding_knotted
  exact ⟨final, settles, isQuiet⟩

/-- An alias that leads back to itself is lost if its constraint does not hold. -/
theorem constrained_cyclic_alias_is_lost :
    ∃ final,
      Engine.Settles
          (.ofTree (.ofSteps
            [ .module "m",
              .member ⟨0⟩ "A" (.aliased (some (.named "A")) none),
              .constraint ⟨1⟩ (.literal (.bool false)) ]))
          .standard (Operation.resolveIdentifier "A").query (.start ⟨0⟩ none) [] final ∧
        final.log.length = 1 := by
  have run :
      (Engine.run
          (.ofTree (.ofSteps
            [ .module "m", .member ⟨0⟩ "A" (.aliased (some (.named "A")) none),
              .constraint ⟨1⟩ (.literal (.bool false)) ]))
          .standard 9 (Operation.resolveIdentifier "A").query (.start ⟨0⟩ none)).toOption.any
        (fun outcome => outcome.1.isEmpty && outcome.2.log.length == 1) =
        true := by
    decide +kernel
  obtain ⟨⟨found, final⟩, returned, passes⟩ := exists_of_any run
  simp only [Bool.and_eq_true, List.isEmpty_iff, beq_iff_eq] at passes
  obtain ⟨rfl, isReported⟩ := passes
  exact ⟨final, .ofRun (Operation.query_orderly _ _) returned, isReported⟩

end DScope
