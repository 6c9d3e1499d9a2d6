import DScope.Proofs.Drafting
import DScope.Proofs.ModuleScope
import DScope.Proofs.Packages
import Mathlib.Data.List.Induction

namespace DScope

/-!
# Qualified names of modules

A dotted name is resolved from its first segment on. As long as the segments stand
for packages, the next one stands for what lies further down. A module on the way
ends this: below it there are only its declarations, also where a package has its
name.
-/

open List Query MemberAccess Path
open Engine (Settles Yields)

variable {program : Program} {evaluator : Evaluator} {state final : State} {path name : String}
  {inner : TypeExpr} {first rest : List String} {scope : NodeId} {entry : Node}

namespace Program

theorem inPackage?_toList (program : Program) (path name : String) :
    (inPackage? program path name).toList = program.namesakes (path ++ "." ++ name) := by
  unfold inPackage? namesakes
  dsimp only
  cases program.module? (path ++ "." ++ name) with
  | some root => rfl
  | none => cases program.package? (path ++ "." ++ name) <;> rfl

end Program

/-! ## One segment further -/

/-- What a module has under a name, as seen from another one. -/
def Program.offered (program : Program) (home module : NodeId) (name : String) :
    List Declaration :=
  (Scan.module program (program.tree.nodes.size + 1)
    { name := some name, filter := .all, home } module).found

section

variable (isRunning : state.isCancelled = false)
include isRunning

theorem MemberAccess.yields_symbols_of_package (isFree : program.IsFree (path ++ "." ++ name))
    (isFound : program.namesakes (path ++ "." ++ name) ≠ []) :
    Yields program evaluator state (symbols (.package path) name none true)
      (program.namesakes (path ++ "." ++ name)) := by
  have declares :
      Yields program evaluator state
        (declared (.package path) (.package path) name)
        (program.namesakes (path ++ "." ++ name)) := by
    apply Yields.bind (.ofReads .wholeProgram)
    rw [Program.inPackage?_toList]
    exact .pure _
  have offers :
      Yields program evaluator state
        (candidatesOn name true (.package path))
        (program.namesakes (path ++ "." ++ name)) := by
    apply Yields.bind declares
    rw [if_pos (by simpa using isFound)]
    exact .pure _
  exact settles_symbols isRunning rfl offers (Program.yields_instantiate_namesakes isRunning isFree)

/-- A name under which a module has nothing is not looked for elsewhere. -/
theorem MemberAccess.yields_symbols_of_module {module : NodeId}
    (isScope : program.tree.holds state.stack.top.scope = true)
    (isModule : program.tree.holds module = true)
    (isMissing : program.offered (program.tree.rootOf state.stack.top.scope) module name = [])
    (isNoProperty : Property.find? none name = none) :
    Yields program evaluator state (symbols (.module module) name none true) [] := by
  obtain ⟨entry, isEntry⟩ := Option.isSome_iff_exists.mp isScope
  have finds :
      Yields program evaluator state (Lookup.members (.module module) name .all)
        (program.offered (program.tree.rootOf state.stack.top.scope) module name) :=
    .ofReads
      (.bind (Lookup.reads_start isEntry) (.bind (Lookup.reads_scanModule isModule _) (.pure _)))
  rw [isMissing] at finds
  have declares :
      Yields program evaluator state (declared (.module module) (.module module) name) [] :=
    .bind finds (.bind (.pure []) (.pure []))
  have hasNoProperty :
      Yields program evaluator state (Property.member? (.module module) name) none := by
    have isOwner : Property.ownerType? program.tree (.module module) = some (.module module) := rfl
    have hasNoCategory : Property.categoryOf program.tree (.module module) = none := rfl
    apply Yields.bind (.ofReads .tree)
    simp only [isOwner, hasNoCategory, isNoProperty]
    exact .pure none
  have offers : Yields program evaluator state (candidatesOn name true (.module module)) [] := by
    apply Yields.bind declares
    apply Yields.bind hasNoProperty
    exact .bind (.pure []) (.pure [])
  exact settles_symbols isRunning rfl offers
    (Template.yields_instantiate_of_isInert isRunning (by simp))

theorem Query.reportedMissing_of_isIdle (isIdle : state.guard.isIdle = true) (subject : String) :
    reportedMissing state subject = state.report (.nothingFound subject none none) := by
  rw [reportedMissing, isRunning, isIdle]
  rfl

theorem Resolution.settles_member {owners : List Symbol} (gives : Symbol → List Symbol)
    (areSingle : owners.flatMap Symbol.candidates = owners)
    (settles : Settles program evaluator (resolve inner) state owners final)
    (yields :
      ∀ owner ∈ owners,
        Yields program evaluator final (symbols owner name none true) (gives owner)) :
    Settles program evaluator (resolve (.member inner name)) state
      (owners.flatMap gives)
      (if (owners.flatMap gives).isEmpty then
        reportedMissing final (TypeExpr.member inner name).text
      else
        final) := by
  apply Settles.ask
  apply Settles.bind (Yields.ofReads .isCancelled)
  rw [isRunning]
  apply Settles.bind settles
  rw [areSingle]
  apply Settles.bind (Yields.mapM yields)
  rw [← flatMap_def]
  have reports (text : String) :
      Settles program evaluator (reportMissing text) final () (reportedMissing final text) :=
    ⟨0, fun _ _ => by rw [Engine.run_apply, reportMissing_apply]⟩
  dsimp only
  cases (owners.flatMap gives).isEmpty with
  | true => exact .bind (reports _) (Yields.pure _)
  | false => exact Yields.pure _

theorem Resolution.settles_member_singleton {owner : Symbol} {found : List Symbol}
    (isSingle : owner.candidates = [owner])
    (settles : Settles program evaluator (resolve inner) state [owner] final)
    (yields : Yields program evaluator final (symbols owner name none true) found) :
    Settles program evaluator (resolve (.member inner name)) state found
      (if found.isEmpty then
        reportedMissing final (TypeExpr.member inner name).text
      else
        final) := by
  have goesOn :=
    settles_member isRunning (fun _ => found) (by simp [isSingle]) settles fun other isOther => by
      rw [mem_singleton.mp isOther]
      exact yields
  simpa using goesOn

theorem Resolution.settles_chain_of_nothing
    (settles : Settles program evaluator (resolve inner) state [] final)
    (stillRunning : final.isCancelled = false) (isIdle : final.guard.isIdle = true)
    (rest : List String) :
    ∃ later,
      Settles program evaluator (resolve (rest.foldl .member inner)) state [] later ∧
        later.log.length = final.log.length + rest.length := by
  induction rest generalizing inner final with
  | nil => exact ⟨final, settles, rfl⟩
  | cons segment rest ih =>
    have goesOn :
        Settles program evaluator (resolve (.member inner segment)) state []
          (reportedMissing final (TypeExpr.member inner segment).text) :=
      settles_member isRunning (fun _ => []) rfl settles (by simp)
    rw [reportedMissing_of_isIdle stillRunning isIdle] at goesOn
    obtain ⟨later, settlesLater, isLength⟩ := ih goesOn stillRunning isIdle
    refine ⟨later, settlesLater, ?_⟩
    rw [isLength, State.report, length_append, length_singleton, length_cons]
    omega

end

theorem State.exists_remember_eq (state : State) (name : String) (symbols : List Symbol) :
    ∃ memo, state.remember name symbols = { state with memo } := by
  unfold remember
  split
  · exact ⟨_, rfl⟩
  · exact ⟨state.memo, rfl⟩

/-! ## All the way -/

/-- All segments but the last stand for packages, and the last one stands for something. -/
structure Program.Leads (program : Program) (path : List String) : Prop where
  isPackage :
    ∀ first rest, path = first ++ rest → first ≠ [] → rest ≠ [] →
      program.namesakes (Path.ofSegments first) = [.package (Path.ofSegments first)]
  isFree : program.IsFree (Path.ofSegments path)
  isFound : program.namesakes (Path.ofSegments path) ≠ []

namespace Program

theorem isFree_of_namesakes {path : String} (isPackage : program.namesakes name = [.package path]) :
    program.IsFree name := by
  intro root isModule
  rw [namesakes, isModule] at isPackage
  cases isPackage

theorem Leads.initial (leads : program.Leads (first ++ rest)) (areSome : first ≠ []) :
    program.Leads first := by
  by_cases areMore : rest = []
  · rwa [areMore, append_nil] at leads
  · have isPackage := leads.isPackage first rest rfl areSome areMore
    refine ⟨fun earlier later isSplit areEarlier areLater => ?_, isFree_of_namesakes isPackage, ?_⟩
    · apply leads.isPackage earlier (later ++ rest) _ areEarlier (by simp [areLater])
      rw [isSplit, append_assoc]
    · simp [isPackage]

end Program

/-- A root module without declarations, imports and template parameters. -/
structure Tree.IsBlank (tree : Tree) (id : NodeId) (entry : Node) : Prop where
  isEntry : tree.node? id = some entry
  isRoot : Program.isModuleRoot entry = true
  hasNoChildren : entry.children = []
  isNoTemplate : entry.templateParameters = []

section Walk

def Tree.IsBlank.ordinary
    (isBlank : program.tree.IsBlank scope entry)
    (isNoObject : program.object? = none) :
    OrdinaryModule program where
  moduleId := scope
  module := entry
  isModuleEntry := isBlank.isEntry
  isModule := (Program.isModuleRoot_iff.mp isBlank.isRoot).2
  isRoot := (Program.isModuleRoot_iff.mp isBlank.isRoot).1
  isNoTemplate := isBlank.isNoTemplate
  importsNoObject root isObject :=
    (Option.some_ne_none root (isObject.symm.trans isNoObject)).elim
  areOrdinary _ isMember := (List.not_mem_nil (isBlank.hasNoChildren ▸ isMember)).elim
  areDistinct := isBlank.hasNoChildren ▸ List.nodup_nil

variable
  (isBlank : program.tree.IsBlank scope entry)
  (isNoObject : program.object? = none)
  (isRunning : state.isCancelled = false)
  (isScope : state.stack.top.scope = scope)

include isBlank isNoObject isRunning isScope

theorem Resolution.settles_named (isNew : state.remembered? name = none)
    (isFree : program.IsFree name) (isFound : program.namesakes name ≠ []) :
    Settles program evaluator (resolve (.named name)) state
      (program.namesakes name) (state.remember name (program.namesakes name)) := by
  have sees := (isBlank.ordinary isNoObject).yields_visible evaluator isRunning isScope name .all
  have isNothing : (isBlank.ordinary isNoObject).declared name .all = [] := by
    unfold OrdinaryModule.declared
    rw [show (isBlank.ordinary isNoObject).module.children = [] from isBlank.hasNoChildren]
    rfl
  rw [isNothing] at sees
  have searches : Yields program evaluator state (searchName name) (program.namesakes name) := by
    apply Yields.bind (Lookup.yields_namesakes sees)
    apply Yields.bind (.ofReads .options)
    split
    · exact .pure _
    · exact Program.yields_instantiate_namesakes isRunning isFree
  have settles := settles_ofName isNew searches isRunning
  rw [concluded, if_neg (by simpa using isFound)] at settles
  apply Settles.ask
  apply Settles.bind (Yields.ofReads .isCancelled)
  rw [isRunning]
  exact settles

theorem Resolution.settles_chain (evaluator : Evaluator) {first : String}
    (isNew : state.remembered? first = none) (leads : program.Leads (first :: rest)) :
    Settles program evaluator (resolve (rest.foldl .member (.named first))) state
      (program.namesakes (ofSegments (first :: rest)))
      (state.remember first (program.namesakes first)) := by
  -- The last segment is the outermost member, so segments are taken off the end.
  induction rest using reverseRecOn with
  | nil =>
    exact settles_named isBlank isNoObject isRunning isScope isNew leads.isFree leads.isFound
  | append_singleton rest segment ih =>
    rw [← cons_append] at leads ⊢
    have settles := ih (leads.initial (by simp))
    have isPackage := leads.isPackage (first :: rest) [segment] rfl (by simp) (by simp)
    have areSome : first :: rest ≠ [] := by simp
    have isFree := leads.isFree
    have isFound := leads.isFound
    rw [ofSegments_append areSome] at isFree isFound ⊢
    rw [isPackage] at settles
    obtain ⟨memo, isRemembered⟩ := state.exists_remember_eq first (program.namesakes first)
    have stillRunning : (state.remember first (program.namesakes first)).isCancelled = false := by
      rw [isRemembered]
      exact isRunning
    have goesOn :=
      settles_member_singleton isRunning rfl settles
        (yields_symbols_of_package stillRunning isFree isFound)
    rw [if_neg (by simpa using isFound)] at goesOn
    rw [foldl_append]
    exact goesOn

end Walk

theorem Resolution.settles_dotted (isBlank : program.tree.IsBlank scope entry)
    (isNoObject : program.object? = none) (evaluator : Evaluator) (statement : Option StatementId)
    (defaults : Options) (areSegments : segments path = first ++ rest) (areSome : first ≠ [])
    (leads : program.Leads first) :
    ∃ inner memo,
      TypeExpr.dotted path = rest.foldl .member inner ∧
        Settles program evaluator (resolve inner)
          { State.start scope statement with defaults }
          (program.namesakes (ofSegments first))
          { State.start scope statement with defaults, memo } := by
  obtain ⟨head, middle, rfl⟩ := exists_cons_of_ne_nil areSome
  have isNew : ({ State.start scope statement with defaults } : State).remembered? head = none := by
    simp [State.start, State.remembered?, Table.find?]
  have settles := settles_chain isBlank isNoObject rfl rfl evaluator isNew leads
  obtain ⟨memo, isRemembered⟩ :=
    State.exists_remember_eq { State.start scope statement with defaults } head
      (program.namesakes head)
  rw [isRemembered] at settles
  refine ⟨_, memo, ?_, settles⟩
  rw [TypeExpr.dotted, areSegments]
  exact foldl_append

/-! ## Names of modules -/

namespace Program

/-- None of the packages that a path goes through shares its name with a module. -/
def IsClear (program : Program) (path : List String) : Prop :=
  ∀ count < path.length, 0 < count → program.module? (Path.ofSegments (path.take count)) = none

instance (program : Program) (path : List String) : Decidable (program.IsClear path) :=
  inferInstanceAs (Decidable (∀ count < path.length, 0 < count → _))

section Reaching

variable {tree : Tree} {moduleId root : NodeId} {module parent : Node}
  (isEntry : tree.node? moduleId = some module) (isRoot : isModuleRoot module = true)

include isEntry isRoot

theorem leads_of_isClear (areSegments : segments module.name = first ++ rest)
    (isClear : (ofTree tree).IsClear first)
    (isModule : (ofTree tree).module? (ofSegments first) = some root)
    (isParent : tree.node? root = some parent) (isFree : parent.constraint = none) :
    (ofTree tree).Leads first where
  isPackage := by
    intro earlier later isSplit areEarlier areLater
    have isNoModule : (ofTree tree).module? (ofSegments earlier) = none := by
      have isNone := isClear earlier.length
      rw [isSplit, take_left, length_append] at isNone
      have isLonger := length_pos_iff.mpr areLater
      exact isNone (by omega) (length_pos_iff.mpr areEarlier)
    have areMore : later ++ rest ≠ [] := by simp [areLater]
    have areSegments : segments module.name = earlier ++ (later ++ rest) := by
      rw [areSegments, isSplit, append_assoc]
    have isPackage := isSome_package?_ofTree isEntry isRoot areEarlier areMore areSegments
    rw [namesakes, isNoModule]
    exact if_pos isPackage
  isFree := by
    intro other isOther
    rw [isModule] at isOther
    cases isOther
    rw [(ofTree_spec tree).1]
    exact ⟨parent, isParent, isFree⟩
  isFound := by simp [namesakes, isModule]

variable (isBlank : tree.IsBlank scope entry) (isNoObject : (ofTree tree).object? = none)
  (evaluator : Evaluator) (statement : Option StatementId) (defaults : Options)

include isBlank isNoObject

theorem settles_of_isClear (haveDistinctNames : (tree.rootModules.map tree.nameOf).Nodup)
    (isFree : module.constraint = none)
    (isClear : (ofTree tree).IsClear (segments module.name)) :
    ∃ final,
      Settles (ofTree tree) evaluator (Operation.resolveType (.dotted module.name)).query
          { State.start scope statement with defaults } [.module moduleId] final ∧
        final.log = [] := by
  have isModule : (ofTree tree).module? (ofSegments (segments module.name)) = some moduleId := by
    rw [ofSegments_segments]
    exact module?_ofTree haveDistinctNames isEntry isRoot
  have areSegments : segments module.name = segments module.name ++ [] := by simp
  have leads := leads_of_isClear isEntry isRoot areSegments isClear isModule isEntry isFree
  rw [← (ofTree_spec tree).1] at isBlank
  obtain ⟨inner, memo, isDotted, settles⟩ :=
    Resolution.settles_dotted isBlank isNoObject evaluator statement defaults areSegments
      (segments_ne_nil module.name) leads
  rw [namesakes, isModule] at settles
  refine ⟨{ State.start scope statement with defaults, memo }, ?_, rfl⟩
  rw [isDotted]
  exact settles

/-- A name that goes on below a module which has nothing there stands for nothing. -/
theorem settles_below_module
    {next : String} (areSegments : segments module.name = first ++ next :: rest)
    (areSome : first ≠ []) (isClear : (ofTree tree).IsClear first)
    (isModule : (ofTree tree).module? (ofSegments first) = some root)
    (isParent : tree.node? root = some parent) (isFree : parent.constraint = none)
    (isMissing : (ofTree tree).offered scope root next = [])
    (isNoProperty : Property.find? none next = none) :
    ∃ final,
      Settles (ofTree tree) evaluator (Operation.resolveType (.dotted module.name)).query
          { State.start scope statement with defaults } [] final ∧
        final.log.length = rest.length + 1 := by
  have leads := leads_of_isClear isEntry isRoot areSegments isClear isModule isParent isFree
  rw [← (ofTree_spec tree).1] at isBlank isParent
  obtain ⟨inner, memo, isDotted, settles⟩ :=
    Resolution.settles_dotted isBlank isNoObject evaluator statement defaults areSegments
      areSome leads
  rw [namesakes, isModule] at settles
  have isHome : (ofTree tree).tree.rootOf scope = scope := by
    have isLineage : (ofTree tree).tree.lineage scope = [scope] :=
      (isBlank.ordinary isNoObject).lineage_eq
    rw [Tree.rootOf, isLineage]
    rfl
  have hasNothing :
      Yields (ofTree tree) evaluator { State.start scope statement with defaults, memo }
        (symbols (.module root) next none true) [] := by
    refine yields_symbols_of_module rfl (Tree.holds_of_node? isBlank.isEntry)
      (Tree.holds_of_node? isParent) ?_ isNoProperty
    rw [← isMissing]
    exact congrArg ((ofTree tree).offered · root next) isHome
  have goesOn := Resolution.settles_member_singleton rfl rfl settles hasNothing
  obtain ⟨later, settlesLater, isLength⟩ :=
    Resolution.settles_chain_of_nothing rfl goesOn rfl rfl rest
  refine ⟨later, ?_, ?_⟩
  · rw [isDotted]
    exact settlesLater
  · rw [isLength]
    exact Nat.add_comm 1 rest.length

end Reaching

end Program

/--
A module is reached by its name if no package on the way shares its name with
another module. Otherwise the way ends at the first such module: where this one has
nothing under the next segment, nothing is found, which is reported for this segment
and each one after it.
-/
theorem module_is_reached_through_packages
    {tree : Tree}
    {scope moduleId : NodeId}
    {entry module : Node}
    (evaluator : Evaluator)
    (statement : Option StatementId)
    (defaults : Options)
    (haveDistinctNames : (tree.rootModules.map tree.nameOf).Nodup)
    (isBlank : tree.IsBlank scope entry)
    (isNoObject : (Program.ofTree tree).object? = none)
    (isEntry : tree.node? moduleId = some module)
    (isRoot : Program.isModuleRoot module = true) :
    (module.constraint = none →
        (Program.ofTree tree).IsClear (Path.segments module.name) →
        ∃ final,
          Engine.Settles (.ofTree tree) evaluator
              (Operation.resolveType (.dotted module.name)).query
              { State.start scope statement with defaults } [.module moduleId] final ∧
            final.log = []) ∧
      ∀ first next rest parentId parent,
        Path.segments module.name = first ++ next :: rest → first ≠ [] →
          (Program.ofTree tree).IsClear first →
          (Program.ofTree tree).module? (Path.ofSegments first) = some parentId →
            tree.node? parentId = some parent → parent.constraint = none →
            (Program.ofTree tree).offered scope parentId next = [] →
              Property.find? none next = none →
              ∃ final,
                Engine.Settles (.ofTree tree) evaluator
                    (Operation.resolveType (.dotted module.name)).query
                    { State.start scope statement with defaults } [] final ∧
                  final.log.length = rest.length + 1 := by
  constructor
  · intro isFree isClear
    exact Program.settles_of_isClear isEntry isRoot isBlank isNoObject evaluator statement
      defaults haveDistinctNames isFree isClear
  · intro first next rest parentId parent areSegments areSome isClear isModule isParent isFree
      isMissing isNoProperty
    exact Program.settles_below_module isEntry isRoot isBlank isNoObject evaluator statement
      defaults areSegments areSome isClear isModule isParent isFree isMissing isNoProperty

/-- Modules in packages, and one below a module. -/
def Draft.nested : List Step :=
  [ .module "std.core.text",
    .module "std.core",
    .module "io.net.http",
    .module "io.net.tcp",
    .module "m" ]

/-- `io.net.http` is reached, and `std.core.text` is not, as `std.core` is a module. -/
theorem nested_modules_are_reached_through_packages :
    (∃ final,
      Engine.Settles (.ofTree (.ofSteps Draft.nested)) .standard
          (Operation.resolveType (.dotted "io.net.http")).query (.start ⟨4⟩ none)
          [.module ⟨2⟩] final ∧
        final.log = []) ∧
      ∃ final,
        Engine.Settles (.ofTree (.ofSteps Draft.nested)) .standard
            (Operation.resolveType (.dotted "std.core.text")).query (.start ⟨4⟩ none)
            [] final ∧
          final.log.length = 1 := by
  have haveDistinctNames :
      ((Tree.ofSteps Draft.nested).rootModules.map (Tree.ofSteps Draft.nested).nameOf).Nodup := by
    decide +kernel
  have isBlank : (Tree.ofSteps Draft.nested).IsBlank ⟨4⟩ _ := ⟨rfl, rfl, rfl, rfl⟩
  have isNoObject : (Program.ofTree (.ofSteps Draft.nested)).object? = none := by decide +kernel
  have isHttp : (Tree.ofSteps Draft.nested).node? ⟨2⟩ = some _ := rfl
  have isText : (Tree.ofSteps Draft.nested).node? ⟨0⟩ = some _ := rfl
  have isCore : (Tree.ofSteps Draft.nested).node? ⟨1⟩ = some _ := rfl
  constructor
  · exact
      (module_is_reached_through_packages .standard none {} haveDistinctNames isBlank isNoObject
        isHttp rfl).1 rfl (by decide +kernel)
  · exact
      (module_is_reached_through_packages .standard none {} haveDistinctNames isBlank isNoObject
        isText rfl).2 ["std", "core"] "text" [] ⟨1⟩ _ (by decide +kernel) (by decide)
        (by decide +kernel) (by decide +kernel) isCore rfl
        (isEmpty_iff.mp (by decide +kernel))
        (by decide +kernel)

/-- A module with a name of its own that a fresh query in an empty module does not find. -/
structure Tree.IsLost (tree : Tree) (scope moduleId : NodeId) : Prop where
  haveDistinctNames : (tree.rootModules.map tree.nameOf).Nodup
  haveProperNames : ∀ root ∈ tree.rootModules, "" ∉ Path.segments (tree.nameOf root)
  isBlank : ∃ entry, tree.IsBlank scope entry
  isNoObject : (Program.ofTree tree).object? = none
  isModule : moduleId ∈ tree.rootModules
  isMissing :
    ∃ final,
      Settles (.ofTree tree) .standard
        (Operation.resolveType (.dotted (tree.nameOf moduleId))).query (.start scope none) [] final

/-- A module below another one is not found, nor is one whose constraint does not hold. -/
theorem modules_get_lost :
    (Tree.ofSteps [.module "a", .module "a.b", .module "m"]).IsLost ⟨2⟩ ⟨1⟩ ∧
      (Tree.ofSteps
        [.module "a", .constraint ⟨0⟩ (.literal (.bool false)), .module "m"]).IsLost ⟨1⟩ ⟨0⟩ := by
  refine
    ⟨⟨?_, ?_, ⟨_, rfl, rfl, rfl, rfl⟩, ?_, ?_, Operation.exists_final 9 _ isEmpty_iff.mp ?_⟩,
      ⟨?_, ?_, ⟨_, rfl, rfl, rfl, rfl⟩, ?_, ?_, Operation.exists_final 9 _ isEmpty_iff.mp ?_⟩⟩ <;>
    decide +kernel

end DScope
