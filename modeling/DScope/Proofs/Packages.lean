import DScope.Proofs.Importing
import Mathlib.Data.List.Nodup

namespace DScope

/-!
# Modules and packages

The dots in the names of its modules give a program its packages. A module whose
name no other one has is found under it, and all but the last segments of the name
lead to packages.
-/

open List

variable {first rest : List String}

/-! ## Dotted paths -/

namespace Path

theorem splitDots_eq_splitOn (characters : List Char) :
    splitDots characters = characters.splitOn '.' := by
  induction characters with
  | nil => rfl
  | cons character rest ih =>
    rw [splitDots, splitOn_cons_eq_if_modifyHead, ih]
    simp only [beq_iff_eq]
    split
    · rfl
    · split
      next isNone => exact absurd isNone (splitOn_ne_nil _ rest)
      next isSplit => rw [isSplit, modifyHead_cons]

theorem not_mem_of_mem_splitDots {characters run : List Char} (isRun : run ∈ splitDots characters) :
    '.' ∉ run := by
  induction characters generalizing run with
  | nil => simp_all [splitDots]
  | cons character rest ih =>
    rw [splitDots] at isRun
    split at isRun
    · rcases mem_cons.mp isRun with rfl | isLater
      · exact not_mem_nil
      · exact ih isLater
    next isOther =>
      split at isRun
      next => simp [mem_singleton.mp isRun, Ne.symm isOther]
      next first others isSplit =>
        rw [isSplit] at ih
        rcases mem_cons.mp isRun with rfl | isLater
        · have hasNoDot := ih mem_cons_self
          simp [hasNoDot, Ne.symm isOther]
        · exact ih (mem_cons_of_mem first isLater)

theorem segments_ne_nil (path : String) : segments path ≠ [] := by
  simp [segments, splitDots_eq_splitOn]

theorem ofSegments_segments (path : String) : ofSegments (segments path) = path := by
  rw [← String.toList_inj, ofSegments, String.toList_intercalate, segments, map_map]
  have isSame : String.toList ∘ String.ofList = id := by
    funext characters
    exact String.toList_ofList
  rw [isSame, map_id, splitDots_eq_splitOn]
  exact intercalate_splitOn '.'

theorem segments_ofSegments
    {path : String} (areSome : first ≠ []) (areFirst : first <+: segments path) :
    segments (ofSegments first) = first := by
  have haveNoDots : ∀ run ∈ first.map String.toList, '.' ∉ run := by
    intro run isRun
    obtain ⟨segment, isSegment, rfl⟩ := mem_map.mp isRun
    obtain ⟨characters, isCharacters, rfl⟩ := mem_map.mp (areFirst.subset isSegment)
    rw [String.toList_ofList]
    exact not_mem_of_mem_splitDots isCharacters
  rw [segments, ofSegments, String.toList_intercalate]
  have isSplit := splitOn_intercalate '.' haveNoDots (by simpa using areSome)
  have isDot : ".".toList = ['.'] := rfl
  rw [isDot, splitDots_eq_splitOn, isSplit, map_map]
  have isSame : String.ofList ∘ String.toList = id := by
    funext segment
    exact String.ofList_toList
  rw [isSame, map_id]

theorem ofSegments_append (areSome : first ≠ []) (segment : String) :
    ofSegments (first ++ [segment]) = ofSegments first ++ "." ++ segment := by
  rw [← String.toList_inj]
  simp only [ofSegments, String.toList_intercalate, String.toList_append, map_append,
    map_cons]
  induction first with
  | nil => exact absurd rfl areSome
  | cons head rest ih =>
    cases rest with
    | nil => simp
    | cons next rest =>
      have isLater := ih (by simp)
      rw [map_cons, cons_append] at isLater
      simp only [map_cons, cons_append, intercalate_cons_cons, isLater, append_assoc]

end Path

/-! ## The hierarchy of packages -/

namespace Package

/-- The package that a module further down is put into, a new one if it is missing. -/
def branch (package : Package) (head : String) : Package :=
  (package.subpackage? head).getD { name := head, path := Path.child package.path head }

theorem insert_cons (areSome : rest ≠ []) (module : NodeId) (head : String) (package : Package) :
    package.insert module (head :: rest) =
      { package with
        packages := Table.put head ((package.branch head).insert module rest) package.packages } := by
  cases rest with
  | nil => exact absurd rfl areSome
  | cons next rest => rfl

theorem subpackage?_insert
    (areMore : rest ≠ []) (module : NodeId) (head other : String) (package : Package) :
    (package.insert module (head :: rest)).subpackage? other =
      if head = other then some ((package.branch head).insert module rest)
      else package.subpackage? other := by
  rw [insert_cons areMore, subpackage?]
  split
  next isSame =>
    rw [isSame, Table.find?_put]
  next isOther => exact Table.find?_put_of_ne isOther

/--
A module put under a path is found there, and all others stay where they are; a path
leads to a package if it did before, or if the module lies further down.
-/
theorem descend?_insert
    (module : NodeId) (path first : List String) (leaf : String) (package : Package) :
    ((package.insert module path).descend? first).bind (·.module? leaf) =
        (if path = first ++ [leaf] then some module
          else (package.descend? first).bind (·.module? leaf)) ∧
      (((package.insert module path).descend? first).isSome = true ↔
        (package.descend? first).isSome = true ∨ ∃ rest, rest ≠ [] ∧ path = first ++ rest) := by
  induction first generalizing package path with
  | nil =>
    refine ⟨?_, by simp [descend?]⟩
    rcases path with _ | ⟨other, _ | ⟨next, rest⟩⟩
    · rfl
    · by_cases isSame : other = leaf
      · subst isSame
        simpa [descend?, module?, insert] using Table.find?_put
      · simpa [descend?, module?, insert, isSame] using Table.find?_put_of_ne isSame
    · simp [descend?, insert, module?]
  | cons head first ih =>
    rcases path with _ | ⟨other, rest⟩
    · simp [insert]
    by_cases areMore : rest = []
    · simp [areMore, descend?, insert, subpackage?]
    rw [descend?, subpackage?_insert areMore]
    by_cases isSame : other = head
    · subst isSame
      rw [if_pos rfl, Option.bind_some, (ih rest _).1, (ih rest _).2, descend?, branch]
      cases package.subpackage? other with
      | none => cases first <;> simp [descend?, module?, subpackage?, Table.find?, areMore]
      | some below => simp
    · simp [isSame, descend?]

end Package

namespace Tree

/-- The roots of the modules. -/
def rootModules (tree : Tree) : List NodeId :=
  tree.nodeIds.filter fun id => (tree.node? id).any Program.isModuleRoot

theorem mem_rootModules
    {tree : Tree} {id : NodeId} {entry : Node} (isEntry : tree.node? id = some entry)
    (isRoot : Program.isModuleRoot entry = true) : id ∈ tree.rootModules := by
  refine mem_filter.mpr ⟨mem_nodeIds_of_holds (holds_of_node? isEntry), ?_⟩
  rw [isEntry]
  exact isRoot

end Tree

namespace Program

theorem isModuleRoot_iff {node : Node} :
    isModuleRoot node = true ↔ node.parent = none ∧ node.kind = .module := by
  unfold isModuleRoot
  split
  next isParent isKind => simp [isParent, isKind]
  next isOther => simpa using isOther

variable {tree : Tree} {program : Program} {id : NodeId} {entry : Node}

/--
What comes about when a declaration is entered, and stays when others are, holds
once all declarations are entered.
-/
theorem foldl_enter_induction
    (property : Program → Prop) {ids : List NodeId} (isAmong : id ∈ ids ∨ property program)
    (isTree : program.tree = tree)
    (comes : ∀ program : Program, program.tree = tree → property (program.enter id))
    (stays :
      ∀ program other, Program.tree program = tree → property program →
        property (program.enter other)) :
    property (ids.foldl enter program) := by
  induction ids generalizing program with
  | nil => simpa using isAmong
  | cons first rest ih =>
    apply ih _ ((tree_enter program first).trans isTree)
    rcases isAmong with isAmong | holds
    · rcases mem_cons.mp isAmong with rfl | isLater
      · exact .inr (comes program isTree)
      · exact .inl isLater
    · exact .inr (stays program first isTree holds)

theorem enter_of_isModuleRoot
    (isEntry : program.tree.node? id = some entry) (isRoot : isModuleRoot entry = true) :
    program.enter id =
      { program with
        modules := Table.put entry.name id program.modules
        root := program.root.insert id (Path.segments entry.name) } := by
  rw [enter, isEntry]
  exact if_pos isRoot

theorem module?_ofTree (haveDistinctNames : (tree.rootModules.map tree.nameOf).Nodup)
    (isEntry : tree.node? id = some entry) (isRoot : isModuleRoot entry = true) :
    (ofTree tree).module? entry.name = some id := by
  refine foldl_enter_induction (fun program => program.module? entry.name = some id)
    (.inl (Tree.mem_nodeIds_of_holds (Tree.holds_of_node? isEntry))) rfl ?_ ?_
  · rintro program rfl
    rw [enter_of_isModuleRoot isEntry isRoot]
    exact Table.find?_put
  · rintro program other rfl isModule
    rw [enter]
    split
    next node isNode =>
      split
      next isAlsoRoot =>
        by_cases isSame : node.name = entry.name
        · have isSameName : program.tree.nameOf other = program.tree.nameOf id := by
            simp [Tree.nameOf, isNode, isEntry, isSame]
          have isId :=
            inj_on_of_nodup_map haveDistinctNames
              (Tree.mem_rootModules isNode isAlsoRoot) (Tree.mem_rootModules isEntry isRoot)
              isSameName
          rw [isId, isSame]
          exact Table.find?_put
        · exact (Table.find?_put_of_ne isSame).trans isModule
      next => exact isModule
    next => exact isModule

theorem isSome_descend?_foldl_enter (ids : List NodeId) (first : List String) (program : Program) :
    ((ids.foldl enter program).root.descend? first).isSome = true ↔
      (program.root.descend? first).isSome = true ∨
        ∃ id ∈ ids.filter fun id => (program.tree.node? id).any isModuleRoot,
          ∃ rest, rest ≠ [] ∧ Path.segments (program.tree.nameOf id) = first ++ rest := by
  induction ids generalizing program with
  | nil => simp
  | cons id rest ih =>
    rw [foldl_cons, ih, tree_enter, enter]
    split
    next entry isEntry =>
      split
      next isRoot =>
        rw [(Package.descend?_insert _ _ _ "" _).2, filter_cons_of_pos (by simpa [isEntry])]
        simp only [mem_cons, exists_eq_or_imp, or_assoc, Tree.nameOf, isEntry]
        rfl
      next isOther => rw [filter_cons_of_neg (by simp [isEntry, isOther])]
    next isNone => rw [filter_cons_of_neg (by simp [isNone])]

theorem isSome_package?_ofTree (isEntry : tree.node? id = some entry)
    (isRoot : isModuleRoot entry = true) (areSome : first ≠ []) (areMore : rest ≠ [])
    (areSegments : Path.segments entry.name = first ++ rest) :
    ((ofTree tree).package? (Path.ofSegments first)).isSome = true := by
  have isReached : ((ofTree tree).root.descend? first).isSome = true := by
    rw [ofTree, isSome_descend?_foldl_enter]
    refine .inr ⟨id, Tree.mem_rootModules isEntry isRoot, rest, areMore, ?_⟩
    rw [← areSegments, Tree.nameOf, isEntry]
    rfl
  have areFirst : first <+: Path.segments entry.name := ⟨rest, areSegments.symm⟩
  rw [package?, Path.segments_ofSegments areSome areFirst]
  split
  · rfl
  · exact isReached

end Program

end DScope
