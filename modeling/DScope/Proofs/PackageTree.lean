import DScope.Proofs.Drafting
import DScope.Proofs.Packages
import Mathlib.Data.List.Induction

namespace DScope

/-!
# The package tree and the module index

Modules are entered twice: under their whole name in an index, and segment by segment
in the tree of packages. Both give the same module for a name, a path leads to a
package if some module lies further down, and a package is labelled with its path.
-/

open List Path

namespace Path

theorem segments_of_notMem {name : String} (isSegment : '.' ∉ name.toList) :
    segments name = [name] := by
  rw [segments, splitDots_eq_splitOn, splitOn_eq_singleton isSegment, map_singleton,
    String.ofList_toList]

theorem segments_append {name : String} (isSegment : '.' ∉ name.toList) (path : String) :
    segments (path ++ "." ++ name) = segments path ++ [name] := by
  have isDotted : (path ++ "." ++ name).toList = path.toList ++ '.' :: name.toList := by simp
  rw [← segments_of_notMem isSegment, segments, segments, segments, isDotted,
    splitDots_eq_splitOn, splitOn_append_cons_self, map_append, splitDots_eq_splitOn,
    splitDots_eq_splitOn]

theorem foldl_child {first : List String} (areSome : first ≠ [])
    (areProper : ∀ segment ∈ first, segment ≠ "") :
    first.foldl child "" = ofSegments first ∧ ofSegments first ≠ "" := by
  induction first using reverseRecOn with
  | nil => exact absurd rfl areSome
  | append_singleton first segment ih =>
    rw [foldl_append, foldl_cons]
    by_cases isFirst : first = []
    · simpa [isFirst, child, ofSegments] using areProper segment
    · obtain ⟨isPath, isNamed⟩ :=
        ih isFirst fun other isOther => areProper other (mem_append_left _ isOther)
      rw [isPath, ofSegments_append isFirst, child, if_neg (by simpa using isNamed)]
      exact ⟨rfl, by simp⟩

end Path

namespace Package

variable {package : Package}

theorem label_insert (module : NodeId) (path : List String) (package : Package) :
    (package.insert module path).path = package.path ∧
      (package.insert module path).name = package.name := by
  unfold insert
  split <;> exact ⟨rfl, rfl⟩

/-- Every package further down has its way as its path and the last segment as its name. -/
def IsLabelled (package : Package) : Prop :=
  ∀ segments found, package.descend? segments = some found →
    found.path = segments.foldl Path.child package.path ∧
      found.name = segments.getLastD package.name

theorem IsLabelled.of_subpackage? {head : String} {below : Package}
    (isLabelled : package.IsLabelled) (isBelow : package.subpackage? head = some below) :
    below.IsLabelled ∧ below.path = child package.path head ∧ below.name = head := by
  have isOwn : below.path = child package.path head ∧ below.name = head := by
    apply isLabelled [head]
    simp [descend?, isBelow]
  refine ⟨fun segments found isFound => ?_, isOwn⟩
  have isReached := isLabelled (head :: segments) found (by rw [descend?, isBelow]; exact isFound)
  rwa [isOwn.1, isOwn.2, ← getLastD_cons]

theorem isLabelled_new (name path : String) : ({ name, path } : Package).IsLabelled := by
  rintro (_ | ⟨head, rest⟩) found isFound
  · cases isFound
    exact ⟨rfl, rfl⟩
  · cases isFound

theorem IsLabelled.insert
    (isLabelled : package.IsLabelled) (module : NodeId) (path : List String) :
    (package.insert module path).IsLabelled := by
  induction path generalizing package with
  | nil => exact isLabelled
  | cons head rest ih =>
    rintro (_ | ⟨other, segments⟩) found isFound
    · cases isFound
      exact ⟨rfl, rfl⟩
    · rw [(label_insert module _ package).1]
      by_cases areMore : rest = []
      · subst areMore
        exact isLabelled (other :: segments) found isFound
      · rw [descend?, subpackage?_insert areMore] at isFound
        split at isFound
        next isSame =>
          subst isSame
          have isBranch :
              (package.branch head).IsLabelled ∧
                (package.branch head).path = child package.path head ∧
                (package.branch head).name = head := by
            unfold branch
            cases isBelow : package.subpackage? head with
            | none => exact ⟨isLabelled_new _ _, rfl, rfl⟩
            | some below => exact isLabelled.of_subpackage? isBelow
          have isReached := ih isBranch.1 segments found isFound
          rw [(label_insert module _ _).1, (label_insert module _ _).2, isBranch.2.1,
            isBranch.2.2, ← getLastD_cons] at isReached
          exact isReached
        next => exact isLabelled (other :: segments) found isFound

end Package

namespace Program

variable {tree : Tree} {program : Program}

/-- The package tree gives the same module as the index for every name, and is labelled. -/
structure IsIndexed (program : Program) : Prop where
  agrees :
    ∀ name first leaf, Path.segments name = first ++ [leaf] →
      program.module? name = (program.root.descend? first).bind (·.module? leaf)
  isLabelled : program.root.IsLabelled
  isRoot : program.root.path = ""

theorem IsIndexed.enter (isIndexed : program.IsIndexed) (id : NodeId) :
    (program.enter id).IsIndexed := by
  unfold Program.enter
  split
  next node isNode =>
    split
    next isRoot =>
      refine ⟨fun name first leaf areSegments => ?_, isIndexed.isLabelled.insert _ _,
        (Package.label_insert _ _ _).1.trans isIndexed.isRoot⟩
      rw [(Package.descend?_insert _ _ _ _ _).1, module?]
      by_cases isSame : node.name = name
      · subst isSame
        rw [if_pos areSegments, Table.find?_put]
      · rw [Table.find?_put_of_ne isSame, if_neg]
        · exact isIndexed.agrees name first leaf areSegments
        · intro areSame
          apply isSame
          rw [← ofSegments_segments node.name, areSame, ← areSegments, ofSegments_segments]
    next => exact isIndexed
  next => exact isIndexed

theorem isIndexed_ofTree (tree : Tree) : (ofTree tree).IsIndexed := by
  refine foldlRecOn _ _ ⟨fun name first leaf _ => ?_, Package.isLabelled_new "" "", rfl⟩
    fun program isIndexed id _ => isIndexed.enter id
  cases first <;> rfl

end Program

open Program

/--
A module is found under its full name exactly where the packages of its path lead to it.
A package is there if and only if some module lies below it, and it knows its path and
its own name.
-/
theorem package_tree_agrees_with_module_index
    (tree : Tree)
    {path name : String}
    (isPath : ∀ segment ∈ Path.segments path, segment ≠ "")
    (isSegment : '.' ∉ name.toList) :
    (ofTree tree).module? (path ++ "." ++ name) =
        ((ofTree tree).package? path).bind (·.module? name) ∧
      (ofTree tree).module? name = (ofTree tree).root.module? name ∧
      (((ofTree tree).package? path).isSome = true ↔
        ∃ id ∈ tree.rootModules, ∃ rest, rest ≠ [] ∧
          Path.segments (tree.nameOf id) = Path.segments path ++ rest) ∧
      ∀ package, (ofTree tree).package? path = some package →
        package.path = path ∧ some package.name = (Path.segments path).getLast? := by
  have isIndexed := isIndexed_ofTree tree
  have areSome := segments_ne_nil path
  obtain ⟨isFolded, isNamed⟩ := foldl_child areSome isPath
  rw [ofSegments_segments] at isFolded isNamed
  have isPackage : (ofTree tree).package? path = (ofTree tree).root.descend? (segments path) :=
    if_neg (by simpa using isNamed)
  rw [isPackage]
  refine ⟨isIndexed.agrees _ _ _ (segments_append isSegment path),
    isIndexed.agrees name [] name (segments_of_notMem isSegment), ?_, ?_⟩
  · rw [ofTree, isSome_descend?_foldl_enter]
    cases isCons : segments path with
    | nil => exact absurd isCons areSome
    | cons head rest => exact or_iff_right Bool.false_ne_true
  · intro package isFound
    obtain ⟨hasPath, hasName⟩ := isIndexed.isLabelled _ _ isFound
    rw [isIndexed.isRoot, isFolded] at hasPath
    rw [hasName, getLastD_eq_getLast?,
      getLast?_eq_some_getLast areSome]
    exact ⟨hasPath, rfl⟩

/-- A name that is both a module and a package, and a name that two modules have. -/
theorem package_tree_agrees_for_shared_names :
    let program :=
      Program.ofTree (.ofSteps [.module "pack", .module "pack.inner.leaf", .module "pack.inner.leaf"])
    program.module? "pack.inner.leaf" = some ⟨2⟩ ∧
      program.module? "pack.inner.leaf" = (program.package? "pack.inner").bind (·.module? "leaf") ∧
      program.module? "leaf" = program.root.module? "leaf" ∧
      (program.package? "pack.inner").isSome = true := by
  have agrees :=
    package_tree_agrees_with_module_index
      (.ofSteps [.module "pack", .module "pack.inner.leaf", .module "pack.inner.leaf"])
      (show ∀ segment ∈ segments "pack.inner", segment ≠ "" by decide +kernel)
      (show '.' ∉ "leaf".toList by decide)
  refine ⟨by decide +kernel, agrees.1, agrees.2.1, agrees.2.2.1.mpr ?_⟩
  exact ⟨⟨2⟩, by decide +kernel, ["leaf"], by decide, by decide +kernel⟩

end DScope
