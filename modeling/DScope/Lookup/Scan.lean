import DScope.Lookup.Filter
import DScope.Program
import DScope.Symbol

namespace DScope

/-!
# Scanning for declarations

A scan collects the declarations that a lookup passes on its way outward. This
module holds the part of scanning that only reads the program: the members of
one scope, and the members of a module together with what it imports publicly.
-/

structure Declaration where
  node : NodeId
  /-- The instance through which it is reached, whose bindings hold for it. -/
  via : Option Symbol := none

/-- How the scanned scope lies to the scope of the lookup. -/
inductive Access where
  /-- The lookup takes place inside the scanned scope. -/
  | lexical
  /-- The scanned scope is a base of a class around the lookup. -/
  | inherited
  /-- The scanned scope is named from outside. -/
  | external
deriving Repr, DecidableEq

/-- A lookup in progress. -/
structure Scan where
  /-- The name looked for; every name when missing. -/
  name : Option String
  filter : Filter
  /-- The root of the module in which the lookup takes place. -/
  home : NodeId
  /-- The declarations found, in the order in which they were met. -/
  found : List Declaration := []
  seenModules : List NodeId := []
  /-- The bases scanned and the mixin templates being scanned. -/
  openBlocks : List NodeId := []

namespace Scan

def wants (scan : Scan) (node : Node) : Bool :=
  scan.name.all (node.name == ·) && scan.filter.accepts node

/-- The scan with a declaration added, unless it was found before. -/
def add (scan : Scan) (node : NodeId) (via : Option Symbol) : Scan :=
  if scan.found.any (·.node == node) then
    scan
  else
    { scan with found := scan.found ++ [⟨node, via⟩] }

def consider (tree : Tree) (via : Option Symbol) (scan : Scan) (id : NodeId) : Scan :=
  match tree.node? id with
  | some node => if scan.wants node then scan.add id via else scan
  | none => scan

/-- Whether the walk outward ends: a name ends it at the first scope that has it. -/
def isDone (scan : Scan) : Bool :=
  scan.name.isSome && !scan.found.isEmpty

/-- Whether a declaration may be named across the given access. -/
def mayAccess (program : Program) (scan : Scan) (access : Access) (id : NodeId) (node : Node) :
    Bool :=
  let module := program.tree.rootOf id
  let isSameModule := module == scan.home
  access == .lexical ||
    match node.visibility with
    | .publicAccess => true
    | .privateAccess => isSameModule
    | .packageAccess =>
      isSameModule || program.packageOf module == program.packageOf scan.home
    | .protectedAccess => isSameModule || access == .inherited

def member
    (program : Program)
    (access : Access)
    (via : Option Symbol)
    (scan : Scan)
    (id : NodeId) :
    Scan :=
  match program.tree.node? id with
  | none => scan
  | some node =>
    match node.kind with
    | .importModule .. =>
      if access == .lexical then
        node.children.foldl (consider program.tree none) scan
      else
        scan
    | .mixin _ =>
      if !node.name.isEmpty && scan.wants node && scan.mayAccess program access id node then
        scan.add id via
      else
        scan
    | _ =>
      if scan.wants node && scan.mayAccess program access id node then
        scan.add id via
      else
        scan

/-- Scans the members of a scope and, from inside, its template parameters. -/
def members
    (program : Program)
    (access : Access)
    (via : Option Symbol)
    (scan : Scan)
    (scope : Node) :
    Scan :=
  let scan := scope.children.foldl (member program access via) scan
  if access == .lexical then
    scope.templateParameters.foldl (consider program.tree none) scan
  else
    scan

/--
Scans a module from outside and the modules that it imports publicly.

A module is scanned once, so nesting never goes deeper than there are modules;
`steps` bounds the nesting.
-/
def module (program : Program) : Nat → Scan → NodeId → Scan
  | 0, scan, _ => scan
  | steps + 1, scan, id =>
    match program.tree.node? id with
    | none => scan
    | some root =>
      if scan.seenModules.contains id then
        scan
      else
        let marked := { scan with seenModules := id :: scan.seenModules }
        root.children.foldl
          (fun scan child =>
            match program.tree.node? child with
            | some node =>
              match node.kind with
              | .importModule target true _ =>
                if node.children.isEmpty then
                  match program.module? target with
                  | some imported => module program steps scan imported
                  | none => scan
                else
                  node.children.foldl (consider program.tree none) scan
              | _ => scan
            | none => scan)
          (marked.members program .external none root)

/-- The modules that a scope imports as a whole; a module imports `object` as well. -/
def importTargets (program : Program) (id : NodeId) (scope : Node) : List NodeId :=
  let written := scope.children.filterMap fun child => do
    let node ← program.tree.node? child
    match node.kind with
    | .importModule target _ false =>
      if node.children.isEmpty then program.module? target else none
    | _ => none
  match scope.kind with
  | .module => written ++ (program.object?.filter (· != id)).toList
  | _ => written

end Scan

end DScope
