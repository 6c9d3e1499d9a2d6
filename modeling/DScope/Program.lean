import DScope.Table
import DScope.Tree

namespace DScope

/-!
# Programs

A program is a declaration tree together with two views of its modules: a table
from dotted names to module roots, and the hierarchy of packages that the dots
in those names describe.
-/

/-- A package: the modules directly in it and the packages below it. -/
structure Package where
  name : String := ""
  /-- The dotted path from the root package, which itself has the empty path. -/
  path : String := ""
  modules : List (String × NodeId) := []
  packages : List (String × Package) := []

namespace Package

def module? (package : Package) (name : String) : Option NodeId :=
  Table.find? name package.modules

def subpackage? (package : Package) (name : String) : Option Package :=
  Table.find? name package.packages

def isRoot (package : Package) : Bool :=
  package.path.isEmpty

/-- The package with a module put under the path that the segments spell. -/
def insert (module : NodeId) : List String → Package → Package
  | [], package => package
  | [leaf], package => { package with modules := Table.put leaf module package.modules }
  | head :: rest, package =>
    let below := (package.subpackage? head).getD
      { name := head, path := Path.child package.path head }
    { package with packages := Table.put head (insert module rest below) package.packages }

/-- The package that the segments lead to. -/
def descend? (package : Package) : List String → Option Package
  | [] => some package
  | head :: rest => (package.subpackage? head).bind (·.descend? rest)

end Package

/-- A declaration tree and its modules. -/
structure Program where
  tree : Tree
  modules : List (String × NodeId) := []
  root : Package := {}

namespace Program

/-- Whether a declaration is the root of a module. -/
def isModuleRoot (node : Node) : Bool :=
  match node.parent, node.kind with
  | none, .module => true
  | _, _ => false

/-- The program with one more declaration entered, if it is the root of a module. -/
def enter (program : Program) (id : NodeId) : Program :=
  match program.tree.node? id with
  | some node =>
    if isModuleRoot node then
      { program with
        modules := Table.put node.name id program.modules
        root := program.root.insert id (Path.segments node.name) }
    else
      program
  | none => program

/-- The program over a declaration tree; of modules with one name the last counts. -/
def ofTree (tree : Tree) : Program :=
  tree.nodeIds.foldl enter { tree }

def module? (program : Program) (name : String) : Option NodeId :=
  Table.find? name program.modules

/-- The package with a dotted path; the empty path is the root. -/
def package? (program : Program) (path : String) : Option Package :=
  if path.isEmpty then some program.root else program.root.descend? (Path.segments path)

/-- The module that every module imports without saying so. -/
def object? (program : Program) : Option NodeId :=
  program.module? "object"

/-- The path of the package that holds a module. -/
def packageOf (program : Program) (module : NodeId) : String :=
  Path.enclosing (program.tree.nameOf module)

end Program

end DScope
