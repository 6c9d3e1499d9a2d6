import DScope.Lookup.Scan
import DScope.Query

namespace DScope

/-!
# Lookup

Which declarations are visible under a name. Lookup goes outward from the
current scope, one scope after another, and in each scope looks at locals and
parameters, members and template parameters, mixed-in members, inherited
members, and imports, in this order. A name ends the walk at the first of these
layers that has it.
-/

namespace Query

/-- The mixin template instance that a mixin declaration brings in. -/
def mixedIn (mixin : NodeId) : Query (Option Symbol) := do
  match (← node mixin).kind with
  | .mixin target =>
    let frame := Frame.ofDeclaration (← tree) mixin .none
    let found ← whileResolving mixin (withFrame frame (resolve target))
    let symbols := (found.bind id).getD []
    return symbols.find? (·.isAggregateOf .mixinTemplate)
  | _ => return none

/-- The symbols that a declaration stands for, told apart. -/
def symbolsThrough (declaration : Declaration) : Query (List Symbol) := do
  let symbol ← symbolThrough declaration.node declaration.via
  return (symbol.map Symbol.candidates).getD []

def symbolsOf (declarations : List Declaration) : Query (List Symbol) :=
  collect symbolsThrough declarations

end Query

namespace Lookup

open Query

/-- Goes on with a scan unless it is done. -/
def unlessDone (next : Scan → Query Scan) (scan : Scan) : Query Scan :=
  if scan.isDone then return scan else next scan

def scanMembers (access : Access) (via : Option Symbol) (scope : NodeId) (scan : Scan) :
    Query Scan := do
  return scan.members (← program) access via (← node scope)

/--
Scans what a mixin declaration brings in.

A mixin template is not entered again while it is being scanned, so nesting
never goes deeper than there are declarations; `steps` bounds the nesting.
-/
def scanMixin : Nat → Scan → NodeId → Query Scan
  | 0, scan, _ => return scan
  | steps + 1, scan, mixin => do
      let some brought ← mixedIn mixin | return scan
      let some aggregate := brought.aggregate? | return scan
      if scan.openBlocks.contains aggregate.node then
        return scan
      let template ← node aggregate.node
      let opened := { scan with openBlocks := aggregate.node :: scan.openBlocks }
      let scanned ← template.children.foldlM
        (fun scan member => do
          let entry ← node member
          if entry.isMixin then
            let named :=
              if !entry.name.isEmpty && scan.wants entry then
                scan.add member (some brought)
              else
                scan
            let frame : Frame :=
              { scope := entry.parent.getD member, bindings := aggregate.bindings }
            let nested ← withFrame frame (scanMixin steps named member)
            return nested.getD named
          else if scan.wants entry then
            return scan.add member (some brought)
          else
            return scan)
        opened
      return { scanned with openBlocks := scanned.openBlocks.erase aggregate.node }

def scanMixedIn (scan : Scan) (mixin : NodeId) : Query Scan := do
  scanMixin ((← tree).nodes.size + 1) scan mixin

def scanMixins (scope : NodeId) (scan : Scan) : Query Scan := do
  (← node scope).children.foldlM
    (fun scan child => do
      if (← node child).isMixin then scanMixedIn scan child else return scan)
    scan

mutual

/-- Scans a base, what is mixed into it, and its own bases. -/
def scanBase (access : Access) : Symbol → Scan → Query Scan
  | ⟨.aggregate ⟨kind, scope, baseClass, interfaces, bindings⟩, origin, modifier, tags⟩, scan =>
    if scan.openBlocks.contains scope then
      return scan
    else do
      let base : Symbol :=
        ⟨.aggregate ⟨kind, scope, baseClass, interfaces, bindings⟩, origin, modifier, tags⟩
      let via := if bindings.isEmpty then none else some base
      let scan ← scanMembers access via scope
        { scan with openBlocks := scope :: scan.openBlocks }
      let scan ← unlessDone (scanMixins scope) scan
      let scan ← unlessDone (scanBaseOption access baseClass) scan
      unlessDone (scanBases access interfaces) scan
  | _, scan => return scan
termination_by structural base => base

def scanBaseOption (access : Access) : Option Symbol → Scan → Query Scan
  | none, scan => return scan
  | some base, scan => scanBase access base scan
termination_by structural base => base

def scanBases (access : Access) : List Symbol → Scan → Query Scan
  | [], scan => return scan
  | base :: rest, scan => do
      let scan ← scanBase access base scan
      unlessDone (scanBases access rest) scan
termination_by structural bases => bases

end

def scanBasesOf (access : Access) (owner : Symbol) (scan : Scan) : Query Scan :=
  match owner.aggregate? with
  | some aggregate => scanBases access (aggregate.baseClass.toList ++ aggregate.interfaces) scan
  | none => return scan

/-- Scans the bases of a class around the lookup, unless they are being resolved. -/
def scanInherited (scope : NodeId) (scan : Scan) : Query Scan := do
  match (← node scope).kind with
  | .aggregate .classType .. | .aggregate .interfaceType .. =>
    if (← get).guard.isResolving scope then
      return scan
    match ← symbolThrough scope none with
    | some symbol => scanBasesOf .inherited symbol scan
    | none => return scan
  | _ => return scan

def scanModule (module : NodeId) (scan : Scan) : Query Scan := do
  let _ ← node module
  let program ← program
  return scan.module program (program.tree.nodes.size + 1) module

def scanImports (scope : NodeId) (scan : Scan) : Query Scan := do
  let entry ← node scope
  if ← isCancelled then
    return scan
  (Scan.importTargets (← program) scope entry).foldlM (fun scan module => scanModule module scan) scan

def scanStatement (scan : Scan) (id : StatementId) : Query Scan := do
  match (← statement id).kind with
  | .declaration nodes => return nodes.foldl (Scan.consider (← tree) none) scan
  | .mixin mixin => scanMixedIn scan mixin
  | _ => return scan

/-- Scans the locals of one statement around the position. -/
def scanAround (caret : Position) (isInnermost : Bool) (scan : Scan) (id : StatementId) :
    Query Scan := do
  let tree ← tree
  match (← statement id).kind with
  | .block children =>
    let earlier := children.takeWhile fun child =>
      ((tree.statement? child).map (·.span.startsBefore caret)).getD false
    earlier.foldlM scanStatement scan
  | .forEach loopVariables .. =>
    if isInnermost then
      return scan
    else
      return loopVariables.foldl (Scan.consider tree none) scan
  | _ => return scan

/-- Scans the locals of a function that are declared before the current statement. -/
def scanLocals (method : NodeId) (scan : Scan) : Query Scan := do
  match (← get).stack.top.statement with
  | none => return scan
  | some current =>
    let entry ← statement current
    if entry.owner != method then
      return scan
    let caret := entry.span.start
    let around := ((← tree).statementLineage current).tail
    let scan ← scanAround caret true scan current
    around.foldlM (scanAround caret false) scan

/-- Scans the locals and the parameters of a function. -/
def scanMethod (scope : NodeId) (scan : Scan) : Query Scan := do
  let entry ← node scope
  if entry.isMethod then
    let scan ← scanLocals scope scan
    return entry.parameters.foldl (Scan.consider (← tree) none) scan
  else
    return scan

/-- Scans all layers of one scope from inside. -/
def scanScope (scope : NodeId) (scan : Scan) : Query Scan := do
  let scan ← scanMethod scope scan
  let scan ← unlessDone (scanMembers .lexical none scope) scan
  let scan ← unlessDone (scanMixins scope) scan
  let scan ← unlessDone (scanInherited scope) scan
  unlessDone (scanImports scope) scan

/-- Scans scopes one after another until the scan is done; cancelling empties the scan. -/
def scanOutward : List NodeId → Scan → Query Scan
  | [], scan => return scan
  | scope :: rest, scan => do
      if ← isCancelled then
        return { scan with found := [] }
      let scan ← scanScope scope scan
      unlessDone (scanOutward rest) scan

/-- A scan for a name, or for all names, from the current scope. -/
def start (name : Option String) (filter : Filter) : Query Scan := do
  let scope ← scope
  let _ ← node scope
  return { name, filter, home := (← tree).rootOf scope }

/-- The declarations visible under a name. -/
def visible (name : String) (filter : Filter) : Query (List Declaration) := do
  let scan ← start (some name) filter
  let scan ← scanOutward ((← tree).lineage (← scope)) scan
  return scan.found

/-- All visible declarations, the innermost first. -/
def everything (filter : Filter) : Query (List Declaration) := do
  let scan ← start none filter
  let scan ← scanOutward ((← tree).lineage (← scope)) scan
  return scan.found

/-- The members of an aggregate, an enumeration or a module that have a name. -/
def members (owner : Symbol) (name : String) (filter : Filter) : Query (List Declaration) := do
  let scan ← start (some name) filter
  match owner.shape with
  | .aggregate aggregate =>
    let via := if aggregate.bindings.isEmpty then none else some owner
    let scan ← scanMembers .external via aggregate.node scan
    let scan ← unlessDone (scanMixins aggregate.node) scan
    let scan ← unlessDone (scanBasesOf .external owner) scan
    return scan.found
  | .enumeration node _ =>
    let scan ← scanMembers .external none node scan
    return scan.found
  | .module node =>
    let scan ← scanModule node scan
    return scan.found
  | _ => return scan.found

/--
The symbols of all declarations visible under a name, template arguments not
yet deduced.

A name under which nothing is declared may still be a module or a package.
-/
def candidates (name : String) : Query (List Symbol) := do
  let declarations ← visible name .all
  let found ← symbolsOf declarations
  if declarations.isEmpty then
    let program ← program
    match program.module? name with
    | some module => return found ++ [.module module]
    | none =>
      if (program.package? name).isSome then
        return found ++ [.package name]
      else
        return found
  else
    return found

/-- The first symbol visible under a name. -/
def first? (name : String) : Query (Option Symbol) := do
  return (← candidates name).head?

/-- The type of sizes and indices: what is declared as `size_t`, or else `ulong`. -/
def sizeType : Query Symbol := do
  return (← first? "size_t").getD (.primitive .ulong)

end Lookup

end DScope
