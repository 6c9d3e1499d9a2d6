import DScope.Iteration
import DScope.ReturnType

namespace DScope.DeclaredSymbol

/-!
# The symbol of a declaration

A declaration becomes a symbol together with its base type, its base classes or
the target of its alias, as far as the options and the recursion guard let the
query go, and with the template bindings that hold for it.
-/

open Query

/-- How far a query goes beyond the declaration itself. -/
structure Reach where
  baseTypes : Bool
  results : Bool
  aliases : Bool
  baseClasses : Bool
deriving Repr, DecidableEq

/-- How far a query goes under the options when the declaration was entered this often. -/
def Reach.ofOptions (options : Options) (depth : Nat) : Reach :=
  let isShallow := depth > Guard.baseLimit
  { baseTypes := !isShallow && !options.skipBaseTypes
    results := !isShallow && !options.skipBaseTypes && !options.referencesOnly
    aliases := !isShallow && !options.keepAliases
    baseClasses := !isShallow && !options.skipBaseClasses }

/-- Takes over a binding for a parameter of a scope around the declaration. -/
def inherit (tree : Tree) (id : NodeId) (bindings : Bindings) (binding : Binding) : Bindings :=
  if (tree.parent? binding.parameter).any (tree.encloses · id) &&
      !bindings.isSatisfied binding.parameter then
    bindings.set binding
  else
    bindings

/-- Binds a parameter to itself unless it is bound. -/
def bindToSelf (bindings : Bindings) (parameter : NodeId) : Bindings :=
  if bindings.isSatisfied parameter then bindings else bindings.set (.ofSelf parameter)

/--
The bindings that a symbol carries.

Seen from outside these are the given ones, with empty slots for the other
parameters of the declaration. Inside the declaration the bindings of the frames
around it hold as well, and a parameter still open is bound to itself.
-/
def attached (tree : Tree) (stack : Stack) (id : NodeId) (entry : Node) (given : Bindings) :
    Bindings :=
  let own := (Bindings.forParameters entry.templateParameters).mergeMissing given
  if tree.encloses id stack.top.scope then
    let inherited := (stack.bindingsInHierarchy tree).foldl (inherit tree id) own
    entry.templateParameters.foldl bindToSelf inherited
  else
    own

def unfollowedAlias (id : NodeId) : Symbol :=
  .declared id (.aliased id none)

/-- What an alias stands for; an alias met while it is being followed stays as it is. -/
def ofAlias (id : NodeId) (target : TypeExpr) : Query Symbol := do
  let found ← whileResolving id
    (withOverrides (({} : Overrides).enable { referencesOnly := true }) (resolve target))
  let targets := (found.join.getD []).map (·.withTag (.aliased id))
  return (Symbol.ofCandidates? targets).getD (unfollowedAlias id)

/-- The type of a variable, written, taken from its initializer or from its loop. -/
def variableType (id : NodeId) (type : Option TypeExpr) (initializer : Option Expr) :
    Query (Option Symbol) := do
  match type, initializer with
  | some type, _ => resolveOne type
  | none, some initializer => return (← evaluateType initializer).map Symbol.stripped
  | none, none => Iteration.typeOf id

/-- The type below an enumeration, `int` unless another one is written. -/
def enumerationBase (id : NodeId) : Query (Option Symbol) := do
  match (← node id).kind with
  | .enumeration (some base) => resolveOne base
  | _ => return some (.primitive .int)

/-- The type of an enumerator: its enumeration, or the type below an anonymous one. -/
def enumeratorType (parent : Option NodeId) : Query (Option Symbol) := do
  match parent with
  | none => return none
  | some enumeration =>
    if (← node enumeration).name.isEmpty then
      enumerationBase enumeration
    else
      symbolOf enumeration .none

structure Bases where
  baseClass : Option Symbol := none
  interfaces : List Symbol := []

/-- Adds a base: the first base of a class may be a class, all others are interfaces. -/
def Bases.add (bases : Bases) (mayBeClass : Bool) (base : Symbol) : Bases :=
  if mayBeClass && base.isAggregateOf .classType then
    { bases with baseClass := some base }
  else
    { bases with interfaces := bases.interfaces ++ [base] }

/-- Resolves the bases in the order in which they are written. -/
def basesOf (mayBeClass : Bool) (bases : Bases) : List TypeExpr → Query Bases
  | [] => return bases
  | written :: rest => do
      match (← resolve written).find? (·.isAggregate) with
      | some base => basesOf false (bases.add mayBeClass base) rest
      | none => basesOf false bases rest

def ofAggregate
    (id : NodeId)
    (sort : AggregateSort)
    (isMixin : Bool)
    (written : List TypeExpr)
    (reachesBases : Bool)
    (bindings : Bindings) :
    Query Symbol := do
  let kind := AggregateKind.ofDeclared sort isMixin
  let isResolved := kind.isClassLike && !written.isEmpty && reachesBases
  let found ←
    if isResolved then whileResolving id (basesOf (sort == .classType) {} written) else pure none
  let bases := found.getD {}
  return .declared id (.aggregate ⟨kind, id, bases.baseClass, bases.interfaces, bindings⟩)

/-- The symbol of a template parameter: what it is bound to, here or in the given bindings. -/
def ofParameter (id : NodeId) (bindings : Bindings) : Query Symbol := do
  let bound := ((← get).stack.binding? id <|> bindings.get? id).filter (!·.isSelf)
  return .parameter (bound.getD (.unbound id))

/-- What a selective import binding stands for. -/
def ofImportBinding (id : NodeId) (module target : String) : Query (Option Symbol) := do
  match (← program).module? module with
  | none => return none
  | some module =>
    let found ← symbolsOf (← Lookup.members (.module module) target .all)
    return Symbol.ofCandidates? (found.map (·.withTag (.aliased id)))

/-- The symbol of a declaration that reaches as far as given, read in its own frame. -/
def visit (id : NodeId) (entry : Node) (reach : Reach) (bindings : Bindings) :
    Query (Option Symbol) := do
  match entry.kind with
  | .aliased (some target) _ =>
    if reach.aliases then return some (← ofAlias id target) else return some (unfollowedAlias id)
  | .aliased none _ => return some (unfollowedAlias id)
  | .var type initializer =>
    let base ← if reach.baseTypes then variableType id type initializer else pure none
    return some (.member id base bindings)
  | .method .. =>
    let base ← if reach.results then ReturnType.ofMethod id else pure none
    return some (.member id base bindings)
  | .enumerator _ =>
    let base ← if reach.baseTypes then enumeratorType entry.parent else pure none
    return some (.member id base bindings)
  | .aggregate sort isMixin written =>
    return some (← ofAggregate id sort isMixin written reach.baseClasses bindings)
  | .eponymous .. =>
    return some (.declared id (.aggregate ⟨.eponymousTemplate, id, none, [], bindings⟩))
  | .enumeration _ =>
    let base ← if reach.baseTypes then enumerationBase id else pure none
    return some (.declared id (.enumeration id base))
  | .module => return some (.module id)
  | .templateParameter _ => return some (← ofParameter id bindings)
  | .importBinding module target => ofImportBinding id module target
  | .moduleAlias module =>
    return ((← program).module? module).map fun module =>
      (Symbol.module module).withTag (.aliased id)
  | .mixin _ => mixedIn id
  | .importModule .. => return none

/-- The symbol of a declaration under the given bindings. -/
def of (id : NodeId) (given : Bindings) : Query (Option Symbol) := do
  let entry ← node id
  let tree ← tree
  let options ← options
  let bindings := attached tree (← get).stack id entry given
  visiting id fun depth => do
    let reach := Reach.ofOptions options depth
    let found ← withFrame (.ofDeclaration tree id given) (visit id entry reach bindings)
    return found.join

end DScope.DeclaredSymbol
