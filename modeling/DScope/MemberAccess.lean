import DScope.Property
import DScope.Template

namespace DScope.MemberAccess

/-!
# Member access

What `owner.name` stands for. Declared members come first, then built-in
properties, then what `opDispatch` forwards to, and last the free functions that
take the owner as their first argument.
-/

open Query

def inPackage? (program : Program) (path name : String) : Option Symbol :=
  let qualified := path ++ "." ++ name
  match program.module? qualified with
  | some module => some (.module module)
  | none => (program.package? qualified).map fun _ => .package qualified

/-- Marks a member of an aggregate with the symbol on which it is accessed. -/
def onReceiver (owner receiver found : Symbol) : Symbol :=
  if owner.isAggregate && found.isMember then found.withTag (.receiver receiver) else found

def declared (owner receiver : Symbol) (name : String) : Query (List Symbol) := do
  match owner.shape with
  | .aggregate _ | .enumeration .. | .module _ =>
    let found ← symbolsOf (← Lookup.members owner name .all)
    return found.map (onReceiver owner receiver)
  | .package path => return (inPackage? (← program) path name).toList
  | _ => return []

/-- What the `opDispatch` members of an aggregate forward the name to. -/
def dispatched (owner receiver : Symbol) (name : String) : Query (List Symbol) := do
  match ← Lookup.members owner "opDispatch" .all with
  | [] => return []
  | declarations =>
    let overloads ← symbolsOf declarations
    let found ← Template.instantiate overloads [.value (.string name)] true
    return found.map fun symbol => (symbol.withTag (.dispatched name)).withTag (.receiver receiver)

/-- A free function as a member of the receiver, if its first parameter takes it. -/
def asMember (receiver type : Symbol) (declaration : Declaration) : Query (List Symbol) := do
  let method ← node declaration.node
  if !(← Template.firstParameterAccepts declaration.node type) then
    return []
  match ← symbolThrough declaration.node declaration.via with
  | none => return []
  | some symbol =>
    let tagged := (symbol.withTag .ufcs).withTag (.receiver receiver)
    if method.templateParameters.isEmpty || (← options).referencesOnly then
      return [tagged]
    else
      Template.selectForCall [tagged] [] []

/-- The free functions with a name that take the receiver as their first argument. -/
def freeFunctions (receiver type : Symbol) (name : String) : Query (List Symbol) := do
  let methods ← Lookup.visible name .onlyMethods
  return (← methods.mapM (asMember receiver type)).flatten

/-- Whether free functions can be called on a symbol: not on modules and packages. -/
def takesFreeFunctions (owner : Symbol) : Bool :=
  match owner.shape with
  | .module _ | .package _ => false
  | _ => true

/-- What a name may denote as a member of one symbol. -/
def candidatesOn (name : String) (ufcs : Bool) (receiver : Symbol) : Query (List Symbol) := do
  match receiver.strip with
  | none => return []
  | some type =>
    let owner := type.pointee
    let found ← declared owner receiver name
    if !found.isEmpty then
      return found
    match ← Property.member? type name with
    | some property => return [property]
    | none =>
      let forwarded ← if owner.isAggregate then dispatched owner receiver name else pure []
      if forwarded.isEmpty && ufcs && takesFreeFunctions owner then
        freeFunctions receiver type name
      else
        return forwarded

/-- What a name may denote as a member of a symbol, template arguments not yet deduced. -/
def candidates (owner : Symbol) (name : String) (ufcs : Bool) : Query (List Symbol) :=
  collect (candidatesOn name ufcs) owner.candidates

/-- What `owner.name` or `owner.name!(arguments)` stands for. -/
def symbols
    (owner : Symbol)
    (name : String)
    (arguments : Option (List WrittenArgument))
    (ufcs : Bool) :
    Query (List Symbol) := do
  let found ← candidates owner name ufcs
  match arguments with
  | some arguments =>
    let given ← Template.resolveArguments arguments
    Template.instantiate found given false
  | none =>
    if (← options).skipDeduction then
      return found
    else
      Template.instantiate found [] false

end DScope.MemberAccess
