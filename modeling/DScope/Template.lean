import DScope.Symbol.Equality
import DScope.Template.Argument
import DScope.Template.Pattern
import DScope.Template.Rank

namespace DScope.Template

/-!
# Choosing among overloads

Overloads are bound to template arguments, filtered by their constraints and
narrowed down to the most specialized ones. An overload that does not take the
arguments is dropped without a diagnostic.
-/

open Query

/-- The symbol of an overload under bindings, tagged as the overload was. -/
def instantiateMember (overload : Symbol) (node : NodeId) (bindings : Bindings) :
    Query Symbol := do
  let symbol ← symbolOf node bindings
  return (symbol.getD overload).withMissingTags overload.tags

/-- Whether a symbol owns the template parameters of its declaration. -/
def ownsParameters (symbol : Symbol) : Bool :=
  match symbol.shape with
  | .aggregate _ => true
  | .member member => !member.bindings.isEmpty
  | _ => false

/--
The instance of a template for the given arguments.

A function template without arguments stays as it is until it is called, and so
does a template whose parameters are bound already.
-/
def instantiateTemplate
    (overload : Symbol)
    (owner : NodeId)
    (parameters : List NodeId)
    (given : List Argument)
    (atCall : Bool) :
    Query (Option Symbol) := do
  let declared := parameters.foldl Bindings.declare overload.bindings
  if given.isEmpty && declared.allSatisfied then
    return some overload
  let cleared := if given.isEmpty then declared else parameters.foldl Bindings.clear declared
  match ← bindParameters owner overload given atCall true cleared with
  | none => return none
  | some bindings =>
    if !atCall && !bindings.allSatisfied then
      return none
    match ← specialized? owner bindings with
    | none => return none
    | some bindings =>
      if overload.isMember then
        return some (← instantiateMember overload owner bindings)
      else
        return some (overload.withBindings bindings)

/-- What a symbol other than a template parameter becomes under the given arguments. -/
def instantiateDeclared (overload : Symbol) (given : List Argument) (atCall : Bool) :
    Query (Option Symbol) := do
  match overload.definition? with
  | none => return if given.isEmpty then some overload else none
  | some owner =>
    let entry ← node owner
    if entry.templateParameters.isEmpty || !ownsParameters overload then
      return if given.isEmpty || atCall then some overload else none
    else if given.isEmpty && entry.isMethod then
      return some overload
    else
      instantiateTemplate overload owner entry.templateParameters given atCall

/-- What an overload becomes under the given arguments, unless it turns them down. -/
def instantiateOverload (overload : Symbol) (given : List Argument) (atCall : Bool) :
    Query (Option Symbol) := do
  match overload.parameter? with
  | some _ =>
    if given.isEmpty then
      return some overload
    else
      match overload.boundTarget? with
      | some target => instantiateDeclared target given atCall
      | none => return none
  | none => instantiateDeclared overload given atCall

/-- Whether the constraint of an overload, if it has one, is true. -/
def meetsConstraint (overload : Symbol) : Query Bool := do
  match overload.definition? with
  | none => return true
  | some owner =>
    match (← node owner).constraint with
    | none => return true
    | some constraint =>
      match ← withFrame (frameOf owner overload.bindings) (evaluate constraint) with
      | some (.ok value) => return value.truth? == some true
      | _ => return false

/-- The most specialized of the overloads whose constraints hold. -/
def narrow (overloads : List Symbol) : Query (List Symbol) := do
  return mostSpecialized (← tree) (← overloads.filterM meetsConstraint)

/-- The type of the member of an eponymous template. -/
def eponymousType (node : NodeId) (type : Option TypeExpr) (initializer : Option Expr)
    (bindings : Bindings) : Query (Option Symbol) := do
  match type, initializer with
  | some type, _ =>
    let found ← withFrame (frameOf node bindings) (resolve type)
    return found.bind List.head?
  | none, some initializer =>
    let found ← withFrame (frameOf node bindings) (evaluateType initializer)
    return found.join
  | none, none =>
    report (.nothingFound ((← tree).nameOf node) (some node)
      (some "Can't deduce type from empty initializer"))
    return none

/-- The members of a template that have the template's own name. -/
def namesakes (tree : Tree) (template : Node) : List NodeId :=
  template.children.filter fun child => tree.nameOf child == template.name

/--
What a bound template stands for.

An eponymous template stands for its member, and a template with members of its
own name for these members.
-/
def expand (symbol : Symbol) : Query (List Symbol) := do
  match symbol.aggregate? with
  | none => return [symbol]
  | some aggregate =>
    if !aggregate.bindings.allSatisfied then
      return [symbol]
    let entry ← node aggregate.node
    match aggregate.kind, entry.kind with
    | .eponymousTemplate, .eponymous type initializer =>
      let base ← eponymousType aggregate.node type initializer aggregate.bindings
      return [.member aggregate.node base aggregate.bindings]
    | .template, _ =>
      let members ← (namesakes (← tree) entry).mapM fun child =>
        symbolOf child aggregate.bindings
      let found := members.flatMap fun member => (member.map Symbol.candidates).getD []
      return if found.isEmpty then [symbol] else found
    | _, _ => return [symbol]

/--
The symbols that overloads become under the given template arguments.

At a call arguments may be left over and parameters may stay open for deduction.
-/
def instantiate (overloads : List Symbol) (given : List Argument) (atCall : Bool) :
    Query (List Symbol) := do
  let instances ← collect
    (fun overload => do return (← instantiateOverload overload given atCall).toList)
    (overloads.flatMap Symbol.candidates)
  let kept ← narrow instances
  return (← kept.mapM expand).flatten

/-- The instance of an overload that takes a call, if it does. -/
def instantiateForCall
    (explicit : List Argument)
    (arguments : List (Option Symbol))
    (overload : Symbol) :
    Query (Option Symbol) := do
  let some method := overload.definition? | return none
  let entry ← node method
  if !entry.isMethod then
    return none
  let arguments :=
    if overload.isUfcs then overload.receiver?.bind Symbol.strip :: arguments else arguments
  let start := (Bindings.forParameters entry.templateParameters).mergeMissing overload.bindings
  let some bound ← bindParameters method overload explicit false false start | return none
  let some matched ← matchCall method entry.parameters arguments bound | return none
  let completed ← applyDefaults method matched
  if !completed.allSatisfied then
    return none
  let some bindings ← specialized? method completed | return none
  return some (← instantiateMember overload method bindings)

/--
The overloads that take a call.

Explicit template arguments are bound first and the others are deduced from the
types of the call arguments, of which some may be unknown.
-/
def selectForCall
    (overloads : List Symbol)
    (explicit : List Argument)
    (arguments : List (Option Symbol)) :
    Query (List Symbol) := do
  let instances ← collect
    (fun overload => do return (← instantiateForCall explicit arguments overload).toList)
    (overloads.flatMap Symbol.candidates)
  narrow instances

/-- The only overload; none or several of them are reported. -/
def theOnly (overloads : List Symbol) (subject : String) : Query (Option Symbol) := do
  match overloads with
  | [overload] => return some overload
  | [] =>
    report (.nothingFound subject none none)
    return none
  | _ =>
    report (.ambiguousSpecialization subject overloads)
    return none

end DScope.Template
