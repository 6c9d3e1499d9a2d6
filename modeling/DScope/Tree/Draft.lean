import DScope.Tree

namespace DScope

/-!
# Drafting a declaration tree

A draft grows a tree one declaration or statement at a time. Each of them is
given the next fresh line, so the order of drafting is the order in the source,
and the spans of all enclosing declarations grow to cover a new one.
-/

/-- A tree under construction and the next line to hand out. -/
structure Draft where
  tree : Tree := {}
  nextLine : Nat := 0

/-- A step that extends a draft. -/
abbrev Drafting := StateM Draft

namespace Tree

def adjustNode (tree : Tree) (id : NodeId) (adjust : Node → Node) : Tree :=
  { tree with nodes := tree.nodes.modify id.index adjust }

def adjustStatement (tree : Tree) (id : StatementId) (adjust : Statement → Statement) : Tree :=
  { tree with statements := tree.statements.modify id.index adjust }

/-- Makes the spans of the given declarations cover a span. -/
def coverAll (tree : Tree) (ids : List NodeId) (span : Span) : Tree :=
  ids.foldl
    (fun grown id => grown.adjustNode id fun node => { node with span := node.span.cover span })
    tree

end Tree

namespace Draft

/-- Hands out the next line. -/
def freshSpan : Drafting Span :=
  modifyGet fun draft =>
    (Span.lines draft.nextLine draft.nextLine, { draft with nextLine := draft.nextLine + 1 })

def adjustNode (id : NodeId) (adjust : Node → Node) : Drafting Unit :=
  modify fun draft => { draft with tree := draft.tree.adjustNode id adjust }

def adjustStatement (id : StatementId) (adjust : Statement → Statement) : Drafting Unit :=
  modify fun draft => { draft with tree := draft.tree.adjustStatement id adjust }

/-- Adds a declaration without listing it among its parent's members. -/
def addNode (parent : Option NodeId) (name : String) (kind : NodeKind) : Drafting NodeId := do
  let span ← freshSpan
  modifyGet fun draft =>
    let id : NodeId := ⟨draft.tree.nodes.size⟩
    let grown := { draft.tree with nodes := draft.tree.nodes.push { name, kind, parent, span } }
    let ancestors := (parent.map draft.tree.lineage).getD []
    (id, { draft with tree := grown.coverAll ancestors span })

def addModule (name : String) : Drafting NodeId :=
  addNode none name .module

/-- Adds a declaration as the last member of its parent. -/
def addMember (parent : NodeId) (name : String) (kind : NodeKind) : Drafting NodeId := do
  let id ← addNode (some parent) name kind
  adjustNode parent fun node => { node with children := node.children ++ [id] }
  return id

def markConst (id : NodeId) : Drafting Unit :=
  adjustNode id fun node => { node with isConst := true }

def markStatic (id : NodeId) : Drafting Unit :=
  adjustNode id fun node => { node with isStatic := true }

/-- Sets who may name a declaration from outside. -/
def setVisibility (id : NodeId) (visibility : Visibility) : Drafting Unit :=
  adjustNode id fun node => { node with visibility }

/-- Sets the constraint of a template. -/
def setConstraint (id : NodeId) (constraint : Expr) : Drafting Unit :=
  adjustNode id fun node => { node with constraint := some constraint }

def addConstant (parent : NodeId) (name : String) (initializer : Expr) : Drafting NodeId := do
  let id ← addMember parent name (.var none (some initializer))
  markConst id
  return id

/-- Adds the last parameter of a function. -/
def addParameter (method : NodeId) (name : String) (type : TypeExpr) : Drafting NodeId := do
  let id ← addNode (some method) name (.var (some type) none)
  adjustNode method fun node =>
    match node.kind with
    | .method result parameters body =>
      { node with kind := .method result (parameters ++ [id]) body }
    | _ => node
  return id

/-- Adds the last template parameter of a declaration. -/
def addTemplateParameter (owner : NodeId) (name : String) (kind : ParameterKind) :
    Drafting NodeId := do
  let id ← addNode (some owner) name (.templateParameter kind)
  adjustNode owner fun node => { node with templateParameters := node.templateParameters ++ [id] }
  return id

/-- Adds a selective binding to an import. -/
def addImportBinding (importNode : NodeId) (name target : String) : Drafting NodeId := do
  let draft ← get
  let module := match (draft.tree.node? importNode).map Node.kind with
    | some (.importModule module _ _) => module
    | _ => ""
  addMember importNode name (.importBinding module target)

/-- Adds a statement, listing it in its parent when that is a block. -/
def addStatementOf (parent : Option StatementId) (owner : NodeId) (kind : StatementKind) :
    Drafting StatementId := do
  let span ← freshSpan
  let id ← modifyGet fun draft =>
    let id : StatementId := ⟨draft.tree.statements.size⟩
    let statements := draft.tree.statements.push { kind, parent, owner, span }
    (id, { draft with tree := { draft.tree with statements } })
  match parent with
  | none => return id
  | some block =>
    adjustStatement block fun statement =>
      match statement.kind with
      | .block children => { statement with kind := .block (children ++ [id]) }
      | _ => statement
    return id

def ownerOf (id : StatementId) : Drafting NodeId := do
  let draft ← get
  return ((draft.tree.statement? id).map (·.owner)).getD ⟨0⟩

def addStatement (block : StatementId) (kind : StatementKind) : Drafting StatementId := do
  addStatementOf (some block) (← ownerOf block) kind

/-- Gives a function an empty body. -/
def addBody (method : NodeId) : Drafting StatementId := do
  let id ← addStatementOf none method (.block [])
  adjustNode method fun node =>
    match node.kind with
    | .method result parameters _ => { node with kind := .method result parameters (some id) }
    | _ => node
  return id

/-- Declares a local variable; it stands on the line of its statement. -/
def addLocal
    (block : StatementId)
    (name : String)
    (type : Option TypeExpr)
    (initializer : Option Expr) :
    Drafting (StatementId × NodeId) := do
  let node ← addNode (some (← ownerOf block)) name (.var type initializer)
  let statement ← addStatement block (.declaration [node])
  let draft ← get
  match draft.tree.statement? statement with
  | some declared => adjustNode node fun entry => { entry with span := declared.span }
  | none => pure ()
  return (statement, node)

/-- Mixes a template into a function body. -/
def addMixin (block : StatementId) (target : TypeExpr) : Drafting (StatementId × NodeId) := do
  let node ← addNode (some (← ownerOf block)) "" (.mixin target)
  let statement ← addStatement block (.mixin node)
  return (statement, node)

/-- Adds a condition with an empty block to run when it holds, and gives that block. -/
def addConditional (block : StatementId) (condition : Expr) : Drafting StatementId := do
  let owner ← ownerOf block
  let statement ← addStatement block (.conditional condition ⟨0⟩ none)
  let branch ← addStatementOf (some statement) owner (.block [])
  adjustStatement statement fun entry =>
    match entry.kind with
    | .conditional condition _ elseBranch =>
      { entry with kind := .conditional condition branch elseBranch }
    | _ => entry
  return branch

/-- Adds a loop with an empty body, and gives the loop, its body and its variables. -/
def addLoop
    (block : StatementId)
    (loopVariables : List (String × Option TypeExpr))
    (source : LoopSource)
    (isReverse : Bool) :
    Drafting (StatementId × StatementId × List NodeId) := do
  let owner ← ownerOf block
  let nodes ← loopVariables.mapM fun (name, type) => addNode (some owner) name (.var type none)
  let statement ← addStatement block (.forEach nodes source none isReverse)
  let body ← addStatementOf (some statement) owner (.block [])
  adjustStatement statement fun entry =>
    match entry.kind with
    | .forEach loopVariables source _ isReverse =>
      { entry with kind := .forEach loopVariables source (some body) isReverse }
    | _ => entry
  return (statement, body, nodes)

end Draft

end DScope
