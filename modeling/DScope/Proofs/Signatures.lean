import Mathlib.Tactic.Choose
import DScope.Proofs.Instantiation
import DScope.Proofs.Memo
import DScope.Proofs.ModuleScope
import DScope.Proofs.Termination

namespace DScope

open Engine (Yields)
open Query (Reads)

variable {program : Program} {state : State} {entry : Node} {name : String} {tree : Tree}
  {id moduleId parameter : NodeId} {declaration : Declaration} {result : Option TypeExpr}
  {parameters : List NodeId} {body : Option StatementId} {evaluator : Evaluator}
  {bindings : Bindings} {binding : Binding}

/-!
# Signatures of functions

A function template whose parameter and return types are built from its own type
parameters. What such a type stands for inside the function depends on what the
type parameters are bound to and on what is being resolved, and on nothing else.
-/

open List DeclaredSymbol Scan

/-- Built from basic types and the given names by pointers and dynamic arrays. -/
inductive TypeExpr.IsPattern (names : List String) : TypeExpr → Prop
  | basic (type : BasicType) : IsPattern names (.basic type)
  | named {name : String} (isName : name ∈ names) : IsPattern names (.named name)
  | pointer {target : TypeExpr} (isPattern : IsPattern names target) :
      IsPattern names (.pointer target)
  | dynamicArray {element : TypeExpr} (isPattern : IsPattern names element) :
      IsPattern names (.dynamicArray element)

namespace Scan

variable {tree : Tree} {scan : Scan} {ids : List NodeId}

theorem mem_found_foldl_consider
    (isFound : declaration ∈ (ids.foldl (consider tree none) scan).found) :
    declaration ∈ scan.found ∨ ∃ id ∈ ids, declaration = ⟨id, none⟩ := by
  rw [foldl_consider_eq] at isFound
  rcases mem_append.mp isFound with isOld | isNew
  · exact .inl isOld
  · obtain ⟨id, isTaken, rfl⟩ := mem_map.mp isNew
    exact .inr ⟨id, mem_of_mem_filter (mem_eraseDups.mp isTaken), rfl⟩

theorem foldl_consider_spec (tree : Tree) (scan : Scan) (ids : List NodeId) :
    (ids.foldl (consider tree none) scan).wants = scan.wants ∧
      (ids.foldl (consider tree none) scan).name = scan.name := by
  rw [foldl_consider_eq]
  exact ⟨rfl, rfl⟩

theorem isDone_foldl_consider (isNamed : scan.name.isSome = true) (isMember : id ∈ ids)
    (isEntry : tree.node? id = some entry) (isWanted : scan.wants entry = true) :
    (ids.foldl (consider tree none) scan).isDone = true := by
  have isSought : scan.seeks tree id = true := by simpa [seeks, isEntry] using isWanted
  have isFound : (ids.foldl (consider tree none) scan).found ≠ [] := by
    rw [foldl_consider_eq]
    by_cases isOld : id ∈ scan.nodes
    · obtain ⟨declaration, isOld, -⟩ := mem_map.mp isOld
      exact ne_nil_of_mem (mem_append_left _ isOld)
    · have isNew : id ∈ (ids.filter fun id => scan.seeks tree id && id ∉ scan.nodes).eraseDups := by
        simp [isMember, isSought, isOld]
      exact ne_nil_of_mem (mem_append_right _ (mem_map_of_mem isNew))
  simp [isDone, foldl_consider_spec, isNamed, isFound]

end Scan

theorem Bindings.parameter_of_get? (isBinding : bindings.get? parameter = some binding) :
    binding.parameter = parameter := by
  obtain ⟨slot, isSlot, isFilled⟩ := Option.bind_eq_some_iff.mp isBinding
  have isSame := find?_some isSlot
  cases slot with
  | empty _ => cases isFilled
  | filled _ =>
    cases isFilled
    exact beq_iff_eq.mp isSame

namespace Stack

theorem parameter_of_binding? {stack : Stack}
    (isBinding : stack.binding? parameter = some binding) : binding.parameter = parameter := by
  obtain ⟨frame, -, isKept⟩ := exists_of_findSome?_eq_some isBinding
  exact Bindings.parameter_of_get? (Option.filter_eq_some_iff.mp isKept).1

theorem binding?_push
    {frame : Frame} (isPlain : frame.bindings = .none) (stack : Stack) (parameter : NodeId) :
    (stack.push frame).binding? parameter = stack.binding? parameter := by
  simp only [binding?, push, frames, findSome?_cons, isPlain]
  rfl

end Stack

/-- What a name is looked for among in a function: its parameters, then its template parameters. -/
def Scan.signature (tree : Tree) (id : NodeId) (parameters templateParameters : List NodeId)
    (name : String) : Scan :=
  let start : Scan := { name := some name, filter := .all, home := tree.rootOf id }
  let among := parameters.foldl (consider tree none) start
  if among.isDone then among else templateParameters.foldl (consider tree none) among

/-- A name that is found in the signature of a function is looked up no further. -/
theorem Lookup.reads_visible_in_function (isRunning : state.isCancelled = false)
    (isOutside : state.stack.top.statement = none)
    (isEntry : program.tree.node? state.stack.top.scope = some entry)
    (isMethod : entry.kind = .method result parameters body) (isLeaf : entry.children = [])
    (isDone :
      (signature program.tree state.stack.top.scope parameters entry.templateParameters
        name).isDone = true) :
    Reads program state (visible name .all)
      (signature program.tree state.stack.top.scope parameters entry.templateParameters
        name).found := by
  have scansMethod (scan : Scan) :
      Reads program state (scanMethod state.stack.top.scope scan)
        (parameters.foldl (consider program.tree none) scan) := by
    apply Reads.bind (.node isEntry)
    simp only [Node.isMethod, Node.parameters, isMethod]
    apply Reads.bind
    · apply Reads.bind .get
      rw [isOutside]
      exact .pure scan
    · exact .bind .tree (.pure _)
  have scansMembers (scan : Scan) :
      Reads program state (scanMembers .lexical none state.stack.top.scope scan)
        (entry.templateParameters.foldl (consider program.tree none) scan) := by
    apply reads_scanMembers isEntry
    rw [Scan.members, isLeaf]
    rfl
  have scansRest (scan : Scan) :
      Reads program state
        (unlessDone (scanMembers .lexical none state.stack.top.scope) scan)
        (if scan.isDone then scan
          else entry.templateParameters.foldl (consider program.tree none) scan) := by
    unfold unlessDone
    split
    · exact .pure _
    · exact scansMembers _
  exact reads_visible_of_isDone isRunning isEntry (scansMethod _) (scansRest _) isDone

/-- Around what is declared in a module there are only itself and the module. -/
theorem Tree.encloses_eq_false {ancestor : NodeId} {node module : Node}
    (isNode : tree.node? ancestor = some node) (isNoBlock : node.isBlock = false)
    (isEntry : tree.node? id = some entry) (isInside : entry.parent = some moduleId)
    (isBlock : entry.isBlock = true) (isModuleEntry : tree.node? moduleId = some module)
    (isModule : module.kind = .module) (isRoot : module.parent = none) :
    tree.encloses ancestor id = false := by
  have isOther : ancestor ≠ id := by
    rintro rfl
    simp [Option.some.inj (isNode.symm.trans isEntry), isBlock] at isNoBlock
  have isOtherModule : ancestor ≠ moduleId := by
    rintro rfl
    simp [Option.some.inj (isNode.symm.trans isModuleEntry), Node.isBlock, isModule] at isNoBlock
  rw [encloses, lineage, climb, parent?, isEntry, Option.bind_some, isInside]
  cases id.index with
  | zero => simp [climb, isOther]
  | succ steps => simp [climb, parent?, isModuleEntry, isRoot, isOther, isOtherModule]

namespace DeclaredSymbol

variable {reach : Reach} {base : Option Symbol}

theorem yields_visit_var {type : Option TypeExpr} {initializer : Option Expr}
    (isKind : entry.kind = .var type initializer)
    (reaches :
      reach.baseTypes = true →
        Yields program evaluator state (variableType id type initializer) base)
    (stops : reach.baseTypes = false → base = none) :
    Yields program evaluator state (visit id entry reach bindings)
      (some (.member id base bindings)) := by
  unfold visit
  rw [isKind]
  cases isReached : reach.baseTypes with
  | true => exact .bind (reaches isReached) (.pure _)
  | false =>
    rw [stops isReached]
    exact .pure _

theorem yields_visit_method (isKind : entry.kind = .method result parameters body)
    (reaches :
      reach.results = true → Yields program evaluator state (ReturnType.ofMethod id) base)
    (stops : reach.results = false → base = none) :
    Yields program evaluator state (visit id entry reach bindings)
      (some (.member id base bindings)) := by
  unfold visit
  rw [isKind]
  cases isReached : reach.results with
  | true => exact .bind (reaches isReached) (.pure _)
  | false =>
    rw [stops isReached]
    exact .pure _

theorem yields_templateParameter {kind : ParameterKind} (isRunning : state.isCancelled = false)
    (isPositive : state.guard.IsPositive) (isEntry : program.tree.node? id = some entry)
    (isKind : entry.kind = .templateParameter kind) (isPlain : entry.templateParameters = [])
    (isOutside : program.tree.encloses id state.stack.top.scope = false) :
    Yields program evaluator state (Query.symbolOf id .none)
      (some (.parameter (((state.stack.binding? id).filter (!·.isSelf)).getD (.unbound id)))) := by
  have isAttached : attached program.tree state.stack id entry .none = .none := by
    unfold attached
    rw [isOutside, isPlain]
    rfl
  apply yields_symbolOf isRunning isPositive isEntry
  rw [isAttached]
  unfold visit
  rw [isKind]
  refine .bind (.bind (.ofReads .get) ?_) (.pure _)
  have isBound :
      (state.reading program.tree id .none).stack.binding? id = state.stack.binding? id :=
    Stack.binding?_push rfl state.stack id
  have isOpen : (state.stack.binding? id <|> Bindings.none.get? id) = state.stack.binding? id := by
    cases state.stack.binding? id <;> rfl
  rw [isBound, isOpen]
  exact .pure _

end DeclaredSymbol

/--
A function of a module whose signature is built from its own type parameters.

Its type parameters take any type and have no default, and its parameters are
declared nowhere but in the signature. What its body declares stands in the
statements of the body, so the function has no members.
-/
structure PlainFunction {program : Program} (lone : LoneModule program) where
  id : NodeId
  entry : Node
  result : TypeExpr
  parameters : List NodeId
  body : Option StatementId
  isEntry : program.tree.node? id = some entry
  isMethod : entry.kind = .method (some result) parameters body
  isInside : entry.parent = some lone.moduleId
  isFree : entry.constraint = none
  isLeaf : entry.children = []
  arePlain :
    ∀ parameter ∈ entry.templateParameters, Template.IsPlainParameter program parameter
  areTyped :
    ∀ parameter ∈ parameters,
      ∃ node type initializer,
        program.tree.node? parameter = some node ∧
          node.kind = .var (some type) initializer ∧
          node.parent = some id ∧
            (node.templateParameters = [] ∧ node.constraint = none) ∧
            program.tree.declaringStatement? parameter = none ∧
              type.IsPattern (entry.templateParameters.map program.tree.nameOf)
  isResult : result.IsPattern (entry.templateParameters.map program.tree.nameOf)

namespace PlainFunction

variable {lone : LoneModule program} (function : PlainFunction lone) {name : String}
  {type : TypeExpr}

def names : List String :=
  function.entry.templateParameters.map program.tree.nameOf

/-- What a name is looked for among: the parameters, and then the type parameters. -/
def scan (name : String) : Scan :=
  .signature program.tree function.id function.parameters function.entry.templateParameters name

theorem mem_found_scan (isFound : declaration ∈ (function.scan name).found) :
    declaration.via = none ∧
      (declaration.node ∈ function.parameters ∨
        declaration.node ∈ function.entry.templateParameters) := by
  unfold scan signature at isFound
  dsimp only at isFound
  have isParameter
      (isMember :
        declaration ∈
          (function.parameters.foldl (consider program.tree none)
            { name := some name, filter := .all, home := program.tree.rootOf function.id }).found) :
      declaration.via = none ∧ declaration.node ∈ function.parameters := by
    rcases mem_found_foldl_consider isMember with isNothing | ⟨id, isId, rfl⟩
    · cases isNothing
    · exact ⟨rfl, isId⟩
  split at isFound
  · exact ⟨(isParameter isFound).1, .inl (isParameter isFound).2⟩
  · rcases mem_found_foldl_consider isFound with isEarlier | ⟨id, isId, rfl⟩
    · exact ⟨(isParameter isEarlier).1, .inl (isParameter isEarlier).2⟩
    · exact ⟨rfl, .inr isId⟩

theorem isDone_scan (isName : name ∈ function.names) : (function.scan name).isDone = true := by
  obtain ⟨parameter, isMember, rfl⟩ := mem_map.mp isName
  obtain ⟨node, isNode, isKind, -⟩ := function.arePlain parameter isMember
  unfold scan signature
  dsimp only
  split
  next isDone => exact isDone
  next =>
    obtain ⟨sameWants, sameName⟩ :=
      foldl_consider_spec program.tree
        { name := some (program.tree.nameOf parameter), filter := .all,
          home := program.tree.rootOf function.id } function.parameters
    refine isDone_foldl_consider (sameName ▸ rfl) isMember isNode ?_
    rw [sameWants]
    simp [wants, Tree.nameOf, isNode, Filter.accepts, isKind, Filter.all]

/--
A query that stands in the function, outside of its body.

Something is being resolved, and type parameters are bound to something. As long
as there are type parameters nothing is remembered.
-/
structure Stands (guard : Guard) (bound : NodeId → Option Binding) (state : State) : Prop where
  isRunning : state.isCancelled = false
  isScope : state.stack.top.scope = function.id
  isOutside : state.stack.top.statement = none
  isDefault : state.IsDefault
  sameGuard : state.guard = guard
  isPositive : state.guard.IsPositive
  sameBindings : ∀ parameter, state.stack.binding? parameter = bound parameter
  isQuiet : function.entry.templateParameters ≠ [] → ∀ name, state.memoKey? name = none

variable {function} {guard : Guard} {bound : NodeId → Option Binding}

theorem Stands.reads_visible
    (stands : function.Stands guard bound state) (isName : name ∈ function.names) :
    Reads program state (Lookup.visible name .all) (function.scan name).found := by
  have isScopeEntry : program.tree.node? state.stack.top.scope = some function.entry :=
    stands.isScope ▸ function.isEntry
  have isDone := function.isDone_scan isName
  unfold scan at isDone ⊢
  rw [← stands.isScope] at isDone ⊢
  exact Lookup.reads_visible_in_function stands.isRunning stands.isOutside isScopeEntry
    function.isMethod function.isLeaf isDone

theorem Stands.reading
    (stands : function.Stands guard bound state) (isParameter : parameter ∈ function.parameters) :
    function.Stands (guard.enter parameter) bound (state.reading program.tree parameter .none) := by
  obtain ⟨node, type, initializer, isNode, isKind, isInside, -, isUndeclared, -⟩ :=
    function.areTyped parameter isParameter
  exact
    { isRunning := stands.isRunning
      isScope := by
        simp [State.reading, State.push, Stack.push, Frame.ofDeclaration, Tree.scopeOf, isNode,
          Node.isBlock, isKind, isInside]
      isOutside := isUndeclared
      isDefault := stands.isDefault.reading program.tree parameter .none
      sameGuard := congrArg (·.enter parameter) stands.sameGuard
      isPositive := stands.isPositive.enter parameter
      sameBindings := fun other =>
        (Stack.binding?_push rfl state.stack other).trans (stands.sameBindings other)
      isQuiet := by
        simp [State.memoKey?, State.reading, State.push, Guard.isIdle_enter] }

/-- What a type parameter stands for where it is bound to something, or to nothing. -/
def boundSymbol (bound : NodeId → Option Binding) (parameter : NodeId) : Symbol :=
  .parameter (((bound parameter).filter (!·.isSelf)).getD (.unbound parameter))

theorem encloses_eq_false (function : PlainFunction lone) {node : Node}
    (isNode : program.tree.node? parameter = some node) (isNoBlock : node.isBlock = false) :
    program.tree.encloses parameter function.id = false :=
  Tree.encloses_eq_false isNode isNoBlock function.isEntry function.isInside
    (by simp [Node.isBlock, function.isMethod]) lone.isModuleEntry lone.isModule lone.isRoot

section

variable (stands : function.Stands guard bound state)
include stands

theorem Stands.yields_typeParameter (isParameter : parameter ∈ function.entry.templateParameters) :
    Yields program evaluator state (Query.symbolOf parameter .none)
      (some (boundSymbol bound parameter)) := by
  obtain ⟨node, isNode, isKind, isEmpty, -⟩ := function.arePlain parameter isParameter
  have isNoBlock : node.isBlock = false := by simp [Node.isBlock, isKind]
  have isOutside : program.tree.encloses parameter state.stack.top.scope = false := by
    rw [stands.isScope]
    exact function.encloses_eq_false isNode isNoBlock
  rw [boundSymbol, ← stands.sameBindings parameter]
  exact yields_templateParameter stands.isRunning stands.isPositive isNode isKind isEmpty isOutside

theorem Stands.isInert_boundSymbol (isParameter : parameter ∈ function.entry.templateParameters) :
    (boundSymbol bound parameter).IsInert program := by
  obtain ⟨node, isNode, -, isPlain⟩ := function.arePlain parameter isParameter
  have isOwn :
      (((bound parameter).filter (!·.isSelf)).getD (.unbound parameter)).parameter = parameter := by
    cases isBinding : (bound parameter).filter (!·.isSelf) with
    | none => rfl
    | some binding =>
      have isBound := (Option.filter_eq_some_iff.mp isBinding).1
      rw [← stands.sameBindings] at isBound
      exact Stack.parameter_of_binding? isBound
  refine ⟨?_, rfl, ?_⟩
  · rintro candidates ⟨⟩
  rintro owner ⟨⟩
  rw [isOwn]
  exact ⟨node, isNode, isPlain⟩

/--
Whether a query for symbols has one result in all states with the same guard and
bindings.
-/
def Determines (function : PlainFunction lone) (evaluator : Evaluator) (guard : Guard)
    (bound : NodeId → Option Binding) (type : TypeExpr) (symbols : List Symbol) : Prop :=
  ∀ state, function.Stands guard bound state →
    Yields program evaluator state (Query.resolve type) symbols

theorem Stands.yields_resolve {symbols : List Symbol} {rule : Bool → Query (List Symbol)}
    (isRule : Resolution.ofType type = Query.isCancelled >>= rule)
    (yields : Yields program evaluator state (rule false) symbols) :
    Yields program evaluator state (Query.resolve type) symbols := by
  apply Yields.ask
  change Yields program evaluator state (Resolution.ofType type) symbols
  rw [isRule]
  have reads : Reads program state Query.isCancelled false := stands.isRunning ▸ .isCancelled
  exact .bind (.ofReads reads) yields

end

/-- The declaration of a type parameter or of a parameter stands for one symbol. -/
def Declares (function : PlainFunction lone) (evaluator : Evaluator) (guard : Guard)
    (bound : NodeId → Option Binding) (id : NodeId) (symbol : Symbol) : Prop :=
  ∀ state, function.Stands guard bound state →
    Yields program evaluator state (Query.symbolOf id .none) (some symbol) ∧
      symbol.IsInert program

theorem exists_declares_parameter (isParameter : parameter ∈ function.parameters)
    (inside :
      ∀ type, type.IsPattern function.names →
        (guard.enter parameter).depth parameter ≤ Guard.baseLimit →
        ∃ symbols, function.Determines evaluator (guard.enter parameter) bound type symbols) :
    ∃ symbol, function.Declares evaluator guard bound parameter symbol := by
  obtain ⟨node, type, initializer, isNode, isKind, -, isPlain, -, isPattern⟩ :=
    function.areTyped parameter isParameter
  have isNoBlock : node.isBlock = false := by simp [Node.isBlock, isKind]
  have isInert (base : Option Symbol) : (Symbol.member parameter base .none).IsInert program :=
    Symbol.isInert_of_definition? isNode isPlain rfl rfl (by rintro _ ⟨⟩)
  have yields
      {state : State}
      {base : Option Symbol}
      (stands : function.Stands guard bound state)
      (visits :
        Yields program evaluator (state.reading program.tree parameter .none)
          (visit parameter node (.ofOptions {} ((guard.enter parameter).depth parameter)) .none)
          (some (.member parameter base .none))) :
      Yields program evaluator state (Query.symbolOf parameter .none)
        (some (.member parameter base .none)) := by
    have isAttached : attached program.tree state.stack parameter node .none = .none := by
      unfold attached
      rw [stands.isScope, function.encloses_eq_false isNode isNoBlock, isPlain.1]
      rfl
    apply yields_symbolOf stands.isRunning stands.isPositive isNode
    rw [isAttached, stands.isDefault.options, stands.sameGuard]
    exact visits
  by_cases isShallow : (guard.enter parameter).depth parameter ≤ Guard.baseLimit
  · obtain ⟨symbols, determines⟩ := inside type isPattern isShallow
    refine ⟨.member parameter (Symbol.ofCandidates? symbols) .none, fun state stands =>
      ⟨yields stands ?_, isInert _⟩⟩
    apply yields_visit_var isKind
    · intro _
      exact .bind (determines _ (stands.reading isParameter)) (.pure _)
    · simp [Reach.ofOptions, Nat.not_lt.mpr isShallow]
  · refine ⟨.member parameter none .none, fun state stands => ⟨yields stands ?_, isInert _⟩⟩
    apply yields_visit_var isKind
    · simp [Reach.ofOptions, Nat.lt_of_not_le isShallow]
    · exact fun _ => rfl

/-- The name of a type parameter stands for the same symbols wherever its declarations do. -/
theorem exists_determines_named (isName : name ∈ function.names)
    (declares :
      ∀ declaration ∈ (function.scan name).found,
        ∃ symbol, function.Declares evaluator guard bound declaration.node symbol) :
    ∃ symbols, function.Determines evaluator guard bound (.named name) symbols := by
  have hasSymbols : Nonempty Symbol := ⟨.primitive .void⟩
  choose! gives isGiven using declares
  have isTemplate : function.entry.templateParameters ≠ [] := by
    intro isEmpty
    rw [names, isEmpty] at isName
    cases isName
  refine ⟨(function.scan name).found.flatMap fun declaration =>
    Symbol.toldApart (some (gives declaration)), fun state stands => ?_⟩
  have areSingle :
      ∀ declaration ∈ (function.scan name).found,
        Symbol.toldApart (some (gives declaration)) = [gives declaration] := by
    intro declaration isFound
    exact (isGiven declaration isFound state stands).2.candidates_eq
  have areInert :
      ∀ symbol ∈ (function.scan name).found.flatMap fun declaration =>
        Symbol.toldApart (some (gives declaration)), symbol.IsInert program := by
    intro symbol isMember
    obtain ⟨declaration, isFound, isSymbol⟩ := mem_flatMap.mp isMember
    rw [areSingle declaration isFound, mem_singleton] at isSymbol
    exact isSymbol ▸ (isGiven declaration isFound state stands).2
  have isNonempty : (function.scan name).found ≠ [] := by
    have isDone := function.isDone_scan isName
    simp only [Scan.isDone, Bool.and_eq_true, Bool.not_eq_true', isEmpty_eq_false_iff] at isDone
    exact isDone.2
  have declaresAll :
      Yields program evaluator state (Query.symbolsOf (function.scan name).found)
        ((function.scan name).found.flatMap fun declaration =>
          Symbol.toldApart (some (gives declaration))) := by
    apply Query.yields_symbolsOf stands.isRunning
    intro declaration isFound
    rw [(function.mem_found_scan isFound).1]
    exact (isGiven declaration isFound state stands).1
  have resolves :
      Yields program evaluator state (Resolution.ofName name)
        ((function.scan name).found.flatMap fun declaration =>
          Symbol.toldApart (some (gives declaration))) := by
    apply Resolution.yields_ofName stands.isRunning (stands.isQuiet isTemplate name)
    · intro isEmpty
      obtain ⟨declaration, isFound⟩ := exists_mem_of_ne_nil _ isNonempty
      have isNothing := flatMap_eq_nil_iff.mp isEmpty declaration isFound
      rw [areSingle declaration isFound] at isNothing
      cases isNothing
    · apply Resolution.yields_searchName stands.isRunning _ areInert
      exact Lookup.settles_candidates (.ofReads (stands.reads_visible isName)) isNonempty declaresAll
  exact stands.yields_resolve rfl resolves

/-- A type of the signature stands for the same symbols whatever else the query has done. -/
theorem exists_determines (evaluator : Evaluator) (guard : Guard) (bound : NodeId → Option Binding)
    (isPattern : type.IsPattern function.names) :
    ∃ symbols, function.Determines evaluator guard bound type symbols := by
  -- A parameter with the name of a type parameter leads back to the signature.
  induction isBudget : guard.budget program.tree using Nat.strongRecOn generalizing guard type with
  | ind budget ih =>
    induction isPattern with
    | basic type =>
      exact ⟨[.primitive type], fun state stands => stands.yields_resolve rfl (.pure _)⟩
    | named isName =>
      apply exists_determines_named isName
      intro declaration isFound
      rcases (function.mem_found_scan isFound).2 with isParameter | isTypeParameter
      · apply exists_declares_parameter isParameter
        intro other isOther isShallow
        obtain ⟨node, _, _, isNode, -⟩ := function.areTyped declaration.node isParameter
        have isLess : (guard.enter declaration.node).budget program.tree < budget :=
          isBudget ▸ Guard.budget_enter_lt (by rw [isNode]; rfl)
            (Nat.le_trans isShallow (by decide))
        exact ih _ isLess _ isOther rfl
      · exact ⟨_, fun state stands =>
          ⟨stands.yields_typeParameter isTypeParameter, stands.isInert_boundSymbol isTypeParameter⟩⟩
    | pointer _ targetHypothesis =>
      obtain ⟨symbols, determines⟩ := targetHypothesis
      refine ⟨symbols.map fun symbol => .pointer (some symbol), fun state stands => ?_⟩
      exact stands.yields_resolve rfl (Yields.bind (determines state stands) (.pure _))
    | dynamicArray _ elementHypothesis =>
      obtain ⟨symbols, determines⟩ := elementHypothesis
      refine ⟨symbols.map fun symbol => .dynamicArray (some symbol), fun state stands => ?_⟩
      exact stands.yields_resolve rfl (Yields.bind (determines state stands) (.pure _))

end PlainFunction

end DScope
