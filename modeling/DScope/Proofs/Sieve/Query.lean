import DScope.Proofs.Footprint
import DScope.Proofs.Sieve.Scan

namespace DScope

/-!
# Queries that keep to a sieve

A query is followed on two programs that agree at the places that pass a sieve. The
moves of the query are the same on both, and what it hands on passes. A rule keeps to
the sieve as soon as its parts do, so what holds of every move holds of all rules.
-/

open List Query

/-- Whether a run ended at a place or a parameter that is not there. -/
def Halt.isMissing : Halt → Bool
  | .missingNode | .missingStatement | .missingParameter => true
  | .negationOverflow | .additionOverflow | .depthExceeded => false

namespace Sieve

/-- Whether a frame over the default options passes the sieve. -/
structure PassesFrame (sieve : Sieve) (defaults : Options) (frame : Frame) : Prop where
  scope : sieve.node frame.scope
  statement : ∀ {statement}, frame.statement = some statement → sieve.statement statement
  bindings : sieve.Passes frame.bindings
  options : sieve.options (frame.overrides.apply defaults)

/-- Whether all frames of a state pass the sieve. -/
def PassesStack (sieve : Sieve) (state : State) : Prop :=
  ∀ frame ∈ state.stack.frames, sieve.PassesFrame state.defaults frame

theorem PassesStack.top {sieve : Sieve} {state : State} (passes : sieve.PassesStack state) :
    sieve.PassesFrame state.defaults state.stack.top :=
  passes state.stack.top mem_cons_self

theorem PassesStack.binding?
    {sieve : Sieve} {state : State} (passes : sieve.PassesStack state) (parameter : NodeId) :
    sieve.Passes (state.stack.binding? parameter) := by
  rw [passes_option]
  intro binding isBinding
  obtain ⟨frame, isFrame, isBound⟩ := exists_of_findSome?_eq_some isBinding
  have inFrame := (passes frame isFrame).bindings.get? parameter
  exact passes_option.mp (inFrame.optionFilter _) binding isBound

/-- Whether a question names only what passes the sieve. -/
def PassesQuestion (sieve : Sieve) : Question → Prop
  | .symbol node bindings => sieve.node node ∧ sieve.Passes bindings
  | .type _ | .value _ | .typing _ => True

/-- Whether the answer to a question passes the sieve. -/
def PassesAnswer (sieve : Sieve) : (question : Question) → question.Answer → Prop
  | .type _, (symbols : List Symbol) => sieve.Passes symbols
  | .symbol .., (symbol : Option Symbol) => sieve.Passes symbol
  | .value _, (outcome : Except EvalError Value) => sieve.Passes outcome
  | .typing _, (type : Option Symbol) => sieve.Passes type

end Sieve

/-- Two programs that agree on whatever passes a sieve. -/
structure Realm extends Sieve where
  narrow : Program
  wide : Program
  fits : toSieve.Fits narrow wide
  /-- What may be asked inside a declaration that has been entered for the given time. -/
  within : Nat → Question → Prop
  /-- Whether a query may itself blame an argument of a template. -/
  blames : Prop := True

/--
A query on the narrow program and its counterpart on the wide one make the same moves.

They are orderly, hand on only what passes, and end only in what has the given property.
-/
inductive Realm.Relates (realm : Realm) :
    {α : Type} → Standing → (Question → Prop) → Query α → Query α → (α → Prop) → Prop
  | pure {α : Type} {standing : Standing} {asks : Question → Prop} {value : α} {post : α → Prop}
      (isPost : post value) :
      Relates realm standing asks (Pure.pure value) (Pure.pure value) post
  | mono {α : Type} {standing : Standing} {asks : Question → Prop} {query widened : Query α}
      {post other : α → Prop}
      (relates : Relates realm standing asks query widened post)
      (implies : ∀ value, post value → other value) :
      Relates realm standing asks query widened other
  | bind {α β : Type} {standing : Standing} {asks : Question → Prop}
      {query widened : Query α} {next widenedNext : α → Query β} {post : α → Prop}
      {later : β → Prop}
      (first : Relates realm standing asks query widened post)
      (second :
        ∀ value, post value → Relates realm standing asks (next value) (widenedNext value) later) :
      Relates realm standing asks (query >>= next) (widened >>= widenedNext) later
  | halt {α : Type} {standing : Standing} {asks : Question → Prop} {reason : Halt}
      {post : α → Prop}
      (isOwn : reason ≠ .depthExceeded)
      (isGap : reason.isMissing = true → realm.hasGaps) :
      Relates realm standing asks (throw reason : Query α) (throw reason) post
  | reading {α : Type} {standing : Standing} {asks : Question → Prop}
      {next widenedNext : Program → Query α} {post : α → Prop}
      (after : Relates realm standing asks (next realm.narrow) (widenedNext realm.wide) post) :
      Relates realm standing asks (Query.program >>= next) (Query.program >>= widenedNext) post
  | asking {standing : Standing} {asks : Question → Prop} {question : Question}
      (isListed : asks question)
      (isPermitted : standing.permits question)
      (passes : realm.PassesQuestion question) :
      Relates realm standing asks (Query.ask question) (Query.ask question)
        (realm.PassesAnswer question)
  | seeing {α : Type} {standing : Standing} {asks : Question → Prop}
      {next widenedNext : State → Query α} {post : α → Prop}
      (seesView : ∀ first second, State.view first = State.view second → next first = next second)
      (after :
        ∀ state, realm.PassesStack state →
          Relates realm standing asks (next state) (widenedNext state) post) :
      Relates realm standing asks (get >>= next) (get >>= widenedNext) post
  | reporting {standing : Standing} {asks : Question → Prop} {diagnostic : Diagnostic}
      (passes : realm.Passes diagnostic)
      (isOwn : diagnostic.isDeduction = true → realm.blames) :
      Relates realm standing asks (Query.report diagnostic) (Query.report diagnostic) fun _ => True
  | framed {α : Type} {standing : Standing} {asks : Question → Prop} {frame : Frame}
      {query widened : Query α} {post : α → Prop}
      (opens : frame.OpensFrom realm.narrow.tree standing)
      (isScope : realm.node frame.scope)
      (isStatement : ∀ {statement}, frame.statement = some statement → realm.statement statement)
      (areBound : realm.Passes frame.bindings)
      (inner : Relates realm standing.opened asks query widened post) :
      Relates realm standing asks (Query.withFrame frame query) (Query.withFrame frame widened)
        fun result => ∀ value ∈ result, post value
  | overriding {α : Type} {standing : Standing} {asks : Question → Prop} {overrides : Overrides}
      {query widened : Query α} {post : α → Prop}
      (clearsNothing : overrides.disabled = {})
      (inner : Relates realm standing.underOverrides asks query widened post) :
      Relates realm standing asks (Query.withOverrides overrides query)
        (Query.withOverrides overrides widened) fun result => ∀ value ∈ result, post value
  | resolving {α : Type} {standing : Standing} {asks : Question → Prop} {node : NodeId}
      {query widened : Query α} {post : α → Prop}
      (inner : Relates realm .inside asks query widened post) :
      Relates realm standing asks (Query.whileResolving node query)
        (Query.whileResolving node widened) fun result => ∀ value ∈ result, post value
  | visiting {α : Type} {standing : Standing} {asks : Question → Prop} {node : NodeId}
      {body widenedBody : Nat → Query α} {post : α → Prop}
      (isDeclared : (realm.narrow.tree.node? node).isSome)
      (inner :
        ∀ depth, Relates realm .inside (realm.within depth) (body depth) (widenedBody depth) post) :
      Relates realm standing asks (Query.visiting node body) (Query.visiting node widenedBody) post
  | evaluating {α : Type} {standing : Standing} {asks : Question → Prop} {fallback : α}
      {query widened : Query α} {post : α → Prop}
      (isFallback : post fallback)
      (inner : Relates realm standing asks query widened post) :
      Relates realm standing asks (Query.throughEvaluator fallback query)
        (Query.throughEvaluator fallback widened) post
  | remembering {standing : Standing} {asks : Question → Prop} {name : String}
      (isPlain : standing ≠ .overridden)
      (inner :
        Relates realm standing asks (Resolution.searchName name) (Resolution.searchName name)
          realm.Passes) :
      Relates realm standing asks (Resolution.ofName name) (Resolution.ofName name) realm.Passes

namespace Realm

variable {realm : Realm} {standing : Standing} {asks : Question → Prop} {α β : Type}
  {query widened : Query α} {post : α → Prop} {later : β → Prop}

/-- A query keeps to the realm and gives what passes. -/
abbrev Confined [Composite α] (realm : Realm) (standing : Standing) (asks : Question → Prop)
    (query : Query α) : Prop :=
  realm.Relates standing asks query query realm.Passes

namespace Relates

variable {id node : NodeId} {bindings : Bindings} {items : List α}

/-! ## Reading the program -/

theorem tree_bind {next widenedNext : Tree → Query α}
    (after :
      realm.Relates standing asks (next realm.narrow.tree) (widenedNext realm.wide.tree) post) :
    realm.Relates standing asks (tree >>= next) (tree >>= widenedNext) post := by
  change
    realm.Relates standing asks (program >>= fun program => next program.tree)
      (program >>= fun program => widenedNext program.tree) post
  exact .reading after

theorem node_bind {next widenedNext : Node → Query α} (isNode : realm.node id)
    (after :
      ∀ entry, realm.narrow.tree.node? id = some entry → realm.PassesEntry entry →
        realm.Relates standing asks (next entry) (widenedNext entry) post) :
    realm.Relates standing asks (Query.node id >>= next) (Query.node id >>= widenedNext) post := by
  unfold Query.node
  rw [bind_assoc, bind_assoc]
  apply tree_bind
  rw [realm.fits.tree.node? isNode]
  cases isEntry : realm.narrow.tree.node? id with
  | none => exact .halt (by decide) fun _ => realm.fits.tree.missingNode isNode isEntry
  | some entry =>
    exact after entry isEntry (realm.fits.tree.entry isNode isEntry)

theorem statement_bind
    {id : StatementId} {next widenedNext : Statement → Query α} (isStatement : realm.statement id)
    (after :
      ∀ entry, realm.narrow.tree.statement? id = some entry → realm.PassesStatement entry →
        realm.Relates standing asks (next entry) (widenedNext entry) post) :
    realm.Relates standing asks (statement id >>= next) (statement id >>= widenedNext) post := by
  unfold statement
  rw [bind_assoc, bind_assoc]
  apply tree_bind
  rw [realm.fits.tree.statement? isStatement]
  cases isEntry : realm.narrow.tree.statement? id with
  | none => exact .halt (by decide) fun _ => realm.fits.tree.missingStatement isStatement isEntry
  | some entry =>
    exact after entry isEntry (realm.fits.tree.statement isStatement isEntry)

/-! ## Looking at the state -/

theorem isCancelled : realm.Relates standing asks isCancelled isCancelled fun _ => True :=
  .seeing (fun _ _ same => congrArg (fun view : View => Pure.pure view.isCancelled) same)
    fun _ _ => .pure trivial

theorem options : realm.Relates standing asks options options realm.options :=
  .seeing (fun _ _ same => congrArg (fun view : View => Pure.pure view.options) same)
    fun _ passes => .pure passes.top.options

theorem scope : realm.Relates standing asks scope scope realm.node :=
  .seeing (fun _ _ same => congrArg (fun view : View => Pure.pure view.scope) same)
    fun _ passes => .pure passes.top.scope

theorem reportsFailures :
    realm.Relates standing asks reportsFailures reportsFailures fun _ => True :=
  .seeing
    (fun _ _ same =>
      congrArg (fun view : View => Pure.pure (view.guard.isIdle && !view.isCancelled)) same)
    fun _ _ => .pure trivial

theorem reportMissing (subject : String) :
    realm.Relates standing asks (Query.reportMissing subject) (Query.reportMissing subject)
      fun _ => True := by
  refine reportsFailures.bind fun reports _ => ?_
  split
  · exact .reporting (Sieve.passes_nothingFound.mpr Sieve.passes_none) nofun
  · exact .pure trivial

/-! ## Frames -/

theorem optional [Composite α] {query widened : Query (Option α)}
    (relates :
      realm.Relates standing asks query widened fun result =>
        ∀ value ∈ result, realm.Passes value) :
    realm.Relates standing asks query widened realm.Passes :=
  relates.mono fun _ => Sieve.passes_option.mpr

theorem withScope
    [Composite α] {scope : NodeId} (isScope : realm.node scope) (areBound : realm.Passes bindings)
    (inner : realm.Relates standing.opened asks query widened realm.Passes) :
    realm.Relates standing asks (withFrame { scope, bindings } query)
      (withFrame { scope, bindings } widened) realm.Passes :=
  (framed ⟨rfl, .inr fun _ stands => by cases stands⟩ isScope (fun stands => by cases stands)
    areBound inner).optional

theorem withDeclaration [Composite α] (isNode : realm.node id) (areBound : realm.Passes bindings)
    (inner : realm.Relates .inside asks query widened realm.Passes) :
    realm.Relates .inside asks
      (withFrame (Frame.ofDeclaration realm.narrow.tree id bindings) query)
      (withFrame (Frame.ofDeclaration realm.wide.tree id bindings) widened)
      realm.Passes := by
  have covers := realm.fits.tree
  have sameFrame :
      Frame.ofDeclaration realm.wide.tree id bindings =
        Frame.ofDeclaration realm.narrow.tree id bindings := by
    rw [Frame.ofDeclaration, Frame.ofDeclaration, covers.scopeOf isNode,
      covers.declaringStatement? isNode]
  rw [sameFrame]
  exact (framed ⟨rfl, .inl rfl⟩ (covers.passes_scopeOf isNode)
    (covers.passes_declaringStatement? isNode) areBound inner).optional

/-! ## Questions -/

section Questions

variable {type : TypeExpr} {expression : Expr}

theorem symbolOf (raised : realm.narrow.tree.RaisesOnly asks) (isNode : realm.node node)
    (areBound : realm.Passes bindings) :
    realm.Confined standing asks (symbolOf node bindings) :=
  .asking (raised _ (.symbol node bindings)) (standing.permits_symbol node bindings)
    ⟨isNode, areBound⟩

theorem symbolThrough {via : Option Symbol} (raised : realm.narrow.tree.RaisesOnly asks)
    (isNode : realm.node node) (isVia : realm.Passes via) :
    realm.Confined standing asks (symbolThrough node via) :=
  symbolOf raised isNode
    ((isVia.optionMap fun _ => Sieve.Passes.bindings).getD Sieve.passes_noBindings)

variable (isPlain : standing ≠ .overridden)

include isPlain

theorem resolve (isListed : asks (.type type)) : realm.Confined standing asks (resolve type) :=
  .asking isListed (standing.permits_of_ne_overridden isPlain _) trivial

theorem resolveOne (isListed : asks (.type type)) :
    realm.Confined standing asks (resolveOne type) :=
  (resolve isPlain isListed).bind fun _ passes => .pure passes.ofCandidates?

theorem valueOf (isListed : asks (.value expression)) :
    realm.Confined standing asks (valueOf expression) :=
  .asking isListed (standing.permits_of_ne_overridden isPlain _) trivial

theorem typingOf (isListed : asks (.typing expression)) :
    realm.Confined standing asks (typingOf expression) :=
  .asking isListed (standing.permits_of_ne_overridden isPlain _) trivial

theorem evaluate (isListed : asks (.value expression)) :
    realm.Confined standing asks (evaluate expression) :=
  .evaluating Sieve.passes_error (valueOf isPlain isListed)

theorem evaluateType (isListed : asks (.typing expression)) :
    realm.Confined standing asks (evaluateType expression) :=
  .evaluating Sieve.passes_none (typingOf isPlain isListed)

end Questions

/-! ## Lists -/

theorem foldlM {step widenedStep : β → α → Query β}
    (each :
      ∀ result item, item ∈ items → later result →
        realm.Relates standing asks (step result item) (widenedStep result item) later)
    {start : β} (isStart : later start) :
    realm.Relates standing asks (items.foldlM step start) (items.foldlM widenedStep start)
      later := by
  induction items generalizing start with
  | nil => exact .pure isStart
  | cons item rest ih =>
    refine (each start item mem_cons_self isStart).bind fun result isResult => ?_
    exact ih (fun result later member => each result later (mem_cons_of_mem item member)) isResult

theorem mapM {step : α → Query β}
    (each : ∀ item ∈ items, realm.Relates standing asks (step item) (step item) later) :
    realm.Relates standing asks (items.mapM step) (items.mapM step)
      fun results => ∀ result ∈ results, later result := by
  induction items with
  | nil => exact .pure fun _ member => by cases member
  | cons item rest ih =>
    rw [mapM_cons]
    refine (each item mem_cons_self).bind fun first isFirst => ?_
    refine (ih (forall_mem_cons.mp each).2).bind fun others areOthers => ?_
    exact .pure (forall_mem_cons.mpr ⟨isFirst, areOthers⟩)

theorem listed [Composite α] {query widened : Query (List α)}
    (relates :
      realm.Relates standing asks query widened fun items => ∀ item ∈ items, realm.Passes item) :
    realm.Relates standing asks query widened realm.Passes :=
  relates.mono fun _ => Sieve.passes_list.mpr

theorem filterM {test : α → Query Bool}
    (each : ∀ item ∈ items, realm.Relates standing asks (test item) (test item) fun _ => True) :
    realm.Relates standing asks (items.filterM test) (items.filterM test)
      fun kept => ∀ item ∈ kept, item ∈ items := by
  have auxiliary :
      ∀ rest kept : List α, (∀ item ∈ rest, item ∈ items) → (∀ item ∈ kept, item ∈ items) →
        realm.Relates standing asks (rest.filterAuxM test kept) (rest.filterAuxM test kept)
          fun kept => ∀ item ∈ kept, item ∈ items := by
    intro rest
    induction rest with
    | nil => exact fun kept _ areKept => .pure areKept
    | cons item rest ih =>
      intro kept areItems areKept
      obtain ⟨isItem, areItems⟩ := forall_mem_cons.mp areItems
      refine (each item isItem).bind fun isKept _ => ih _ areItems ?_
      cases isKept with
      | true => exact forall_mem_cons.mpr ⟨isItem, areKept⟩
      | false => exact areKept
  refine (auxiliary items [] (fun _ member => member) (by simp)).bind fun kept areKept => ?_
  exact .pure fun item member => areKept item (mem_reverse.mp member)

theorem collect [Composite β] {give : α → Query (List β)}
    (each : ∀ item ∈ items, realm.Confined standing asks (give item)) :
    realm.Confined standing asks (collect give items) := by
  have extending :
      ∀ found, realm.Passes found →
        realm.Confined standing asks (collectFrom give found items) := by
    induction items with
    | nil => exact fun found areFound => .pure areFound
    | cons item rest ih =>
      intro found areFound
      refine isCancelled.bind fun stops _ => ?_
      split
      · exact .pure Sieve.passes_nil
      · refine (each item mem_cons_self).bind fun more isMore => ?_
        exact ih
          (forall_mem_cons.mp each).2 _
          (Sieve.passes_append.mpr ⟨areFound, isMore⟩)
  exact extending [] Sieve.passes_nil

end Relates

end Realm

end DScope
