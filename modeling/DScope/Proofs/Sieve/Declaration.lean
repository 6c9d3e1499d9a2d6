import DScope.Proofs.Sieve.MemberAccess

namespace DScope

/-!
# Reading a declaration keeps to a realm

A declaration that passes is read in a frame that passes, and hands on bindings
that pass. A base is looked up and an alias is followed only under options that
allow it, so the symbol has bases and tags only where these may pass.
-/

open Sieve List Option DeclaredSymbol Reach

variable {id method : NodeId} {tree : Tree}

/-! ## Bindings of the frames around a declaration -/

namespace Sieve

variable {sieve : Sieve} {narrow wide : Tree} {state : State}

theorem enclosing_subset (tree : Tree) (inner : Frame) (frames : List Frame) :
    Stack.enclosing tree inner frames ⊆ frames := by
  induction frames generalizing inner with
  | nil => exact Subset.refl _
  | cons frame rest ih =>
    unfold Stack.enclosing
    split
    · exact cons_subset_cons frame (ih frame)
    · exact nil_subset _

theorem Covers.enclosing (covers : sieve.Covers narrow wide) {inner : Frame} {frames : List Frame}
    (isInner : sieve.node inner.scope) (areFrames : ∀ frame ∈ frames, sieve.node frame.scope) :
    Stack.enclosing wide inner frames = Stack.enclosing narrow inner frames := by
  induction frames generalizing inner with
  | nil => rfl
  | cons frame rest ih =>
    obtain ⟨isFrame, areFrames⟩ := forall_mem_cons.mp areFrames
    unfold Stack.enclosing
    rw [covers.encloses isInner, ih isFrame areFrames]

theorem Covers.bindingsInHierarchy
    (covers : sieve.Covers narrow wide) (passes : sieve.PassesStack state) :
    state.stack.bindingsInHierarchy wide = state.stack.bindingsInHierarchy narrow := by
  have areBelow : ∀ frame ∈ state.stack.below, sieve.node frame.scope :=
    fun frame isFrame => (passes frame (mem_cons_of_mem _ isFrame)).scope
  rw [Stack.bindingsInHierarchy, Stack.bindingsInHierarchy,
    covers.enclosing passes.top.scope areBelow]

theorem PassesStack.bindingsInHierarchy (passes : sieve.PassesStack state) (tree : Tree) :
    sieve.Passes (state.stack.bindingsInHierarchy tree) := by
  have areBound :
      sieve.Passes
        ((state.stack.top :: Stack.enclosing tree state.stack.top state.stack.below).flatMap
          (·.bindings.filled)) := by
    rw [passes_list]
    intro binding isBinding
    obtain ⟨frame, isFrame, isFilled⟩ := mem_flatMap.mp isBinding
    have isHeld := cons_subset_cons _ (enclosing_subset tree _ _) isFrame
    exact (passes frame isHeld).bindings.filled.mem isFilled
  refine areBound.foldl (fun merged binding isMerged isBinding => ?_) passes_nil
  unfold Stack.addBinding
  split
  · exact isMerged
  · exact passes_append.mpr ⟨isMerged, passes_cons.mpr ⟨isBinding, passes_nil⟩⟩

theorem Covers.inherit (covers : sieve.Covers narrow wide) (isNode : sieve.node id)
    {binding : Binding} (isBinding : sieve.Passes binding) (bindings : Bindings) :
    inherit wide id bindings binding =
      inherit narrow id bindings binding := by
  have isParameter := (passes_binding.mp isBinding).1
  simp only [DeclaredSymbol.inherit, covers.parent? isParameter, covers.encloses isNode]

theorem Covers.attached (covers : sieve.Covers narrow wide) (passes : sieve.PassesStack state)
    (isNode : sieve.node id) (entry : Node) (given : Bindings) :
    attached wide state.stack id entry given =
      attached narrow state.stack id entry given := by
  have areBound := passes.bindingsInHierarchy narrow
  unfold DeclaredSymbol.attached
  dsimp only
  rw [covers.encloses passes.top.scope, covers.bindingsInHierarchy passes,
    foldl_ext _ _ _ fun bindings binding isBound =>
      covers.inherit isNode (areBound.mem isBound) bindings]

theorem PassesStack.attached
    (passes : sieve.PassesStack state) {entry : Node} (isEntry : sieve.PassesEntry entry)
    {given : Bindings} (areGiven : sieve.Passes given) (tree : Tree) (id : NodeId) :
    sieve.Passes (attached tree state.stack id entry given) := by
  have isOwn := isEntry.templateParameters.forParameters.mergeMissing areGiven
  unfold DeclaredSymbol.attached
  split
  · refine isEntry.templateParameters.foldl (fun bindings parameter areBound isNode => ?_) ?_
    · unfold bindToSelf
      split
      · exact areBound
      · exact areBound.set (passes_ofSelf (passes_node.mp isNode))
    · refine (passes.bindingsInHierarchy tree).foldl (fun bindings binding areBound isBinding => ?_)
        isOwn
      unfold inherit
      split
      · exact areBound.set isBinding
      · exact areBound
  · exact isOwn

end Sieve

variable {realm : Realm} {standing : Standing} {asks : Question → Prop}

namespace ReturnType

variable (raised : realm.narrow.tree.RaisesOnly asks)

theorem firstReturned?_statement {body statement : StatementId} {value : Expr}
    (returned : firstReturned? tree body = some (statement, value)) :
    ∃ entry, tree.statement? statement = some entry ∧ entry.kind = .returning (some value) := by
  obtain ⟨id, _, found⟩ := exists_of_findSome?_eq_some returned
  cases entryFound : tree.statement? id with
  | none =>
    simp [entryFound] at found
  | some entry =>
    simp only [entryFound, bind_eq_bind, bind_some] at found
    split at found
    next held shape =>
      split at found
      · cases found
      · cases found
        exact ⟨entry, entryFound, shape⟩
    next =>
      cases found

include raised

theorem ofMethod_confined (isPlain : standing ≠ .overridden) (isMethod : realm.node method) :
    realm.Confined standing asks (ofMethod method) := by
  refine .node_bind isMethod fun entry isFound isEntry => ?_
  split
  next result parameters body isKind =>
    have isRaised : realm.narrow.tree.Raises (.type result) :=
      .declaration isFound (by simp [Node.sharedQuestions, isKind]) (Nat.le_refl _)
    exact .resolveOne isPlain (raised _ isRaised)
  next parameters body isKind =>
    have isBody := isEntry.body isKind
    refine .tree_bind ?_
    rw [realm.fits.tree.firstReturned? isBody]
    split
    next => exact .pure (passes_some.mpr (passes_basic .void))
    next statement value isReturned =>
      have isStatement := realm.fits.tree.passes_firstReturned? isBody isReturned
      obtain ⟨held, isHeld, isReturning⟩ := firstReturned?_statement isReturned
      have isRaised : realm.narrow.tree.Raises (.typing value) :=
        .statement isHeld (by simp [Statement.questions, isReturning])
      have ownBody : realm.narrow.tree.body? method = some body := by
        simp [Tree.body?, isFound, isKind]
      refine .bind (.optional (.framed ⟨rfl, .inr fun stands isStanding => ?_⟩ isMethod
        (fun stands => (some.inj stands) ▸ isStatement) passes_noBindings
        (.evaluateType standing.opened_ne_overridden (raised _ isRaised))))
        fun type isType => .pure ?_
      · cases isStanding
        exact ⟨body, value, ownBody, isReturned⟩
      exact isType.join.optionMap fun _ => Passes.stripped
  next => exact .pure passes_none

theorem insideMethod_confined (isMethod : realm.node method) :
    realm.Confined standing asks (insideMethod method) :=
  .bind (.withScope isMethod passes_noBindings
    (ofMethod_confined raised standing.opened_ne_overridden isMethod))
    fun _ isType => .pure isType.join

theorem around_confined : realm.Confined standing asks around := by
  refine .tree_bind (Realm.Relates.scope.bind fun scope isScope => ?_)
  have areAround := realm.fits.tree.passes_lineage isScope
  have sameMethod :
      ((realm.wide.tree.lineage scope).find? fun id =>
          (realm.wide.tree.node? id).any (·.isMethod)) =
        (realm.narrow.tree.lineage scope).find? fun id =>
          (realm.narrow.tree.node? id).any (·.isMethod) := by
    rw [realm.fits.tree.lineage isScope]
    exact find?_congr fun id isAround => by
      rw [realm.fits.tree.node? (passes_node.mp (areAround.mem isAround))]
  rw [sameMethod]
  split
  next method isFound =>
    exact insideMethod_confined raised
      (passes_node.mp (areAround.mem (mem_of_find?_eq_some isFound)))
  next => exact .pure passes_none

end ReturnType

namespace Iteration

variable {owner : Symbol} {place : Place} {declarations : List Declaration} {types : List TypeExpr}

theorem callbackTypes?_eq {method : Node} (isMethod : realm.PassesEntry method) (count : Nat) :
    callbackTypes? realm.wide.tree count method =
      callbackTypes? realm.narrow.tree count method := by
  unfold callbackTypes?
  cases isFirst : method.parameters.head? with
  | none => rfl
  | some callback =>
    have isCallback : realm.node callback := by
      simpa [isFirst] using isMethod.parameters.head?
    simp only [bind_eq_bind, bind_some, realm.fits.tree.node? isCallback]

theorem fittingCallback?_eq (areDeclared : realm.Passes declarations) (count : Nat) :
    fittingCallback? realm.wide.tree count declarations =
      fittingCallback? realm.narrow.tree count declarations := by
  refine findSome?_congr fun declaration isDeclared => ?_
  have isNode := (passes_declaration.mp (areDeclared.mem isDeclared)).1
  rw [realm.fits.tree.node? isNode]
  cases isEntry : realm.narrow.tree.node? declaration.node with
  | none => rfl
  | some method =>
    simp only [bind_eq_bind, bind_some, callbackTypes?_eq (realm.fits.tree.entry isNode isEntry)]

theorem fittingCallback?_fits {count : Nat}
    (isFitting : fittingCallback? tree count declarations = some (method, types)) :
    (∃ declaration ∈ declarations, declaration.node = method) ∧ types.length = count := by
  obtain ⟨declaration, isDeclared, isFound⟩ := exists_of_findSome?_eq_some isFitting
  obtain ⟨entry, -, isFound⟩ := bind_eq_some_iff.mp isFound
  obtain ⟨found, areTypes, isFound⟩ := bind_eq_some_iff.mp isFound
  cases isFound
  refine ⟨⟨declaration, isDeclared, rfl⟩, ?_⟩
  obtain ⟨callback, -, areTypes⟩ := bind_eq_some_iff.mp areTypes
  obtain ⟨parameter, -, areTypes⟩ := bind_eq_some_iff.mp areTypes
  split at areTypes
  · split at areTypes
    next sameLength =>
      cases areTypes
      exact beq_iff_eq.mp sameLength
    next => cases areTypes
  · cases areTypes

theorem fittingCallback?_raises {count : Nat}
    (fitting : fittingCallback? tree count declarations = some (method, types)) {type : TypeExpr}
    (member : type ∈ types) : tree.Raises (.type type) := by
  obtain ⟨declaration, _, found⟩ := exists_of_findSome?_eq_some fitting
  simp only [bind_eq_bind, bind_eq_some_iff] at found
  obtain ⟨entry, entryFound, callback, callbackFound, isResult⟩ := found
  cases isResult
  unfold callbackTypes? at callbackFound
  simp only [bind_eq_bind, bind_eq_some_iff] at callbackFound
  obtain ⟨parameter, isHead, parameterEntry, parameterFound, typed⟩ := callbackFound
  split at typed
  next result parameters isFunction isTyped =>
    split at typed
    · exact .parameter entryFound (mem_of_head? isHead) parameterFound isTyped (by grind)
    · cases typed
  next =>
    cases typed

variable (raised : realm.narrow.tree.RaisesOnly asks)

include raised

theorem appliedType_confined (isOwner : realm.Passes owner) (isInside : place.index < place.count) :
    realm.Confined standing asks (appliedType owner place) := by
  refine (Lookup.members_confined raised isOwner _ .onlyMethods).bind fun declarations areDeclared => ?_
  refine .tree_bind ?_
  rw [fittingCallback?_eq areDeclared]
  split
  next => exact .pure passes_none
  next method types isFitting =>
    obtain ⟨⟨declaration, isDeclared, isMethod⟩, sameLength⟩ := fittingCallback?_fits isFitting
    split
    next isMissing =>
      have isOutside : types.length ≤ place.index := getElem?_eq_none_iff.mp isMissing
      omega
    next type isType =>
      have isRaised := fittingCallback?_raises isFitting (mem_of_getElem? isType)
      have isNode := (passes_declaration.mp (areDeclared.mem isDeclared)).1
      rw [isMethod] at isNode
      exact .bind (.withScope isNode isOwner.bindings
        (.resolveOne standing.opened_ne_overridden (raised _ isRaised))) fun _ isType =>
          .pure isType.join

theorem shownType_confined (isOwner : realm.Passes owner) :
    realm.Confined standing asks (shownType owner place) :=
  (MemberAccess.candidates_confined raised isOwner _ false).bind fun _ areFound =>
    .pure (areFound.findSome? fun _ => Passes.strip)

theorem variableType_confined {collection : Symbol} (isCollection : realm.Passes collection)
    (isInside : place.index < place.count) :
    realm.Confined standing asks (variableType collection place) := by
  have ofElements (element : Option Symbol) (isElement : realm.Passes element) :
      realm.Confined standing asks
        (if place.isKey = true then do return some (← Lookup.sizeType) else pure element) := by
    split
    · exact (Lookup.sizeType_confined raised).bind fun _ isType => .pure (passes_some.mpr isType)
    · exact .pure isElement
  unfold variableType
  split
  next isShape => exact ofElements _ (passes_array.mp (isCollection.shape isShape))
  next isShape => exact ofElements _ (passes_pointer.mp (isCollection.shape isShape))
  next isShape =>
    obtain ⟨isKey, isValue⟩ := passes_associative.mp (isCollection.shape isShape)
    refine .pure ?_
    split
    · exact isKey
    · exact isValue
  next =>
    refine (appliedType_confined raised isCollection isInside).bind fun applied isApplied => ?_
    split
    · exact .pure (passes_some.mpr (passes_some.mp isApplied))
    · exact shownType_confined raised isCollection
  next => exact .pure passes_none

theorem typeOf_confined {loopVariable : NodeId} (isPlain : standing ≠ .overridden)
    (isNode : realm.node loopVariable) :
    realm.Confined standing asks (typeOf loopVariable) := by
  refine .tree_bind ?_
  rw [realm.fits.tree.declaringStatement? isNode]
  split
  next => exact .pure passes_none
  next loop isLoop =>
    refine .statement_bind (realm.fits.tree.passes_declaringStatement? isNode isLoop)
      fun entry isFound _ => ?_
    split
    next loopVariables source body isReverse isKind =>
      split
      next index isIndex =>
        have isInside : index < loopVariables.length := (findIdx?_eq_some_iff_getElem.mp isIndex).1
        unfold typeOver
        split
        next lower upper =>
          have isRaised : realm.narrow.tree.Raises (.typing lower) :=
            .statement isFound (by simp [Statement.questions, isKind])
          refine .bind (.evaluateType isPlain (raised _ isRaised)) fun type isType => .pure ?_
          have isStripped := isType.optionBind fun _ => Passes.strip
          exact passes_some.mpr (isStripped.getD (passes_basic .int))
        next collection =>
          have isRaised : realm.narrow.tree.Raises (.typing collection) :=
            .statement isFound (by simp [Statement.questions, isKind])
          refine .bind (.evaluateType isPlain (raised _ isRaised)) fun type isType => ?_
          have isStripped : realm.Passes (type.bind Symbol.strip) :=
            isType.optionBind fun _ => Passes.strip
          split
          next isCollection =>
            exact variableType_confined raised (passes_some.mp (isCollection ▸ isStripped)) isInside
          next => exact .pure passes_none
      next => exact .pure passes_none
    next => exact .pure passes_none

end Iteration

namespace DeclaredSymbol

variable {id : NodeId} {bindings : Bindings} {written : List TypeExpr} {options : Options}

theorem passes_unfollowedAlias (isNode : realm.node id) : realm.Passes (unfollowedAlias id) :=
  (passes_aliased.mpr ⟨isNode, passes_none, by simp⟩).declared isNode

theorem passes_throughAlias
    {symbol : Symbol} (isTag : realm.tag id) (isSymbol : realm.Passes symbol) :
    realm.Passes (symbol.withTag (.aliased id)) :=
  isSymbol.withTag isTag

theorem attached_eq_of_view
    {first second : State} (same : first.view = second.view) (tree : Tree) (id : NodeId)
    (entry : Node) (given : Bindings) :
    attached tree first.stack id entry given = attached tree second.stack id entry given := by
  have sameScope : first.stack.top.scope = second.stack.top.scope := congrArg View.scope same
  have sameBindings :
      first.stack.bindingsInHierarchy tree = second.stack.bindingsInHierarchy tree :=
    congrFun (congrArg View.bindingsInHierarchy same) tree
  simp only [attached, sameScope, sameBindings]

theorem ofAlias_confined {target : TypeExpr} (isNode : realm.node id) (isTag : realm.tag id)
    (isListed : asks (.type target)) :
    realm.Confined standing asks (ofAlias id target) := by
  refine .bind (.optional (.resolving (.optional (.overriding rfl
    (.resolve (by decide) isListed))))) fun found areFound => .pure ?_
  have areTargets := (areFound.join.getD passes_nil).map fun _ => passes_throughAlias isTag
  exact areTargets.ofCandidates?.getD (passes_unfollowedAlias isNode)

theorem variableType_confined
    {type : Option TypeExpr} {initializer : Option Expr}
    (raised : realm.narrow.tree.RaisesOnly asks) (isPlain : standing ≠ .overridden)
    (held :
      ∀ question ∈ type.toList.map Question.type ++ initializer.toList.map .typing, asks question)
    (isNode : realm.node id) :
    realm.Confined standing asks (variableType id type initializer) := by
  unfold variableType
  split
  · exact .resolveOne isPlain (held _ (by simp))
  · exact .bind (.evaluateType isPlain (held _ (by simp))) fun _ isType =>
      .pure (isType.optionMap fun _ => Passes.stripped)
  · exact Iteration.typeOf_confined raised isPlain isNode

theorem enumerationBase_confined
    (declared : ∀ question, realm.narrow.tree.Declares question → asks question)
    (isPlain : standing ≠ .overridden) (isNode : realm.node id) :
    realm.Confined standing asks (enumerationBase id) := by
  refine .node_bind isNode fun entry isFound _ => ?_
  split
  next base isKind =>
    have isOwn : Question.type base ∈ entry.ownQuestions := by simp [Node.ownQuestions, isKind]
    exact .resolveOne isPlain (declared _ ⟨id, entry, isFound, isOwn⟩)
  next => exact .pure (passes_some.mpr (passes_basic .int))

theorem enumeratorType_confined
    {parent : Option NodeId} (raised : realm.narrow.tree.RaisesOnly asks)
    (declared : ∀ question, realm.narrow.tree.Declares question → asks question)
    (isPlain : standing ≠ .overridden) (isParent : realm.Passes parent) :
    realm.Confined standing asks (enumeratorType parent) := by
  unfold enumeratorType
  split
  · exact .pure passes_none
  · have isNode := passes_node.mp (passes_some.mp isParent)
    refine .node_bind isNode fun entry _ _ => ?_
    split
    · exact enumerationBase_confined declared isPlain isNode
    · exact .symbolOf raised isNode passes_noBindings

instance : Composite Bases where
  parts bases := Composite.parts bases.baseClass ++ Composite.parts bases.interfaces
  loose _ := []

theorem passes_bases {sieve : Sieve} {bases : Bases} :
    sieve.Passes bases ↔ sieve.Passes bases.baseClass ∧ sieve.Passes bases.interfaces := by
  simp [Passes, Composite.parts, Composite.loose, or_imp, forall_and]

theorem basesOf_confined {bases : Bases} (isPlain : standing ≠ .overridden)
    (listed : ∀ type ∈ written, asks (.type type)) (areBases : realm.Passes bases)
    (mayBeClass : Bool) : realm.Confined standing asks (basesOf mayBeClass bases written) := by
  induction written generalizing mayBeClass bases with
  | nil => exact .pure areBases
  | cons type rest ih =>
    obtain ⟨isListed, areListed⟩ := forall_mem_cons.mp listed
    refine .bind (.resolve isPlain isListed) fun symbols areSymbols => ?_
    split
    next base isBase =>
      have isBase : realm.Passes base := areSymbols.mem (mem_of_find?_eq_some isBase)
      refine ih areListed ?_ false
      obtain ⟨isClass, areInterfaces⟩ := passes_bases.mp areBases
      unfold Bases.add
      split
      · exact passes_bases.mpr ⟨passes_some.mpr isBase, areInterfaces⟩
      · exact passes_bases.mpr
          ⟨isClass, passes_append.mpr ⟨areInterfaces, passes_cons.mpr ⟨isBase, passes_nil⟩⟩⟩
    next => exact ih areListed areBases false

theorem ofAggregate_confined {reachesBases : Bool} (isNode : realm.node id)
    (mayHaveBases : reachesBases = true → realm.hasBases)
    (listed : reachesBases = true → ∀ type ∈ written, asks (.type type))
    (areBound : realm.Passes bindings) (sort : AggregateSort) (isMixin : Bool) :
    realm.Confined standing asks (ofAggregate id sort isMixin written reachesBases bindings) := by
  unfold ofAggregate
  dsimp only
  split
  next isResolved =>
    have reaches : reachesBases = true := (Bool.and_eq_true_iff.mp isResolved).2
    have isStart : realm.Passes ({} : Bases) := passes_bases.mpr ⟨passes_none, passes_nil⟩
    refine .bind (.optional (.resolving (basesOf_confined (by decide) (listed reaches) isStart _)))
      fun found areFound => ?_
    obtain ⟨isClass, areInterfaces⟩ := passes_bases.mp (areFound.getD isStart)
    refine .pure (Passes.declared (passes_aggregate.mpr ?_) isNode)
    exact ⟨isNode, isClass, areInterfaces, areBound, fun _ => mayHaveBases reaches⟩
  next =>
    refine .pure (Passes.declared (passes_aggregate.mpr ?_) isNode)
    exact ⟨isNode, passes_none, passes_nil, areBound, by simp⟩

theorem ofParameter_confined (isNode : realm.node id) (areBound : realm.Passes bindings) :
    realm.Confined standing asks (ofParameter id bindings) := by
  refine .seeing (fun first second same => ?_) fun state passes =>
    .pure (passes_parameterSymbol ?_)
  · have sameBinding : first.stack.binding? id = second.stack.binding? id :=
      congrFun (congrArg View.binding? same) id
    simp only [sameBinding]
  · have isBound := (passes.binding? id).orElse (areBound.get? id)
    exact (isBound.optionFilter _).getD (passes_unbound isNode)

theorem ofImportBinding_confined (raised : realm.narrow.tree.RaisesOnly asks)
    (isTag : realm.tag id) (module target : String) :
    realm.Confined standing asks (ofImportBinding id module target) := by
  refine .reading ?_
  rw [realm.fits.module?]
  split
  next => exact .pure passes_none
  next module isModule =>
    have isOwner := passes_moduleSymbol (realm.fits.isModule isModule)
    refine (Lookup.members_confined raised isOwner target .all).bind
      fun declarations areDeclared => ?_
    refine (Query.symbolsOf_confined raised areDeclared).bind fun found areFound => .pure ?_
    exact (areFound.map fun _ => passes_throughAlias isTag).ofCandidates?

/-- Whether a query goes beyond the declaration itself at all. -/
def Reach.isDeep (reach : Reach) : Bool :=
  reach.baseTypes || reach.results || reach.aliases || reach.baseClasses

theorem Reach.depth_le_of_isDeep {depth : Nat}
    (isDeep : (ofOptions options depth).isDeep = true) : depth ≤ Guard.baseLimit := by
  rcases Nat.lt_or_ge Guard.baseLimit depth with isShallow | bounded
  · simp [Reach.isDeep, Reach.ofOptions, isShallow] at isDeep
  · exact bounded

theorem visit_confined {entry : Node} {depth : Nat} (isNode : realm.node id)
    (isFound : realm.narrow.tree.node? id = some entry) (areOptions : realm.options options)
    (areBound : realm.Passes bindings)
    (deep :
      (ofOptions options depth).isDeep = true → ∀ question,
        realm.narrow.tree.Declares question ∨ realm.narrow.tree.Raises question → asks question)
    (forwarded : entry.isForwarding = true → realm.narrow.tree.RaisesOnly asks) :
    realm.Confined .inside asks (visit id entry (ofOptions options depth) bindings) := by
  have isPlain : Standing.inside ≠ .overridden := by decide
  have isEntry := realm.fits.tree.entry isNode isFound
  have isMember (base : Option Symbol) (isBase : realm.Passes base) :
      realm.Passes (some (Symbol.member id base bindings)) :=
    passes_some.mpr (passes_memberSymbol isNode isBase areBound)
  have isUnfollowed : realm.Passes (some (unfollowedAlias id)) :=
    passes_some.mpr (passes_unfollowedAlias isNode)
  have unreached :
      realm.Confined .inside asks
        (do
          let base ← (pure none : Query (Option Symbol))
          return some (Symbol.member id base bindings)) :=
    .bind (.pure passes_none) fun base isBase => .pure (isMember base isBase)
  have own (isDeep : (ofOptions options depth).isDeep = true) :
      ∀ question ∈ entry.ownQuestions, asks question :=
    fun question isOwn => deep isDeep question (.inl ⟨id, entry, isFound, isOwn⟩)
  have raised (isDeep : (ofOptions options depth).isDeep = true) :
      realm.narrow.tree.RaisesOnly asks :=
    fun question isRaised => deep isDeep question (.inr isRaised)
  have declared (isDeep : (ofOptions options depth).isDeep = true) :
      ∀ question, realm.narrow.tree.Declares question → asks question :=
    fun question isDeclared => deep isDeep question (.inl isDeclared)
  unfold visit
  split
  next target initializer isKind =>
    split
    next reaches =>
      have isDeep : (ofOptions options depth).isDeep = true := by simp [isDeep, reaches]
      have isTag : realm.tag id := realm.fits.tag isNode isFound areOptions fun _ => by
        simp only [ofOptions, Bool.and_eq_true, Bool.not_eq_true'] at reaches
        exact reaches.2
      refine (ofAlias_confined isNode isTag (own isDeep _ ?_)).bind fun _ isTarget =>
        .pure (passes_some.mpr isTarget)
      simp [Node.ownQuestions, isKind]
    next => exact .pure isUnfollowed
  next => exact .pure isUnfollowed
  next type initializer isKind =>
    split
    next reaches =>
      have isDeep : (ofOptions options depth).isDeep = true := by simp [isDeep, reaches]
      refine (variableType_confined (raised isDeep) isPlain (fun question isHeld =>
        own isDeep question ?_) isNode).bind fun base isBase => .pure (isMember base isBase)
      simpa [Node.ownQuestions, isKind] using isHeld
    next => exact unreached
  next =>
    split
    next reaches =>
      have isDeep : (ofOptions options depth).isDeep = true := by simp [isDeep, reaches]
      exact (ReturnType.ofMethod_confined (raised isDeep) isPlain isNode).bind fun base isBase =>
        .pure (isMember base isBase)
    next => exact unreached
  next =>
    split
    next reaches =>
      have isDeep : (ofOptions options depth).isDeep = true := by simp [isDeep, reaches]
      exact (enumeratorType_confined (raised isDeep) (declared isDeep) isPlain
        isEntry.parent).bind fun base isBase => .pure (isMember base isBase)
    next => exact unreached
  next sort isMixin written isKind =>
    refine (ofAggregate_confined isNode (fun reaches => ?_) (fun reaches type isWritten => ?_)
      areBound sort isMixin).bind fun _ isSymbol => .pure (passes_some.mpr isSymbol)
    · refine realm.fits.bases areOptions ?_
      simp only [ofOptions, Bool.and_eq_true, Bool.not_eq_true'] at reaches
      exact reaches.2
    · have isDeep : (ofOptions options depth).isDeep = true := by simp [isDeep, reaches]
      exact own isDeep _ (by simp [Node.ownQuestions, isKind, isWritten])
  next =>
    refine .pure (passes_some.mpr (Passes.declared (passes_aggregate.mpr ?_) isNode))
    exact ⟨isNode, passes_none, passes_nil, areBound, by simp⟩
  next =>
    have isEnumeration (base : Option Symbol) (isBase : realm.Passes base) :
        realm.Passes (some (Symbol.declared id (.enumeration id base))) :=
      passes_some.mpr ((passes_enumeration.mpr ⟨isNode, isBase⟩).declared isNode)
    split
    next reaches =>
      have isDeep : (ofOptions options depth).isDeep = true := by simp [isDeep, reaches]
      exact (enumerationBase_confined (declared isDeep) isPlain isNode).bind fun base isBase =>
        .pure (isEnumeration base isBase)
    next => exact .bind (.pure passes_none) fun base isBase => .pure (isEnumeration base isBase)
  next => exact .pure (passes_some.mpr (passes_moduleSymbol isNode))
  next =>
    exact (ofParameter_confined isNode areBound).bind fun _ isSymbol =>
      .pure (passes_some.mpr isSymbol)
  next module target isKind =>
    have isTag : realm.tag id := realm.fits.tag isNode isFound areOptions fun isAlias => by
      simp [Node.isAlias, isKind] at isAlias
    exact ofImportBinding_confined (forwarded (by simp [Node.isForwarding, isKind])) isTag module
      target
  next module isKind =>
    have isTag : realm.tag id := realm.fits.tag isNode isFound areOptions fun isAlias => by
      simp [Node.isAlias, isKind] at isAlias
    refine .reading ?_
    rw [realm.fits.module?]
    refine .pure ((realm.fits.passes_module? module).optionMap fun module isModule => ?_)
    exact passes_throughAlias isTag (passes_moduleSymbol (passes_node.mp isModule))
  next target isKind =>
    exact Query.mixedIn_confined (forwarded (by simp [Node.isForwarding, isKind])) isNode
  next => exact .pure passes_none

theorem of_confined {given : Bindings} (admits : realm.narrow.tree.Admits realm.within)
    (isNode : realm.node id) (areGiven : realm.Passes given) :
    realm.Confined standing asks (of id given) := by
  refine .node_bind isNode fun entry isFound isEntry => .tree_bind ?_
  refine Realm.Relates.options.bind fun options areOptions => ?_
  refine .seeing (fun first second same => ?_) fun state passes => ?_
  · simp only [attached_eq_of_view same]
  rw [realm.fits.tree.attached passes isNode]
  have areBound := passes.attached isEntry areGiven realm.narrow.tree id
  refine .visiting (by simp [isFound]) fun depth => ?_
  refine .bind (.withDeclaration isNode areGiven ?_) fun _ isSymbol => .pure isSymbol.join
  refine visit_confined isNode isFound areOptions areBound (fun isDeep question isKnown => ?_)
    fun forwards question isRaised => ?_
  · exact admits.declared (depth_le_of_isDeep isDeep) isKnown
  · exact admits.forwarded isFound forwards isRaised

end DeclaredSymbol

end DScope
