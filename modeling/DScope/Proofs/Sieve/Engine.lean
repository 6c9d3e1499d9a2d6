import DScope.Proofs.Sieve.Declaration

namespace DScope

/-!
# All rules keep to a realm

The rules for written types and for expressions hand on what passes, so every
answer to a question that passes does so as well, however deeply questions are
nested.
-/

open Sieve Template Option Constant Realm

variable {realm : Realm} {standing : Standing} {asks : Question → Prop} {overloads : List Symbol}
  {symbol : Symbol} {base expression : Expr}

namespace Resolution

variable {element : Symbol} {position : Except EvalError Value} {type : TypeExpr} {length : Expr}

theorem passes_lone? {symbols : List Symbol} (areSymbols : realm.Passes symbols) :
    realm.Passes (lone? symbols) := by
  unfold lone?
  split
  · exact passes_some.mpr (passes_cons.mp areSymbols).1
  · exact passes_none

theorem passes_itemAt?
    {items : List Argument} (areItems : realm.Passes items) (position : Except EvalError Value) :
    realm.Passes (itemAt? items position) := by
  unfold itemAt?
  split
  · exact passes_none
  next value =>
    cases value.integer? with
    | none => exact passes_none
    | some index =>
      dsimp only [bind_eq_bind, bind_some]
      split
      · exact passes_none
      · exact areItems.getElem? _

theorem sizedBy_confined
    (isElement : realm.Passes element) (isPosition : realm.Passes position) (length : Expr) :
    realm.Confined standing asks (sizedBy element length position) := by
  have isArray : realm.Passes (Symbol.dynamicArray (some element)) :=
    passes_dynamicArray.mpr (passes_some.mpr isElement)
  have reported (detail : String) :
      realm.Confined standing asks
        (do
          Query.report (.nothingFound length.text none (some detail))
          return Symbol.dynamicArray (some element)) :=
    .bind (.reporting (passes_nothingFound.mpr passes_none) nofun) fun _ _ => .pure isArray
  unfold sizedBy
  split
  · exact .pure isArray
  · have isKey := passes_valueType.mp (passes_ok.mp isPosition)
    exact .pure (passes_associative.mpr ⟨passes_some.mpr isKey, passes_some.mpr isElement⟩)
  · split
    · exact .pure isArray
    · split
      · exact reported _
      · split
        · exact .pure (passes_array.mpr (passes_some.mpr isElement))
        · exact reported _

theorem isLength_eq (isSymbol : realm.Passes symbol) :
    isLength realm.wide.tree symbol = isLength realm.narrow.tree symbol := by
  unfold isLength
  split
  next => rfl
  next isShape =>
    have isBinding := passes_binding.mp (passes_parameter.mp (isSymbol.shape isShape))
    rw [realm.fits.tree.parameterKind? isBinding.1]
  next => rfl

section Plain

variable (isPlain : standing ≠ .overridden)

include isPlain

theorem sized_confined (isElement : realm.Passes element) (isListed : asks (.value length)) :
    realm.Confined standing asks (sized length element) := by
  refine (Relates.evaluate isPlain isListed).bind fun position isPosition => ?_
  split
  next items isTuple =>
    obtain ⟨type, isType, isShape⟩ := map_eq_some_iff.mp isTuple
    have isStripped : realm.Passes type := passes_some.mp (isType ▸ isElement.strip)
    have isItem := passes_itemAt? (passes_tuple.mp (isStripped.shape isShape)) position
    unfold tupleItem
    split
    next item isFound =>
      rw [isFound, passes_some] at isItem
      exact .pure isItem.type?.toList
    next =>
      exact .bind (.reporting (passes_nothingFound.mpr passes_none) nofun) fun _ _ =>
        .pure passes_nil
  next =>
    exact (sizedBy_confined isElement isPosition length).bind fun _ isArray =>
      .pure (passes_cons.mpr ⟨isArray, passes_nil⟩)

theorem ofKeyed_confined {element key : TypeExpr} (elementListed : asks (.type element))
    (keyListed : asks (.type key)) (lengthListed : asks (.value (.type key))) :
    realm.Confined standing asks (ofKeyed element key) := by
  refine (Relates.resolve isPlain elementListed).bind fun elements areElements => ?_
  refine (Relates.resolve isPlain keyListed).bind fun keys areKeys => .tree_bind ?_
  have isKey := areKeys.head?
  have sameLength :
      keys.head?.any (isLength realm.wide.tree) = keys.head?.any (isLength realm.narrow.tree) := by
    cases isFirst : keys.head? with
    | none => rfl
    | some first => exact isLength_eq (passes_some.mp (isFirst ▸ isKey))
  rw [sameLength]
  split
  · exact .bind (.listed (.mapM fun symbol isSymbol =>
      sized_confined isPlain (areElements.mem isSymbol) lengthListed)) fun _ areSized =>
        .pure areSized.flatten
  · refine .pure (areElements.map fun symbol isSymbol => ?_)
    exact passes_associative.mpr ⟨isKey, passes_some.mpr isSymbol⟩

theorem ofCallable_confined
    {result : TypeExpr} {parameters : List TypeExpr} (resultListed : asks (.type result))
    (parametersListed : ∀ type ∈ parameters, asks (.type type)) (isFunction : Bool) :
    realm.Confined standing asks (ofCallable result parameters isFunction) := by
  refine (Relates.resolveOne isPlain resultListed).bind fun result isResult => ?_
  refine .bind (.listed (.mapM fun type isWritten =>
    .resolveOne isPlain (parametersListed type isWritten))) fun found areFound => .pure ?_
  exact passes_callable.mpr ⟨isResult, areFound.filterMap_id⟩

end Plain

variable (raised : realm.narrow.tree.RaisesOnly asks)

include raised

theorem searchName_confined (name : String) : realm.Confined standing asks (searchName name) := by
  refine (Lookup.candidates_confined raised name).bind fun overloads areOverloads => ?_
  refine Relates.options.bind fun options _ => ?_
  split
  · exact .pure areOverloads
  · exact instantiate_confined raised areOverloads passes_nil false

variable (isPlain : standing ≠ .overridden)

include isPlain

theorem ofName_confined (name : String) : realm.Confined standing asks (ofName name) :=
  .remembering isPlain (searchName_confined raised name)

theorem ofInstance_confined (blames : realm.blames)
    {arguments : List WrittenArgument}
    (parts :
      ∀ question : Question,
        question.weight ≤ 2 * WrittenArgument.weights arguments → asks question)
    (name : String) : realm.Confined standing asks (ofInstance name arguments) := by
  refine (Lookup.candidates_confined raised name).bind fun overloads areOverloads => ?_
  refine (resolveArguments_confined isPlain parts).bind fun given areGiven => ?_
  refine (instantiate_confined raised areOverloads areGiven false).bind fun found areFound => ?_
  refine Relates.reportsFailures.bind fun reports _ => ?_
  split
  next isFailing =>
    have isLone := passes_lone? areOverloads
    have sameReason :
        ((lone? overloads).bind fun overload =>
            rejectedArgument? realm.wide.tree overload given) =
          (lone? overloads).bind fun overload =>
            rejectedArgument? realm.narrow.tree overload given := by
      cases isFirst : lone? overloads with
      | none => rfl
      | some overload =>
        exact realm.fits.tree.rejectedArgument? (passes_some.mp (isFirst ▸ isLone)) given
    have isReason := isLone.optionBind fun overload isOverload =>
      realm.fits.tree.passes_rejectedArgument? isOverload areGiven
    refine .tree_bind ?_
    rw [sameReason]
    exact .bind (.reporting (isReason.getD (passes_nothingFound.mpr passes_none)) fun _ => blames)
      fun _ _ => .pure areFound
  next => exact .pure areFound

theorem ofMember_confined {inner : TypeExpr} (innerListed : asks (.type inner))
    {arguments : Option (List WrittenArgument)}
    (parts :
      ∀ written, arguments = some written →
        ∀ question : Question,
          question.weight ≤ 2 * WrittenArgument.weights written → asks question)
    (name text : String) :
    realm.Confined standing asks (ofMember inner name arguments text) := by
  refine (Relates.resolve isPlain innerListed).bind fun symbols areSymbols => ?_
  have areOwners := areSymbols.flatMap fun _ => Passes.candidates
  refine .bind (.listed (.mapM fun owner isOwner =>
    MemberAccess.symbols_confined raised isPlain parts (areOwners.mem isOwner) name true))
    fun found areFound => ?_
  dsimp only
  split
  · exact (Relates.reportMissing text).bind fun _ _ => .pure areFound.flatten
  · exact .pure areFound.flatten

theorem ofType_confined
    (lighter :
      ∀ question : Question, question.weight < (Question.type type).weight → asks question)
    (blames : (Question.type type).isInstance = true → realm.blames) :
    realm.Confined standing asks (ofType type) := by
  refine Relates.isCancelled.bind fun isCancelled _ => ?_
  split
  · exact .pure passes_nil
  · cases type with
    | basic basic => exact .pure (passes_cons.mpr ⟨passes_basic basic, passes_nil⟩)
    | named name => exact ofName_confined raised isPlain name
    | instantiated name arguments =>
      exact ofInstance_confined raised isPlain (blames rfl)
        (fun question isPart => lighter question (by grind)) name
    | member inner name =>
      exact ofMember_confined raised isPlain (lighter _ (by grind)) (by rintro _ ⟨⟩) name _
    | memberInstantiated inner name arguments =>
      refine ofMember_confined raised isPlain (lighter _ (by grind)) ?_ name _
      rintro written ⟨⟩ question isPart
      exact lighter question (by grind)
    | pointer target =>
      exact .bind (.resolve isPlain (lighter _ (by grind))) fun _ areTargets =>
        .pure (areTargets.map fun _ isTarget => passes_pointer.mpr (passes_some.mpr isTarget))
    | dynamicArray element =>
      exact .bind (.resolve isPlain (lighter _ (by grind))) fun _ areElements =>
        .pure (areElements.map fun _ isElement =>
          passes_dynamicArray.mpr (passes_some.mpr isElement))
    | keyedArray element key =>
      exact ofKeyed_confined isPlain (lighter _ (by grind)) (lighter _ (by grind))
        (lighter _ (by grind))
    | sizedArray element length =>
      refine .bind (.resolve isPlain (lighter _ (by grind))) fun elements areElements => ?_
      exact .bind (.listed (.mapM fun symbol isSymbol =>
        sized_confined isPlain (areElements.mem isSymbol) (lighter _ (by grind)))) fun _ areSized =>
          .pure areSized.flatten
    | callable result parameters isFunction =>
      exact (ofCallable_confined isPlain (lighter _ (by grind))
        (fun type isWritten => lighter _ (by grind)) isFunction).bind
        fun _ isCallable => .pure (passes_cons.mpr ⟨isCallable, passes_nil⟩)
    | typeOfReturn =>
      exact (ReturnType.around_confined raised).bind fun _ isType => .pure isType.toList
    | typeOf operand =>
      exact .bind (.evaluateType isPlain (lighter _ (by grind))) fun _ isType =>
        .pure (isType.optionMap fun _ => Passes.stripped).toList
    | modified modifier inner =>
      exact .bind (.resolve isPlain (lighter _ (by grind))) fun _ areInner =>
        .pure (areInner.map fun _ isInner => passes_withModifier.mpr isInner)

end Resolution

namespace Typing

variable {symbol : Symbol} {arguments : List Expr}

theorem passes_ofLiteral (literal : Literal) : realm.Passes (ofLiteral literal) := by
  cases literal with
  | integer _ type | float _ type => exact passes_basic type
  | bool _ => exact passes_basic .bool
  | character _ => exact passes_basic .char
  | string _ => exact passes_string
  | null => exact passes_pointer.mpr passes_none

theorem passes_ofArithmetic {right : Option Symbol} (isLeft : realm.Passes symbol) :
    realm.Passes (ofArithmetic symbol right) := by
  unfold ofArithmetic
  split
  · exact passes_some.mpr (passes_basic _)
  · exact isLeft.strip

theorem passes_callResult (isCallee : realm.Passes symbol) : realm.Passes (callResult symbol) := by
  refine isCallee.strip.optionBind fun target isTarget => ?_
  split
  · exact passes_some.mpr isTarget
  next isShape => exact (passes_callable.mp (isTarget.shape isShape)).1
  next => exact passes_none

theorem isMethod_eq (isSymbol : realm.Passes symbol) :
    isMethod realm.wide.tree symbol = isMethod realm.narrow.tree symbol := by
  unfold isMethod
  cases isDefinition : symbol.definition? with
  | none => rfl
  | some node =>
    rw [bind_some, bind_some, realm.fits.tree.node? (isSymbol.definition? isDefinition)]

section Plain

variable (isPlain : standing ≠ .overridden)

include isPlain

theorem arguments_confined (listed : ∀ argument ∈ arguments, asks (.typing argument)) :
    realm.Confined standing asks (arguments.mapM Query.typingOf) :=
  .listed (.mapM fun argument isWritten => .typingOf isPlain (listed argument isWritten))

theorem ofIndex_confined {position : Expr} (baseListed : asks (.typing base))
    (positionListed : asks (.value position)) :
    realm.Confined standing asks (ofIndex base position) := by
  refine (Relates.typingOf isPlain baseListed).bind fun type isType => ?_
  have isStripped : realm.Passes (type.bind Symbol.strip) := isType.optionBind fun _ => Passes.strip
  cases isBase : type.bind Symbol.strip with
  | none => exact .pure passes_none
  | some stripped =>
    rw [isBase, passes_some] at isStripped
    split
    next isShape => exact .pure (passes_array.mp (isStripped.shape (some.inj isShape)))
    next isShape => exact .pure (passes_pointer.mp (isStripped.shape (some.inj isShape)))
    next isShape =>
      exact .pure (passes_associative.mp (isStripped.shape (some.inj isShape))).2
    next isShape =>
      have areItems := passes_tuple.mp (isStripped.shape (some.inj isShape))
      refine (Relates.valueOf isPlain positionListed).bind fun evaluated _ => .pure ?_
      exact (Resolution.passes_itemAt? areItems evaluated).optionBind fun _ => Passes.type?
    next => exact .pure passes_none

theorem ofBinary_confined {left right : Expr} (leftListed : asks (.typing left))
    (rightListed : asks (.typing right)) (operator : BinaryOperator) :
    realm.Confined standing asks (ofBinary operator left right) := by
  cases operator with
  | add | subtract | multiply | divide | remainder =>
    refine (Relates.typingOf isPlain leftListed).bind fun first isFirst => ?_
    split
    · exact .pure passes_none
    · exact (Relates.typingOf isPlain rightListed).bind fun _ _ =>
        .pure (passes_ofArithmetic (passes_some.mp isFirst))
  | concatenate => exact .typingOf isPlain leftListed
  | equal | notEqual | less | lessOrEqual | greater | greaterOrEqual | and | or =>
    exact .pure (passes_some.mpr (passes_basic .bool))

end Plain

variable (raised : realm.narrow.tree.RaisesOnly asks)

include raised

theorem overloadsNamed_confined (name : String) :
    realm.Confined standing asks (overloadsNamed name) :=
  .bind (.optional (.overriding rfl (Lookup.candidates_confined raised name))) fun _ areFound =>
    .pure (areFound.getD passes_nil)

theorem ofOverloads_confined {explicit : List Argument} {arguments : List (Option Symbol)}
    (callee : Expr) (areOverloads : realm.Passes overloads) (areExplicit : realm.Passes explicit)
    (areArguments : realm.Passes arguments) :
    realm.Confined standing asks (ofOverloads callee overloads explicit arguments) := by
  have sameMethods :
      overloads.filter (isMethod realm.wide.tree) = overloads.filter (isMethod realm.narrow.tree) :=
    List.filter_congr fun overload isOverload => isMethod_eq (areOverloads.mem isOverload)
  have areMethods := areOverloads.filter (isMethod realm.narrow.tree)
  refine .tree_bind ?_
  rw [sameMethods]
  split
  · exact .pure (areOverloads.head?.optionBind fun _ => passes_callResult)
  · refine (selectForCall_confined raised areMethods areExplicit areArguments).bind
      fun candidates areCandidates => ?_
    refine (theOnly_confined areCandidates _).bind fun chosen isChosen => .pure ?_
    refine passes_option.mpr fun base isBase => ?_
    obtain ⟨member, isMember, isBase⟩ := bind_eq_some_iff.mp isBase
    obtain ⟨symbol, isSymbol, isMember⟩ := bind_eq_some_iff.mp isMember
    have isSymbol : realm.Passes symbol := passes_option.mp isChosen symbol isSymbol
    exact passes_some.mp (isBase ▸ (passes_member.mp (isSymbol.member? isMember)).2.1)

variable (isPlain : standing ≠ .overridden)

include isPlain

theorem ofCall_confined {callee : Expr}
    (lighter :
      ∀ question : Question,
        question.weight < (Question.typing (.call callee arguments)).weight → asks question) :
    realm.Confined standing asks (ofCall callee arguments) := by
  refine (arguments_confined isPlain fun argument isWritten => lighter _ (by grind)).bind
    fun types areTypes => ?_
  split
  next name =>
    refine (overloadsNamed_confined raised name).bind fun overloads areOverloads => ?_
    exact ofOverloads_confined raised _ areOverloads passes_nil areTypes
  next name written =>
    refine (overloadsNamed_confined raised name).bind fun overloads areOverloads => ?_
    refine (resolveArguments_confined isPlain fun question isPart =>
      lighter question (by grind)).bind fun explicit areExplicit => ?_
    exact ofOverloads_confined raised _ areOverloads areExplicit areTypes
  next base name =>
    refine .bind (.typingOf isPlain (lighter _ (by grind))) fun owner isOwner => ?_
    split
    · exact .pure passes_none
    · refine .bind (.optional (.overriding rfl
        (MemberAccess.candidates_confined raised (passes_some.mp isOwner) name true)))
        fun found areFound => ?_
      exact ofOverloads_confined raised _ (areFound.getD passes_nil) passes_nil areTypes
  next =>
    exact .bind (.typingOf isPlain (lighter _ (by grind))) fun _ isType =>
      .pure (isType.optionBind fun _ => passes_callResult)

theorem ofExpression_confined
    (lighter :
      ∀ question : Question,
        question.weight < (Question.typing expression).weight → asks question) :
    realm.Confined standing asks (ofExpression expression) := by
  have isTruth : realm.Passes (some (Symbol.primitive .bool)) :=
    passes_some.mpr (passes_basic .bool)
  refine Relates.isCancelled.bind fun isCancelled _ => ?_
  split
  · exact .pure passes_none
  · split
    next literal => exact .pure (passes_some.mpr (passes_ofLiteral literal))
    next name =>
      exact (Resolution.ofName_confined raised isPlain name).bind fun _ areFound =>
        .pure areFound.ofCandidates?
    next name arguments =>
      exact .resolveOne isPlain (lighter _ (by grind))
    next base name =>
      refine .bind (.typingOf isPlain (lighter _ (by grind))) fun owner isOwner => ?_
      split
      · exact .pure passes_none
      · refine (MemberAccess.symbols_confined raised isPlain (fun _ isGiven => ?_)
          (passes_some.mp isOwner) name true).bind fun _ areFound => .pure areFound.ofCandidates?
        cases isGiven
    next callee arguments => exact ofCall_confined raised isPlain lighter
    next base position =>
      exact ofIndex_confined isPlain (lighter _ (by grind)) (lighter _ (by grind))
    next operator left right =>
      exact ofBinary_confined isPlain (lighter _ (by grind)) (lighter _ (by grind)) operator
    next => exact .pure isTruth
    next => exact .pure isTruth
    next => exact .pure isTruth
    next operand =>
      exact .bind (.typingOf isPlain (lighter _ (by grind))) fun _ isType =>
        .pure (isType.optionMap fun _ => Passes.stripped)
    next => exact .pure (passes_some.mpr (passes_dynamicArray.mpr passes_none))
    next first rest =>
      refine .bind (.typingOf isPlain (lighter _ (by grind))) fun type isType => .pure ?_
      exact passes_some.mpr (passes_dynamicArray.mpr (isType.optionMap fun _ => Passes.stripped))
    iterate 2
      next type =>
        exact .resolveOne isPlain (lighter _ (by grind))

theorem calledMethod_confined {call : Expr}
    (lighter :
      ∀ question : Question, question.weight < (Question.typing call).weight → asks question) :
    realm.Confined standing asks (calledMethod call) := by
  unfold calledMethod
  split
  next callee arguments =>
    refine (arguments_confined isPlain fun argument isWritten => lighter _ (by grind)).bind
      fun types areTypes => ?_
    split
    next => exact .pure passes_none
    next name written isNamed =>
      have bound : WrittenArgument.weights written ≤ callee.weight := by
        unfold namedCallee? at isNamed
        split at isNamed <;> cases isNamed <;> simp [Expr.weight, WrittenArgument.weights]
      refine (resolveArguments_confined isPlain fun question isPart =>
        lighter question (by grind)).bind fun explicit areExplicit => ?_
      refine (overloadsNamed_confined raised name).bind fun overloads areOverloads => ?_
      refine (selectForCall_confined raised areOverloads areExplicit areTypes).bind
        fun candidates areCandidates => ?_
      refine (theOnly_confined areCandidates name).bind fun chosen isChosen => .pure ?_
      refine isChosen.optionBind fun symbol isSymbol => passes_option.mpr fun node isNode => ?_
      exact passes_node.mpr (isSymbol.definition? isNode)
  next => exact .pure passes_none

end Typing

/-! ## Constants -/

/-- A fold keeps to the realm and gives only what has the given property. -/
def Realm.Folds {α : Type} (realm : Realm) (standing : Standing) (asks : Question → Prop)
    (folding : Constant.Folding α) (post : α → Prop) : Prop :=
  realm.Relates standing asks folding.run folding.run fun outcome =>
    ∀ value, outcome = .ok value → post value

namespace Realm.Folds

variable {α β : Type} {post : α → Prop} {later : β → Prop} {next : α → Folding β}

theorem pure {value : α} (isPost : post value) : realm.Folds standing asks (Pure.pure value) post :=
  Relates.pure fun _ isValue => (Except.ok.inj isValue) ▸ isPost

theorem throw (error : EvalError) : realm.Folds standing asks (throw error : Folding α) post :=
  Relates.pure fun _ isValue => by cases isValue

theorem bind {first : Folding α} (before : realm.Folds standing asks first post)
    (after : ∀ value, post value → realm.Folds standing asks (next value) later) :
    realm.Folds standing asks (first >>= next) later := by
  refine Relates.bind before fun outcome isOutcome => ?_
  cases outcome with
  | ok value => exact after value (isOutcome value rfl)
  | error error => exact throw error

theorem lift_bind {query : Query α} (before : realm.Relates standing asks query query post)
    (after : ∀ value, post value → realm.Folds standing asks (next value) later) :
    realm.Folds standing asks ((liftM query : Folding α) >>= next) later := by
  change
    realm.Relates standing asks (ExceptT.lift query >>= next).run (ExceptT.lift query >>= next).run _
  rw [ExceptT.run_bind_lift]
  exact before.bind after

theorem node_bind {id : NodeId} {next : Node → Folding β} (isNode : realm.node id)
    (after :
      ∀ entry, realm.narrow.tree.node? id = some entry → realm.PassesEntry entry →
        realm.Folds standing asks (next entry) later) :
    realm.Folds standing asks ((liftM (Query.node id) : Folding Node) >>= next) later := by
  change
    realm.Relates standing asks (ExceptT.lift (Query.node id) >>= next).run
      (ExceptT.lift (Query.node id) >>= next).run _
  rw [ExceptT.run_bind_lift]
  exact Relates.node_bind isNode after

theorem halt {reason : Halt} (isOwn : reason ≠ .depthExceeded) (isFault : reason.isMissing = false) :
    realm.Folds standing asks (liftM (MonadExcept.throw reason : Query α) : Folding α) post := by
  exact Relates.halt isOwn fun isMissing => by cases isFault.symm.trans isMissing

theorem mk [Composite α] {query : Query (Except EvalError α)}
    (relates : realm.Confined standing asks query) :
    realm.Folds standing asks (ExceptT.mk query) realm.Passes :=
  relates.mono fun _ passes _ isValue => passes_ok.mp (isValue ▸ passes)

end Realm.Folds

namespace Constant

variable {previous : Option Value}

theorem value_folds (isPlain : standing ≠ .overridden) (isListed : asks (.value expression)) :
    realm.Folds standing asks (value expression) realm.Passes :=
  .mk (.valueOf isPlain isListed)

theorem truth_folds (constant : Value) :
    realm.Folds standing asks (truth constant) fun _ => True := by
  unfold truth
  split
  · exact .pure trivial
  · exact .throw _

variable {declaration : Declaration}

theorem passes_bindingsOf (isDeclaration : realm.Passes declaration) :
    realm.Passes (bindingsOf declaration) :=
  ((passes_declaration.mp isDeclaration).2.optionMap fun _ => Passes.bindings).getD
    passes_noBindings

theorem ofInitializer_folds {entry : Node} {initializer : Expr}
    (admits : realm.narrow.tree.Admits realm.within) (isDeclaration : realm.Passes declaration)
    (isFound : realm.narrow.tree.node? declaration.node = some entry)
    (isWritten : entry.initializer? = some initializer) :
    realm.Folds standing asks (ofInitializer declaration initializer) realm.Passes := by
  have isNode := (passes_declaration.mp isDeclaration).1
  refine .mk (.visiting (by simp [isFound]) fun depth => ?_)
  split
  · exact .pure passes_error
  next isShallow =>
    refine .tree_bind (.bind (.withDeclaration isNode (passes_bindingsOf isDeclaration)
      (.valueOf (by decide) ?_)) fun _ isResult => .pure (isResult.getD passes_error))
    exact admits.initialized (Nat.le_of_not_lt isShallow)
      ⟨_, entry, initializer, isFound, isWritten, rfl⟩

theorem following_folds (isPrevious : realm.Passes previous) :
    realm.Folds standing asks (following previous) realm.Passes := by
  unfold following
  split
  · exact .pure passes_int
  · split
    · exact .pure (passes_of_parts_eq_nil rfl)
    · exact .halt (by decide) rfl
  · exact .throw _

theorem ofEnumerator_folds {members : List NodeId}
    (admits : realm.narrow.tree.Admits realm.within) (isPrevious : realm.Passes previous)
    (areMembers : realm.Passes members) (target : NodeId) (name : String) :
    realm.Folds standing asks (ofEnumerator target name previous members) realm.Passes := by
  induction members generalizing previous with
  | nil => exact .throw _
  | cons member rest ih =>
    obtain ⟨isMember, areMembers⟩ := passes_cons.mp areMembers
    have isMember := passes_node.mp isMember
    refine .node_bind isMember fun entry isFound _ => ?_
    split
    next initializer isKind =>
      have goingOn :
          ∀ constant, realm.Passes constant →
            realm.Folds standing asks
              (if member == target then pure constant
                else ofEnumerator target name (some constant) rest)
              realm.Passes := by
        intro constant isConstant
        split
        · exact .pure isConstant
        · exact ih (passes_some.mpr isConstant) areMembers
      cases initializer with
      | some written =>
        have isDeclaration : realm.Passes ({ node := member } : Declaration) :=
          passes_declaration.mpr ⟨isMember, passes_none⟩
        exact .bind (ofInitializer_folds admits isDeclaration isFound
          (by simp [Node.initializer?, isKind])) goingOn
      | none => exact .bind (following_folds isPrevious) goingOn
    next => exact ih isPrevious areMembers

theorem ofBinding_folds
    {binding : Option Binding} (isBinding : realm.Passes binding) (name : String) :
    realm.Folds standing asks (ofBinding name binding) realm.Passes := by
  unfold ofBinding
  split
  · exact .pure (passes_some.mp (passes_binding.mp (passes_some.mp isBinding)).2.2)
  · have isBase := passes_some.mp (passes_binding.mp (passes_some.mp isBinding)).2.1
    exact .pure (passes_valueType.mpr isBase)
  · exact .throw _

theorem ofUnary_folds (operator : UnaryOperator) (operand : Value) :
    realm.Folds standing asks (ofUnary operator operand) realm.Passes := by
  unfold ofUnary
  split
  · exact .bind (truth_folds operand) fun _ _ => .pure (passes_of_parts_eq_nil rfl)
  · split
    · exact .pure (passes_of_parts_eq_nil rfl)
    · exact .halt (by decide) rfl
  · exact .pure (passes_of_parts_eq_nil rfl)
  · exact .throw _

theorem passes_itemAt? {base : Value} (isBase : realm.Passes base) (position : Value) :
    realm.Passes (itemAt? base position) := by
  unfold itemAt?
  cases position.integer? with
  | none => exact passes_none
  | some index =>
    dsimp only [bind_eq_bind, bind_some]
    split
    · exact passes_none
    · split
      · exact (passes_valueArray.mp isBase).getElem? _
      · refine passes_option.mpr fun item isItem => ?_
        obtain ⟨code, -, isItem⟩ := map_eq_some_iff.mp isItem
        exact passes_of_parts_eq_nil (isItem ▸ rfl)
      · exact passes_none

theorem propertyOf_confined (isPlain : standing ≠ .overridden) (isListed : asks (.value base))
    (name : String) : realm.Confined standing asks (propertyOf base name) := by
  refine (Relates.valueOf isPlain isListed).bind fun owner isOwner => ?_
  split
  · refine .tree_bind ?_
    rw [realm.fits.tree.constant? (passes_valueOwner.mpr (passes_ok.mp isOwner))]
    exact .pure (passes_propertyConstant? _ _ _)
  · exact .pure passes_none

section Admits

variable (admits : realm.narrow.tree.Admits realm.within)
  (raised : realm.narrow.tree.RaisesOnly asks)

include admits raised

theorem ofDeclaration_folds (isDeclaration : realm.Passes declaration) :
    realm.Folds standing asks (ofDeclaration declaration) realm.Passes := by
  have isNode := (passes_declaration.mp isDeclaration).1
  refine .node_bind isNode fun entry isFound isEntry => ?_
  split
  next =>
    refine Relates.seeing (fun first second same => ?_) fun state passes =>
      ofBinding_folds ?_ _
    · have sameBindings : first.stack.binding? = second.stack.binding? :=
        congrArg View.binding? same
      simp only [sameBindings]
    · exact (passes.binding? _).orElse ((passes_bindingsOf isDeclaration).get? _)
  next initializer isKind =>
    split
    · exact ofInitializer_folds admits isDeclaration isFound (by simp [Node.initializer?, isKind])
    · exact .throw _
  next initializer isKind =>
    exact ofInitializer_folds admits isDeclaration isFound (by simp [Node.initializer?, isKind])
  next =>
    have isParent := isEntry.parent
    split
    next enumeration isEnumeration =>
      rw [isEnumeration, passes_some, passes_node] at isParent
      refine .node_bind isParent fun parent _ isParentEntry => ?_
      exact ofEnumerator_folds admits passes_none isParentEntry.children _ _
    next => exact .throw _
  next => exact .throw _
  next => exact .throw _
  next =>
    have isAlone : realm.Passes [declaration] := passes_cons.mpr ⟨isDeclaration, passes_nil⟩
    refine .lift_bind (Query.symbolsOf_confined raised isAlone) fun symbols areSymbols => ?_
    split
    · exact .pure (passes_valueType.mpr (passes_cons.mp areSymbols).1)
    · exact .throw _

theorem ofSymbol_folds (isSymbol : realm.Passes symbol) :
    realm.Folds standing asks (ofSymbol symbol) realm.Passes := by
  unfold ofSymbol
  split
  next isMember =>
    obtain ⟨-, -, -, isConstant⟩ := passes_member.mp (isSymbol.member? isMember)
    exact .pure (passes_some.mp isConstant)
  next node _ bindings isMember =>
    obtain ⟨isDefined, -⟩ := passes_member.mp (isSymbol.member? isMember)
    refine ofDeclaration_folds admits raised (passes_declaration.mpr ⟨passes_defined.mp isDefined, ?_⟩)
    split
    · exact passes_none
    · exact passes_some.mpr isSymbol
  next => exact .pure (passes_valueType.mpr isSymbol)

theorem ofTyping_folds (isPlain : standing ≠ .overridden) (isListed : asks (.typing expression)) :
    realm.Folds standing asks (ofTyping expression) realm.Passes := by
  refine .lift_bind (.typingOf isPlain isListed) fun type isType => ?_
  split
  · exact ofSymbol_folds admits raised (passes_some.mp isType)
  · exact .throw _

theorem ofName_folds (name : String) : realm.Folds standing asks (ofName name) realm.Passes := by
  refine .lift_bind (Lookup.visible_confined raised name .all) fun declarations areDeclared => ?_
  split
  · exact ofDeclaration_folds admits raised (passes_cons.mp areDeclared).1
  · exact .throw _

theorem ofMember_folds {name : String} (isPlain : standing ≠ .overridden)
    (baseListed : asks (.value base)) (typingListed : asks (.typing (.member base name))) :
    realm.Folds standing asks (ofMember base name) realm.Passes := by
  refine .lift_bind (propertyOf_confined isPlain baseListed name) fun constant isConstant => ?_
  split
  · exact .pure (passes_some.mp isConstant)
  · exact ofTyping_folds admits raised isPlain typingListed

end Admits

section Plain

variable (isPlain : standing ≠ .overridden)

include isPlain

theorem ofBinary_folds {left right : Expr} (leftListed : asks (.value left))
    (rightListed : asks (.value right)) (operator : BinaryOperator) :
    realm.Folds standing asks (ofBinary operator left right) realm.Passes := by
  have isTruth (truth : Bool) : realm.Passes (Value.bool truth) := passes_of_parts_eq_nil rfl
  have rightTruth :
      realm.Folds standing asks (do return Value.bool (← truth (← value right))) realm.Passes :=
    .bind (value_folds isPlain rightListed) fun _ _ => .bind (truth_folds _) fun truth _ =>
      .pure (isTruth truth)
  unfold ofBinary
  split
  · refine .bind (value_folds isPlain leftListed) fun first _ =>
      .bind (truth_folds first) fun truth _ => ?_
    split
    · exact rightTruth
    · exact .pure (isTruth false)
  · refine .bind (value_folds isPlain leftListed) fun first _ =>
      .bind (truth_folds first) fun truth _ => ?_
    split
    · exact .pure (isTruth true)
    · exact rightTruth
  · refine .bind (value_folds isPlain leftListed) fun first isFirst => ?_
    exact .bind (value_folds isPlain rightListed) fun second isSecond =>
      .mk (.pure (isFirst.fold isSecond operator))

theorem values_folds {items : List Expr} (listed : ∀ item ∈ items, asks (.value item)) :
    realm.Folds standing asks (items.mapM value) realm.Passes := by
  induction items with
  | nil => exact .pure passes_nil
  | cons item rest ih =>
    obtain ⟨isListed, areListed⟩ := List.forall_mem_cons.mp listed
    rw [List.mapM_cons]
    refine .bind (value_folds isPlain isListed) fun first isFirst => ?_
    exact .bind (ih areListed) fun others areOthers =>
      .pure (passes_cons.mpr ⟨isFirst, areOthers⟩)

theorem isRelated_confined {subject other : TypeExpr} (subjectListed : asks (.type subject))
    (otherListed : asks (.type other)) (relation : TypeRelation) :
    realm.Relates standing asks (isRelated subject relation other)
      (isRelated subject relation other) fun _ => True := by
  refine (Relates.resolveOne isPlain subjectListed).bind fun found _ => ?_
  split
  · exact .pure trivial
  · refine (Relates.resolveOne isPlain otherListed).bind fun related _ => ?_
    split <;> exact .pure trivial

end Plain

theorem fold_folds
    (admits : realm.narrow.tree.Admits realm.within) (raised : realm.narrow.tree.RaisesOnly asks)
    (isPlain : standing ≠ .overridden)
    (lighter :
      ∀ question : Question, question.weight < (Question.value expression).weight → asks question) :
    realm.Folds standing asks (fold expression) realm.Passes := by
  have typingListed : asks (.typing expression) := lighter _ (by grind)
  unfold fold
  cases expression with
  | literal literal => exact .pure (passes_of_parts_eq_nil (by cases literal <;> rfl))
  | named name => exact ofName_folds admits raised name
  | instantiated name arguments => exact ofTyping_folds admits raised isPlain typingListed
  | type type => exact ofTyping_folds admits raised isPlain typingListed
  | member base name =>
    exact ofMember_folds admits raised isPlain (lighter _ (by grind)) typingListed
  | binary operator left right =>
    exact ofBinary_folds isPlain (lighter _ (by grind)) (lighter _ (by grind)) operator
  | unary operator operand =>
    exact .bind (value_folds isPlain (lighter _ (by grind))) fun _ _ => ofUnary_folds operator _
  | array items =>
    exact .bind (values_folds isPlain fun item isItem => lighter _ (by grind)) fun _ areItems =>
      .pure (passes_valueArray.mpr areItems)
  | isType subject =>
    exact .lift_bind (.resolveOne isPlain (lighter _ (by grind))) fun _ _ =>
      .pure (passes_of_parts_eq_nil rfl)
  | isRelated subject relation other =>
    exact .lift_bind
      (isRelated_confined isPlain (lighter _ (by grind)) (lighter _ (by grind)) relation)
      fun _ _ => .pure (passes_of_parts_eq_nil rfl)
  | index base position =>
    refine .bind (value_folds isPlain (lighter _ (by grind))) fun base isBase => ?_
    refine .bind (value_folds isPlain (lighter _ (by grind))) fun position _ => ?_
    have isItem := passes_itemAt? isBase position
    split
    next isFound => exact .pure (passes_some.mp (isFound ▸ isItem))
    next => exact .throw _
  | call callee arguments => exact .throw _
  | new type => exact .throw _

theorem ofExpression_confined
    (admits : realm.narrow.tree.Admits realm.within) (raised : realm.narrow.tree.RaisesOnly asks)
    (isPlain : standing ≠ .overridden)
    (lighter :
      ∀ question : Question, question.weight < (Question.value expression).weight → asks question) :
    realm.Confined standing asks (ofExpression expression) :=
  (fold_folds admits raised isPlain lighter).mono fun outcome isOutcome => by
    cases outcome with
    | ok value => exact passes_ok.mpr (isOutcome value rfl)
    | error error => exact passes_error

end Constant

/--
The rule that answers a question keeps to the realm.

It asks for parts of what it is asked about and for what the tree raises.
-/
theorem Engine.respond_confined
    {question : Question} (admits : realm.narrow.tree.Admits realm.within)
    (isPermitted : standing.permits question) (raised : realm.narrow.tree.RaisesOnly asks)
    (lighter : ∀ other : Question, other.weight < question.weight → asks other)
    (blames : question.isInstance = true → realm.blames)
    (passes : realm.PassesQuestion question) :
    realm.Relates standing asks (respond question) (respond question)
      (realm.PassesAnswer question) := by
  cases question with
  | type type =>
    exact Resolution.ofType_confined raised (by rintro rfl; exact isPermitted) lighter blames
  | symbol node bindings => exact DeclaredSymbol.of_confined admits passes.1 passes.2
  | value expression =>
    exact ofExpression_confined admits raised (by rintro rfl; exact isPermitted) lighter
  | typing expression =>
    exact Typing.ofExpression_confined raised (by rintro rfl; exact isPermitted) lighter

end DScope
