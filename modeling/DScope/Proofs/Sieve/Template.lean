import DScope.Proofs.Sieve.Lookup
import Mathlib.Data.List.Find

namespace DScope

/-!
# Template parameters keep to a realm

Template parameters are bound and matched by their kinds and names, which are read
from the tree at places that pass. Bindings of what passes therefore come out the
same in both programs and pass.
-/

open Sieve Template

variable {parameter : NodeId} {asks : Question → Prop} {kind : ParameterKind}

namespace Sieve

variable {sieve : Sieve} {symbol : Symbol} {owner : Node}

theorem PassesEntry.tupleParameter?
    (isOwner : sieve.PassesEntry owner) (tree : Tree) (pattern : TypeExpr) :
    sieve.Passes (tupleParameter? tree owner pattern) := by
  unfold Template.tupleParameter?
  cases pattern.plainName? with
  | none => exact passes_none
  | some name => exact isOwner.templateParameters.find? _

theorem PassesEntry.bindValue
    (isOwner : sieve.PassesEntry owner) (tree : Tree) (name : String) {value : Value}
    (isValue : sieve.Passes value) {bindings : Bindings} (passes : sieve.Passes bindings) :
    sieve.Passes (bindValue tree owner name value bindings) := by
  have isFound : sieve.Passes (valueParameter? tree owner name) :=
    isOwner.templateParameters.find? _
  unfold Template.bindValue
  split
  · exact passes_some.mpr passes
  next parameter isParameter =>
    rw [isParameter, passes_some, passes_node] at isFound
    split
    · split
      · exact passes_some.mpr passes
      · exact passes_none
    · exact passes_some.mpr (passes.set (isValue.ofValue isFound))

theorem Passes.firstRejected?
    {parameters : List NodeId} (areParameters : sieve.Passes parameters) {given : List Argument}
    (areGiven : sieve.Passes given) (tree : Tree) :
    sieve.Passes (firstRejected? tree parameters given) := by
  induction parameters generalizing given with
  | nil => exact passes_none
  | cons parameter rest ih =>
    obtain ⟨isNode, areParameters⟩ := passes_cons.mp areParameters
    cases given with
    | nil => exact passes_none
    | cons argument given =>
      obtain ⟨isArgument, areGiven⟩ := passes_cons.mp areGiven
      unfold Template.firstRejected?
      split
      iterate 3 exact passes_none
      split
      · exact ih areParameters areGiven
      · exact passes_some.mpr
          (passes_deduction.mpr ⟨passes_node.mp isNode, passes_some.mpr isArgument⟩)

end Sieve

namespace Sieve.Covers

variable {sieve : Sieve} {narrow wide : Tree} {symbol : Symbol} {owner : Node}

variable (covers : sieve.Covers narrow wide)
include covers

section

variable (isOwner : sieve.PassesEntry owner)
include isOwner

theorem nameOf_templateParameter (isParameter : parameter ∈ owner.templateParameters) :
    wide.nameOf parameter = narrow.nameOf parameter ∧
      wide.parameterKind? parameter = narrow.parameterKind? parameter := by
  have isNode := passes_node.mp (isOwner.templateParameters.mem isParameter)
  exact ⟨covers.nameOf isNode, covers.parameterKind? isNode⟩

theorem valueParameter? (name : String) :
    valueParameter? wide owner name = valueParameter? narrow owner name := by
  refine List.find?_congr fun parameter isParameter => ?_
  obtain ⟨sameName, sameKind⟩ := covers.nameOf_templateParameter isOwner isParameter
  rw [sameName, sameKind]

theorem tupleParameter? (pattern : TypeExpr) :
    tupleParameter? wide owner pattern = tupleParameter? narrow owner pattern := by
  refine congrArg (pattern.plainName?.bind ·) (funext fun name => ?_)
  refine List.find?_congr fun parameter isParameter => ?_
  obtain ⟨sameName, sameKind⟩ := covers.nameOf_templateParameter isOwner isParameter
  rw [sameName, sameKind]

theorem lengthName? (name : Option String) :
    Template.lengthName? wide owner name = Template.lengthName? narrow owner name := by
  simp only [Template.lengthName?, covers.valueParameter? isOwner]

theorem bindValue (name : String) (value : Value) (bindings : Bindings) :
    Template.bindValue wide owner name value bindings =
      Template.bindValue narrow owner name value bindings := by
  rw [Template.bindValue, Template.bindValue, covers.valueParameter? isOwner]

end

theorem firstRejected?
    {parameters : List NodeId} (areParameters : sieve.Passes parameters) (given : List Argument) :
    firstRejected? wide parameters given =
      firstRejected? narrow parameters given := by
  induction parameters generalizing given with
  | nil => rfl
  | cons parameter rest ih =>
    obtain ⟨isNode, areParameters⟩ := passes_cons.mp areParameters
    have isNode := passes_node.mp isNode
    cases given with
    | nil => rfl
    | cons argument given =>
      unfold Template.firstRejected?
      rw [covers.parameterKind? isNode, covers.nameOf isNode, ih areParameters given]

theorem rejectedArgument? (passes : sieve.Passes symbol) (given : List Argument) :
    rejectedArgument? wide symbol given =
      rejectedArgument? narrow symbol given := by
  unfold Template.rejectedArgument?
  cases isDefinition : symbol.definition? with
  | none => rfl
  | some node =>
    have isNode := passes.definition? isDefinition
    simp only [Option.bind_some, covers.node? isNode]
    cases isEntry : narrow.node? node with
    | none => rfl
    | some entry =>
      exact covers.firstRejected? (covers.entry isNode isEntry).templateParameters given

theorem passes_rejectedArgument?
    (passes : sieve.Passes symbol) {given : List Argument} (areGiven : sieve.Passes given) :
    sieve.Passes (Template.rejectedArgument? narrow symbol given) := by
  unfold Template.rejectedArgument?
  cases isDefinition : symbol.definition? with
  | none => exact passes_none
  | some node =>
    simp only [Option.bind_some]
    cases isEntry : narrow.node? node with
    | none => exact passes_none
    | some entry =>
      have isNode := passes.definition? isDefinition
      exact (covers.entry isNode isEntry).templateParameters.firstRejected? areGiven narrow
end Sieve.Covers

theorem ParameterKind.questions_withoutReceiver (kind : ParameterKind) :
    kind.withoutReceiver.questions = kind.questions := by
  cases kind <;> rfl

theorem Tree.RaisesOnly.ofParameterKind {tree : Tree} (raised : tree.RaisesOnly asks)
    {entry : Node} (found : tree.node? parameter = some entry)
    (isParameter : entry.parameterKind? = some kind) :
    ∀ question ∈ kind.withoutReceiver.questions, asks question := by
  intro question isHeld
  rw [ParameterKind.questions_withoutReceiver] at isHeld
  refine raised _ (.declaration found ?_ (Nat.le_refl _))
  unfold Node.parameterKind? at isParameter
  split at isParameter
  next held shape =>
    cases isParameter
    simp [Node.sharedQuestions, shape, isHeld]
  next => cases isParameter

variable {realm : Realm} {standing : Standing}

namespace Template

variable {owner : NodeId} {bindings : Bindings} {given : List Argument} {overload : Symbol}
  {parameters : List NodeId} {method : NodeId} {type : TypeExpr} {value : Expr}

/-! ## Arguments -/

theorem typeArgument_confined (isPlain : standing ≠ .overridden) (typeListed : asks (.type type))
    (valueListed : asks (.value (.type type))) :
    realm.Confined standing asks (typeArgument type) := by
  refine (Realm.Relates.resolve isPlain typeListed).bind fun symbols areSymbols => ?_
  split
  · exact .pure passes_unresolved
  next first _ =>
    have isFirst := passes_argumentType.mpr (passes_cons.mp areSymbols).1
    split
    · refine (Realm.Relates.evaluate isPlain valueListed).bind fun evaluated isEvaluated => ?_
      split
      · exact .pure (passes_argumentType.mpr (passes_valueType.mp (passes_ok.mp isEvaluated)))
      · exact .pure (passes_argumentValue.mpr (passes_ok.mp isEvaluated))
      · exact .pure isFirst
    · exact .pure isFirst

theorem valueArgument_confined (isPlain : standing ≠ .overridden) (isListed : asks (.value value)) :
    realm.Confined standing asks (valueArgument value) := by
  refine (Realm.Relates.evaluate isPlain isListed).bind fun evaluated isEvaluated => ?_
  split
  · exact .pure (passes_argumentType.mpr (passes_valueType.mp (passes_ok.mp isEvaluated)))
  · exact .pure (passes_argumentValue.mpr (passes_ok.mp isEvaluated))
  · exact .pure (passes_argumentValue.mpr (passes_of_parts_eq_nil rfl))

theorem resolveArguments_confined
    {arguments : List WrittenArgument} (isPlain : standing ≠ .overridden)
    (parts :
      ∀ question : Question,
        question.weight ≤ 2 * WrittenArgument.weights arguments → asks question) :
    realm.Confined standing asks (resolveArguments arguments) := by
  refine .listed (.mapM fun argument member => ?_)
  cases argument with
  | type type => exact typeArgument_confined isPlain (parts _ (by grind)) (parts _ (by grind))
  | value value => exact valueArgument_confined isPlain (parts _ (by grind))

section

variable (isOwner : realm.node owner)
include isOwner

theorem resolveUnder_confined (areBound : realm.Passes bindings) (isListed : asks (.type type)) :
    realm.Confined standing asks (Query.withFrame (frameOf owner bindings) (Query.resolve type)) :=
  .withScope isOwner areBound (.resolve standing.opened_ne_overridden isListed)

theorem evaluateUnder_confined (areBound : realm.Passes bindings) (isListed : asks (.value value)) :
    realm.Confined standing asks
      (Query.withFrame (frameOf owner bindings) (Query.evaluate value)) :=
  .withScope isOwner areBound (.evaluate standing.opened_ne_overridden isListed)

/-! ## Binding parameters -/

theorem defaultBinding?_confined
    (isParameter : realm.node parameter) (areBound : realm.Passes bindings)
    (held : ∀ question ∈ kind.questions, asks question) :
    realm.Confined standing asks (defaultBinding? owner parameter kind bindings) := by
  have ofTypes {found : Option (List Symbol)} (areFound : realm.Passes found) :
      realm.Passes ((found.bind List.head?).map (Binding.ofType parameter)) :=
    (areFound.optionBind fun _ => Passes.head?).optionMap fun _ isType => isType.ofType isParameter
  have ofValue {value : Value} (isValue : realm.Passes (some (.ok value : Except EvalError Value))) :
      realm.Passes (some (Binding.ofValue parameter value)) :=
    passes_some.mpr ((passes_ok.mp (passes_some.mp isValue)).ofValue isParameter)
  unfold defaultBinding?
  split
  iterate 2
    · refine (resolveUnder_confined isOwner areBound (held _ ?_)).bind fun found areFound => ?_
      · simp [ParameterKind.questions]
      · exact .pure (ofTypes areFound)
  iterate 2
    · refine (evaluateUnder_confined isOwner areBound (held _ ?_)).bind
        fun evaluated isEvaluated => ?_
      · simp [ParameterKind.questions]
      · split
        · exact .pure (ofValue isEvaluated)
        · exact .pure passes_none
  · exact .pure passes_none

theorem withDefault_confined
    (isParameter : realm.node parameter) (areBound : realm.Passes bindings)
    (held : ∀ question ∈ kind.questions, asks question) :
    realm.Confined standing asks (withDefault owner parameter kind bindings) := by
  refine (defaultBinding?_confined isOwner isParameter areBound held).bind fun found isFound => ?_
  split
  · exact .pure (areBound.set (passes_some.mp isFound))
  · exact .pure areBound

theorem specialize_confined
    {bound : Binding} (isBound : realm.Passes bound) (areBound : realm.Passes bindings)
    (held : ∀ question ∈ kind.questions, asks question) :
    realm.Confined standing asks (specialize owner kind bound bindings) := by
  have toPattern (pattern : TypeExpr) (isHeld : .type pattern ∈ kind.questions) (type : Symbol)
      (isType : realm.Passes type) :
      realm.Confined standing asks
        (do
          let expected ← Query.withFrame (frameOf owner bindings) (Query.resolve pattern)
          return convertToAny type (expected.getD []) bindings) := by
    refine (resolveUnder_confined isOwner areBound (held _ isHeld)).bind
      fun found areFound => .pure ?_
    exact areBound.convertToAny isType (areFound.getD passes_nil)
  have isBase := (passes_binding.mp isBound).2.1
  unfold specialize
  split
  iterate 2
    · cases isType : bound.base with
      | none => exact .pure passes_none
      | some type =>
        refine toPattern _ ?_ type (passes_some.mp (isType ▸ isBase))
        simp [ParameterKind.questions]
  · refine (evaluateUnder_confined isOwner areBound (held _ ?_)).bind fun expected _ => ?_
    · simp [ParameterKind.questions]
    · split
      · refine .pure ?_
        split
        · exact passes_some.mpr areBound
        · exact passes_none
      · exact .pure passes_none
  · exact .pure (passes_some.mpr areBound)

/-! ## Matching a call -/

variable {argument : Symbol}

theorem matchResolved_confined
    {pattern : TypeExpr} (isArgument : realm.Passes argument) (areBound : realm.Passes bindings)
    (isListed : asks (.type pattern)) :
    realm.Confined standing asks (matchResolved owner pattern argument bindings) := by
  refine (resolveUnder_confined isOwner areBound isListed).bind fun expected areExpected => ?_
  have isExpected : realm.Passes (expected.bind List.head?) :=
    areExpected.optionBind fun _ => Passes.head?
  split
  · exact .pure (passes_some.mpr areBound)
  next expected isFirst =>
    rw [isFirst, passes_some] at isExpected
    have isConverted := areBound.convert isArgument isExpected
    refine .pure ?_
    split
    · exact passes_some.mpr isConverted
    · exact passes_none

end

theorem fixedArray?_passes (passes : realm.Passes argument) {element : Symbol} {length : Nat}
    (isFixed : fixedArray? argument = some (element, length)) : realm.Passes element := by
  unfold fixedArray? at isFixed
  split at isFixed <;> cases isFixed
  next isShape => exact passes_some.mp (passes_array.mp (passes.shape isShape))

theorem matchType_of_strip_eq_none (isNothing : argument.strip = none) (owner : NodeId)
    (pattern : TypeExpr) (bindings : Bindings) :
    matchType owner pattern argument bindings = pure (some bindings) := by
  unfold matchType
  cases pattern <;> simp only [isNothing]

mutual

theorem matchType_confined
    (isOwner : realm.node owner) (pattern : TypeExpr) {argument : Symbol} {bindings : Bindings}
    (parts : ∀ question : Question, question.weight ≤ (Question.type pattern).weight → asks question)
    (isArgument : realm.Passes argument) (areBound : realm.Passes bindings) :
    realm.Confined standing asks (matchType owner pattern argument bindings) := by
  have isStripped := isArgument.strip
  cases isStrip : argument.strip with
  | none =>
    rw [matchType_of_strip_eq_none isStrip]
    exact .pure (passes_some.mpr areBound)
  | some type =>
    have isType : realm.Passes type := passes_some.mp (isStrip ▸ isStripped)
    unfold matchType
    cases pattern <;> simp only [isStrip]
    case modified modifier inner =>
      exact matchType_confined isOwner inner (fun question isPart => parts question (by grind))
        isType areBound
    case instantiated name patterns =>
      split
      · exact .pure passes_none
      next aggregate isAggregate =>
        obtain ⟨isNode, -, -, areGiven, -⟩ := passes_aggregate.mp (isType.aggregate? isAggregate)
        refine .node_bind isNode fun template _ isTemplate => ?_
        split
        · exact matchArguments_confined isOwner patterns
            (fun question isPart => parts question (by grind)) areGiven
            isTemplate.templateParameters areBound
        · exact .pure passes_none
    case sizedArray element _ | keyedArray element _ =>
      refine .tree_bind (.node_bind isOwner fun template _ isTemplate => ?_)
      simp only [realm.fits.tree.lengthName? isTemplate, realm.fits.tree.bindValue isTemplate]
      split
      next name elementType size _ isFixed =>
        have isElement := fixedArray?_passes isType isFixed
        have isSize : realm.Passes (Value.size size) := passes_of_parts_eq_nil rfl
        have isBound := isTemplate.bindValue realm.narrow.tree name isSize areBound
        split
        next isMatched =>
          exact matchType_confined isOwner element
            (fun question isPart => parts question (by grind)) isElement
            (passes_some.mp (isMatched ▸ isBound))
        next => exact .pure passes_none
      next => exact matchResolved_confined isOwner isType areBound (parts _ (Nat.le_refl _))
    all_goals exact matchResolved_confined isOwner isType areBound (parts _ (Nat.le_refl _))

theorem matchBinding_confined
    (isOwner : realm.node owner) (pattern : WrittenArgument) {bound : Binding} {bindings : Bindings}
    (parts : ∀ question : Question, question.weight ≤ 2 * pattern.weight → asks question)
    (isBound : realm.Passes bound) (areBound : realm.Passes bindings) :
    realm.Confined standing asks (matchBinding owner pattern bound bindings) := by
  obtain ⟨-, isBase, isValue⟩ := passes_binding.mp isBound
  cases pattern with
  | type pattern =>
    unfold matchBinding
    split
    next isType =>
      exact matchType_confined isOwner pattern (fun question isPart => parts question (by grind))
        (passes_some.mp (isType ▸ isBase)) areBound
    next value _ isConstant =>
      rw [isConstant, passes_some] at isValue
      split
      · refine .tree_bind (.node_bind isOwner fun template _ isTemplate => ?_)
        rw [realm.fits.tree.bindValue isTemplate]
        exact .pure (isTemplate.bindValue _ _ isValue areBound)
      · exact .pure passes_none
    next => exact .pure (passes_some.mpr areBound)
  | value pattern =>
    unfold matchBinding
    split
    next value _ isConstant =>
      rw [isConstant, passes_some] at isValue
      refine .tree_bind (.node_bind isOwner fun template _ isTemplate => ?_)
      rw [realm.fits.tree.bindValue isTemplate]
      exact .pure (isTemplate.bindValue _ _ isValue areBound)
    next => exact .pure (passes_some.mpr areBound)

theorem matchArguments_confined
    (isOwner : realm.node owner) (patterns : List WrittenArgument) {given : Bindings}
    {parameters : List NodeId} {bindings : Bindings}
    (parts :
      ∀ question : Question, question.weight ≤ 2 * WrittenArgument.weights patterns → asks question)
    (areGiven : realm.Passes given) (areParameters : realm.Passes parameters)
    (areBound : realm.Passes bindings) :
    realm.Confined standing asks (matchArguments owner patterns given parameters bindings) := by
  cases patterns with
  | nil => exact .pure (passes_some.mpr areBound)
  | cons pattern patterns =>
    cases parameters with
    | nil => exact .pure (passes_some.mpr areBound)
    | cons parameter parameters =>
      have isGiven := areGiven.get? parameter
      unfold matchArguments
      split
      · exact .pure passes_none
      next bound isBound =>
        rw [isBound, passes_some] at isGiven
        refine (matchBinding_confined isOwner pattern (fun question isPart =>
          parts question (by grind)) isGiven areBound).bind fun matched isMatched => ?_
        split
        · exact matchArguments_confined isOwner patterns
            (fun question isPart => parts question (by grind)) areGiven
            (passes_cons.mp areParameters).2 (passes_some.mp isMatched)
        · exact .pure passes_none

end

/-! ## Parameters that the tree declares -/

variable (raised : realm.narrow.tree.RaisesOnly asks)

include raised

section

variable (isOwner : realm.node owner)
include isOwner

theorem bindInOrder_confined
    {receiver : Option Symbol} (isReceiver : realm.Passes receiver)
    (areParameters : realm.Passes parameters) (usesDefaults : Bool)
    (areGiven : realm.Passes given) (areBound : realm.Passes bindings) :
    realm.Confined standing asks
      (bindInOrder owner receiver usesDefaults parameters given bindings) := by
  induction parameters generalizing given bindings with
  | nil => exact .pure (passes_some.mpr (passes_pair.mpr ⟨areBound, areGiven⟩))
  | cons parameter rest ih =>
    obtain ⟨isNode, areParameters⟩ := passes_cons.mp areParameters
    have isNode := passes_node.mp isNode
    have ih {given bindings} := @ih given bindings areParameters
    refine .node_bind isNode fun entry isEntry _ => ?_
    split
    next => exact ih areGiven areBound
    next =>
      exact ih areGiven (areBound.set ((passes_some.mp isReceiver).ofType isNode))
    next kind isParameter _ _ =>
      split
      next =>
        have isTuple := (passes_tupleSymbol areGiven).ofType isNode
        exact ih passes_nil (areBound.set isTuple)
      next argument later _ =>
        obtain ⟨isArgument, areLater⟩ := passes_cons.mp areGiven
        have isBinding := isArgument.bind? isNode kind.withoutReceiver
        split
        next binding isBound =>
          rw [isBound, passes_some] at isBinding
          exact ih areLater (areBound.set isBinding)
        next => exact .pure passes_none
      next =>
        split
        · refine (withDefault_confined isOwner isNode areBound
            (raised.ofParameterKind isEntry isParameter)).bind fun bindings areBound => ?_
          exact ih passes_nil areBound
        · exact ih passes_nil areBound

theorem bindParameters_confined
    (isOverload : realm.Passes overload) (areGiven : realm.Passes given)
    (areBound : realm.Passes bindings) (atCall usesDefaults : Bool) :
    realm.Confined standing asks
      (bindParameters owner overload given atCall usesDefaults bindings) := by
  have isReceiver : realm.Passes (overload.receiver?.bind Symbol.strip) :=
    isOverload.receiver?.optionBind fun _ => Passes.strip
  refine .node_bind isOwner fun entry _ isEntry => ?_
  refine (bindInOrder_confined raised isOwner isReceiver isEntry.templateParameters usesDefaults
    areGiven areBound).bind fun result isResult => ?_
  split
  · refine .pure ?_
    split
    · exact passes_some.mpr (passes_pair.mp (passes_some.mp isResult)).1
    · exact passes_none
  · exact .pure passes_none

theorem applyDefault_confined
    (areBound : realm.Passes bindings) (isParameter : realm.node parameter) :
    realm.Confined standing asks (applyDefault owner bindings parameter) := by
  unfold applyDefault
  split
  · exact .pure areBound
  · refine .node_bind isParameter fun entry isEntry _ => ?_
    split
    next => exact .pure areBound
    next => exact .pure (areBound.set ((passes_tupleSymbol passes_nil).ofType isParameter))
    next isKind =>
      exact withDefault_confined isOwner isParameter areBound
        (raised.ofParameterKind isEntry isKind)

theorem applyDefaults_confined (areBound : realm.Passes bindings) :
    realm.Confined standing asks (applyDefaults owner bindings) := by
  refine .node_bind isOwner fun entry _ isEntry => .foldlM (fun bound parameter isHeld areBound => ?_)
    areBound
  exact applyDefault_confined raised isOwner areBound
    (passes_node.mp (isEntry.templateParameters.mem isHeld))

theorem specializeAll_confined
    (areParameters : realm.Passes parameters) (areBound : realm.Passes bindings) :
    realm.Confined standing asks (specializeAll owner parameters bindings) := by
  induction parameters generalizing bindings with
  | nil => exact .pure (passes_some.mpr areBound)
  | cons parameter rest ih =>
    obtain ⟨isNode, areParameters⟩ := passes_cons.mp areParameters
    refine .node_bind (passes_node.mp isNode) fun entry isEntry _ => ?_
    split
    next kind bound isParameter isBound =>
      have isBound : realm.Passes bound := passes_some.mp (isBound ▸ areBound.get? parameter)
      refine (specialize_confined isOwner isBound areBound
        (raised.ofParameterKind isEntry isParameter)).bind fun found isFound => ?_
      split
      · exact ih areParameters (passes_some.mp isFound)
      · exact .pure passes_none
    next => exact ih areParameters areBound

theorem specialized?_confined (areBound : realm.Passes bindings) :
    realm.Confined standing asks (specialized? owner bindings) :=
  .node_bind isOwner fun _ _ isEntry =>
    specializeAll_confined raised isOwner isEntry.templateParameters areBound

end

theorem matchCall_confined
    {entry : Node} {arguments : List (Option Symbol)} (isMethod : realm.node method)
    (isEntry : realm.narrow.tree.node? method = some entry)
    (areOwn : ∀ parameter ∈ parameters, parameter ∈ entry.parameters)
    (areArguments : realm.Passes arguments) (areBound : realm.Passes bindings) :
    realm.Confined standing asks (matchCall method parameters arguments bindings) := by
  induction parameters generalizing arguments bindings with
  | nil =>
    refine .pure ?_
    split
    · exact passes_some.mpr areBound
    · exact passes_none
  | cons parameter rest ih =>
    obtain ⟨isOwn, areOwn⟩ := List.forall_mem_cons.mp areOwn
    have isNode := (realm.fits.tree.entry isMethod isEntry).parameters.mem isOwn
    have ih {arguments bindings} := @ih arguments bindings areOwn
    refine .node_bind (passes_node.mp isNode) fun parameterEntry isParameter _ => ?_
    split
    next => exact ih areArguments.tail areBound
    next pattern isTyped =>
      refine .tree_bind (.node_bind isMethod fun template _ isTemplate => ?_)
      have isTuple := isTemplate.tupleParameter? realm.narrow.tree pattern
      rw [realm.fits.tree.tupleParameter? isTemplate]
      split
      next tuple isFound =>
        rw [isFound, passes_some, passes_node] at isTuple
        have areItems := areArguments.map fun _ => Passes.tupleItem
        exact .pure (passes_some.mpr (areBound.set ((passes_tupleSymbol areItems).ofType isTuple)))
      next =>
        split
        · split
          · exact ih passes_nil areBound
          · exact .pure passes_none
        · exact ih (passes_cons.mp areArguments).2 areBound
        · obtain ⟨isArgument, areArguments⟩ := passes_cons.mp areArguments
          refine (matchType_confined isMethod pattern (fun question isPart =>
            raised _ (.parameter isEntry isOwn isParameter isTyped isPart))
            (passes_some.mp isArgument) areBound).bind fun matched isMatched => ?_
          split
          · exact ih areArguments (passes_some.mp isMatched)
          · exact .pure passes_none

theorem firstParameterAccepts_confined
    (isMethod : realm.node method) (isArgument : realm.Passes argument) :
    realm.Relates standing asks (firstParameterAccepts method argument)
      (firstParameterAccepts method argument) fun _ => True := by
  refine .node_bind isMethod fun entry isFound isEntry => ?_
  split
  next => exact .pure trivial
  next parameter rest parameters =>
    have areParameters := isEntry.parameters
    rw [parameters, passes_cons, passes_node] at areParameters
    refine .node_bind areParameters.1 fun parameterEntry isParameter _ => ?_
    split
    next => exact .pure trivial
    next pattern isTyped =>
      refine .tree_bind ?_
      rw [realm.fits.tree.tupleParameter? isEntry]
      split
      · exact .pure trivial
      · have isOwn : parameter ∈ entry.parameters := by simp [parameters]
        exact (matchType_confined isMethod pattern (fun question isPart =>
          raised _ (.parameter isFound isOwn isParameter isTyped isPart)) isArgument
          isEntry.templateParameters.forParameters).bind fun _ _ => .pure trivial

end Template

end DScope
