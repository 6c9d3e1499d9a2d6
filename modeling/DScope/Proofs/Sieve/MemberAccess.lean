import DScope.Proofs.Sieve.Template

namespace DScope

/-!
# Overloads and member access keep to a realm

Overloads are ranked and properties are looked up by what the tree says about
places that pass, so the choice among them is the same in both programs.
-/

open Sieve Template Property

variable {node : NodeId} {overloads : List Symbol} {bindings : Bindings} {receiver : Symbol}

namespace Sieve

variable {sieve : Sieve} {narrow wide : Tree} {symbol : Symbol} {owner : Node}

/-! ## Owners of properties -/

theorem Passes.ownerType? (passes : sieve.Passes symbol) (tree : Tree) :
    sieve.Passes (Property.ownerType? tree symbol) := by
  have isStripped : sieve.Passes ((Property.peel symbol).strip.map Property.peel) :=
    passes.peel.strip.optionMap fun _ => Passes.peel
  unfold Property.ownerType?
  dsimp only
  split
  · split
    · exact passes_some.mpr passes.peel
    · exact isStripped
  · exact isStripped

instance : Composite Property.Owner where
  parts
    | .type symbol => symbol.parts
    | .value value => value.parts
  loose _ := []

theorem passes_typeOwner : sieve.Passes (Owner.type symbol) ↔ sieve.Passes symbol :=
  Iff.rfl

theorem passes_valueOwner {value : Value} :
    sieve.Passes (Owner.value value) ↔ sieve.Passes value :=
  Iff.rfl

theorem passes_propertyConstant? (tree : Tree) (owner : Owner) (name : String) :
    sieve.Passes (constant? tree owner name) := by
  refine passes_option.mpr fun constant isConstant => ?_
  obtain ⟨entry, -, isConstant⟩ := Option.bind_eq_some_iff.mp isConstant
  obtain ⟨rule, -, isConstant⟩ := Option.bind_eq_some_iff.mp isConstant
  exact passes_some.mp (isConstant ▸ passes_constant?)

namespace Covers

variable (covers : sieve.Covers narrow wide)
include covers

theorem isTupleParameter (isNode : sieve.node node) :
    Property.isTupleParameter wide node = Property.isTupleParameter narrow node := by
  rw [Property.isTupleParameter, Property.isTupleParameter, covers.parameterKind? isNode]

theorem ownerType? (passes : sieve.Passes symbol) :
    ownerType? wide symbol = ownerType? narrow symbol := by
  unfold Property.ownerType?
  dsimp only
  split
  next isShape =>
    have isBinding := passes_binding.mp (passes_parameter.mp (passes.peel.shape isShape))
    rw [covers.isTupleParameter isBinding.1]
  next => rfl

theorem categoryOf (passes : sieve.Passes symbol) :
    categoryOf wide symbol = categoryOf narrow symbol := by
  unfold Property.categoryOf
  split
  case h_7 binding isShape =>
    have isBinding := passes_binding.mp (passes_parameter.mp (passes.shape isShape))
    rw [covers.isTupleParameter isBinding.1]
  all_goals rfl

theorem category? {owner : Property.Owner} (passes : sieve.Passes owner) :
    owner.category? wide = owner.category? narrow := by
  have ofType {symbol : Symbol} (isSymbol : sieve.Passes symbol) :
      (Property.ownerType? wide symbol).bind (Property.categoryOf wide) =
        (Property.ownerType? narrow symbol).bind (Property.categoryOf narrow) := by
    have isOwnerType := isSymbol.ownerType? narrow
    rw [covers.ownerType? isSymbol]
    cases isType : Property.ownerType? narrow symbol with
    | none => rfl
    | some type => exact covers.categoryOf (passes_some.mp (isType ▸ isOwnerType))
  cases owner with
  | type symbol => exact ofType (passes_typeOwner.mp passes)
  | value value =>
    have isValue := passes_valueOwner.mp passes
    cases value with
    | integer _ basic | float _ basic => exact covers.categoryOf (passes_basic basic)
    | type symbol => exact ofType (passes_valueType.mp isValue)
    | _ => rfl

theorem constant? {owner : Property.Owner} (passes : sieve.Passes owner) (name : String) :
    constant? wide owner name = constant? narrow owner name := by
  rw [Property.constant?, Property.constant?, covers.category? passes]

/-! ## Ranks of overloads -/

theorem ranks (passes : sieve.Passes symbol) :
    Template.ranks wide symbol = Template.ranks narrow symbol := by
  unfold Template.ranks
  cases isDefinition : symbol.definition? with
  | none => rfl
  | some node =>
    have isNode := passes.definition? isDefinition
    simp only [Option.bind_some, covers.node? isNode]
    cases isEntry : narrow.node? node with
    | none => rfl
    | some entry =>
      have areParameters := (covers.entry isNode isEntry).templateParameters
      refine List.map_congr_left fun parameter isParameter => ?_
      rw [covers.parameterKind? (passes_node.mp (areParameters.mem isParameter))]

theorem mostSpecialized (passes : sieve.Passes overloads) :
    mostSpecialized wide overloads = mostSpecialized narrow overloads := by
  refine List.filter_congr fun overload isOverload => congrArg not ?_
  rw [Bool.eq_iff_iff, List.any_eq_true, List.any_eq_true]
  refine exists_congr fun other => and_congr_right fun isOther => ?_
  rw [covers.ranks (passes.mem isOther), covers.ranks (passes.mem isOverload)]

theorem namesakes (isOwner : sieve.PassesEntry owner) :
    namesakes wide owner = namesakes narrow owner := by
  refine List.filter_congr fun child isChild => ?_
  rw [covers.nameOf (passes_node.mp (isOwner.children.mem isChild))]

end Covers

end Sieve

variable {realm : Realm} {standing : Standing} {asks : Question → Prop}

namespace Template

theorem eponymousType_confined
    {type : Option TypeExpr} {initializer : Option Expr} (isNode : realm.node node)
    (areBound : realm.Passes bindings)
    (held :
      ∀ question ∈ type.toList.map Question.type ++ initializer.toList.map .typing, asks question) :
    realm.Confined standing asks (eponymousType node type initializer bindings) := by
  unfold eponymousType
  split
  · refine (resolveUnder_confined isNode areBound (held _ (by simp))).bind fun found areFound => ?_
    exact .pure (areFound.optionBind fun _ => Passes.head?)
  · exact .bind (.withScope isNode areBound
      (.evaluateType standing.opened_ne_overridden (held _ (by simp)))) fun found isFound =>
        .pure isFound.join
  · refine .tree_bind ?_
    rw [realm.fits.tree.nameOf isNode]
    have isOrigin : realm.Passes (some node) := passes_some.mpr (passes_node.mpr isNode)
    exact .bind (.reporting (passes_nothingFound.mpr isOrigin) nofun) fun _ _ =>
      .pure passes_none

theorem theOnly_confined (areOverloads : realm.Passes overloads) (subject : String) :
    realm.Confined standing asks (theOnly overloads subject) := by
  unfold theOnly
  split
  · exact .pure (passes_some.mpr (passes_cons.mp areOverloads).1)
  · exact .bind (.reporting (passes_nothingFound.mpr passes_none) nofun) fun _ _ =>
      .pure passes_none
  · exact .bind (.reporting (passes_ambiguousSpecialization.mpr areOverloads) nofun) fun _ _ =>
      .pure passes_none

end Template

namespace MemberAccess

variable {owner : Symbol}

theorem inPackage?_eq (path name : String) :
    inPackage? realm.wide path name = inPackage? realm.narrow path name := by
  simp only [inPackage?, realm.fits.module?, realm.fits.package?]

theorem passes_inPackage? (path name : String) :
    realm.Passes (inPackage? realm.narrow path name) := by
  unfold inPackage?
  dsimp only
  split
  next isModule => exact passes_some.mpr (passes_moduleSymbol (realm.fits.isModule isModule))
  next =>
    cases realm.narrow.package? (path ++ "." ++ name) with
    | none => exact passes_none
    | some package => exact passes_some.mpr passes_package

theorem passes_onReceiver
    {found : Symbol} (isReceiver : realm.Passes receiver) (isFound : realm.Passes found) :
    realm.Passes (onReceiver owner receiver found) := by
  unfold onReceiver
  split
  · exact isFound.withTag isReceiver
  · exact isFound

end MemberAccess

variable (raised : realm.narrow.tree.RaisesOnly asks)

include raised

namespace Property

theorem fixedType_confined (type : FixedType) : realm.Confined standing asks type.symbol? := by
  unfold FixedType.symbol?
  split
  · exact .pure (passes_some.mpr (passes_basic _))
  · exact .pure (passes_some.mpr (passes_pointer.mpr (passes_some.mpr (passes_basic .void))))
  · exact (Lookup.sizeType_confined raised).bind fun _ isType => .pure (passes_some.mpr isType)
  · refine (Lookup.first?_confined raised "string").bind fun found isFound => .pure ?_
    exact passes_some.mpr (isFound.getD passes_string)
  · refine .reading ?_
    rw [Program.object?, Program.object?, realm.fits.module?]
    cases isModule : realm.narrow.module? "object" with
    | none => exact .pure passes_none
    | some object =>
      have isObject := realm.fits.isModule isModule
      refine .bind (.withScope isObject passes_noBindings (Lookup.first?_confined raised _)) ?_
      exact fun found isFound => .pure isFound.join

theorem typeRule_confined {owner : Symbol} (isOwner : realm.Passes owner) (rule : TypeRule) :
    realm.Confined standing asks (rule.symbol? owner) := by
  unfold TypeRule.symbol?
  split
  · exact fixedType_confined raised _
  · exact .pure (isOwner.ofOwner? _)

theorem member?_confined {owner : Symbol} (isOwner : realm.Passes owner) (name : String) :
    realm.Confined standing asks (member? owner name) := by
  refine .tree_bind ?_
  rw [realm.fits.tree.ownerType? isOwner]
  have isOwnerType := isOwner.ownerType? realm.narrow.tree
  cases isType : ownerType? realm.narrow.tree owner with
  | none => exact .pure passes_none
  | some type =>
    rw [isType, passes_some] at isOwnerType
    dsimp only
    rw [realm.fits.tree.categoryOf isOwnerType]
    split
    · exact .pure passes_none
    next entry _ =>
      refine (typeRule_confined raised isOwnerType entry.type).bind fun base isBase => .pure ?_
      have isConstant : realm.Passes (entry.constant.bind (·.constant? (.type owner))) := by
        cases entry.constant with
        | none => exact passes_none
        | some rule => exact passes_constant?
      have isBuiltin := passes_builtin.mpr (isOwnerType.declaration entry)
      exact passes_some.mpr (passes_member.mpr ⟨isBuiltin, isBase, passes_noBindings, isConstant⟩)

end Property

namespace Template

variable {owner : NodeId} {given : List Argument} {overload : Symbol}
  {arguments : List (Option Symbol)}

section

variable (isOverload : realm.Passes overload)
include isOverload

theorem instantiateMember_confined (isNode : realm.node node) (areBound : realm.Passes bindings) :
    realm.Confined standing asks (instantiateMember overload node bindings) := by
  refine (Realm.Relates.symbolOf raised isNode areBound).bind fun symbol isSymbol => .pure ?_
  exact (isSymbol.getD isOverload).withMissingTags isOverload.tags

theorem instantiateTemplate_confined
    {parameters : List NodeId} (isOwner : realm.node owner)
    (areParameters : realm.Passes parameters) (areGiven : realm.Passes given) (atCall : Bool) :
    realm.Confined standing asks (instantiateTemplate overload owner parameters given atCall) := by
  have areDeclared : realm.Passes (parameters.foldl Bindings.declare overload.bindings) :=
    areParameters.foldl (fun _ _ passes isNode => passes.declare (passes_node.mp isNode))
      isOverload.bindings
  have areCleared :
      realm.Passes
        (parameters.foldl Bindings.clear (parameters.foldl Bindings.declare overload.bindings)) :=
    areParameters.foldl (fun _ _ passes isNode => passes.clear (passes_node.mp isNode)) areDeclared
  unfold instantiateTemplate
  dsimp only
  split
  · exact .pure (passes_some.mpr isOverload)
  · refine (bindParameters_confined raised isOwner isOverload areGiven ?_ atCall true).bind
      fun bound areBound => ?_
    · split
      · exact areDeclared
      · exact areCleared
    · split
      · exact .pure passes_none
      · split
        · exact .pure passes_none
        · refine (specialized?_confined raised isOwner (passes_some.mp areBound)).bind
            fun specialized areSpecialized => ?_
          split
          · exact .pure passes_none
          · have areSpecialized := passes_some.mp areSpecialized
            split
            · exact (instantiateMember_confined raised isOverload isOwner areSpecialized).bind
                fun _ isInstance => .pure (passes_some.mpr isInstance)
            · exact .pure (passes_some.mpr (isOverload.withBindings areSpecialized))

theorem instantiateDeclared_confined (areGiven : realm.Passes given) (atCall : Bool) :
    realm.Confined standing asks (instantiateDeclared overload given atCall) := by
  have unlessGiven (condition : Bool) :
      realm.Passes (if condition then some overload else none) := by
    split
    · exact passes_some.mpr isOverload
    · exact passes_none
  unfold instantiateDeclared
  split
  · exact .pure (unlessGiven _)
  next isDefinition =>
    have isNode := isOverload.definition? isDefinition
    refine .node_bind isNode fun entry _ isEntry => ?_
    split
    · exact .pure (unlessGiven _)
    · split
      · exact .pure (passes_some.mpr isOverload)
      · exact instantiateTemplate_confined raised isOverload isNode isEntry.templateParameters
          areGiven atCall

theorem instantiateOverload_confined (areGiven : realm.Passes given) (atCall : Bool) :
    realm.Confined standing asks (instantiateOverload overload given atCall) := by
  have isTarget := isOverload.boundTarget?
  unfold instantiateOverload
  split
  · split
    · exact .pure (passes_some.mpr isOverload)
    · split
      next isBound =>
        exact instantiateDeclared_confined raised (passes_some.mp (isBound ▸ isTarget)) areGiven
          atCall
      next => exact .pure passes_none
  · exact instantiateDeclared_confined raised isOverload areGiven atCall

theorem meetsConstraint_confined :
    realm.Relates standing asks (meetsConstraint overload) (meetsConstraint overload) fun _ => True := by
  unfold meetsConstraint
  split
  next => exact .pure trivial
  next owner isDefinition =>
    have isOwner := isOverload.definition? isDefinition
    refine .node_bind isOwner fun entry isEntry _ => ?_
    split
    next => exact .pure trivial
    next constraint isConstrained =>
      have isRaised : realm.narrow.tree.Raises (.value constraint) :=
        .declaration isEntry (by simp [Node.sharedQuestions, isConstrained]) (Nat.le_refl _)
      refine (evaluateUnder_confined isOwner isOverload.bindings (raised _ isRaised)).bind
        fun _ _ => ?_
      split <;> exact .pure trivial

end

theorem narrow_confined (areOverloads : realm.Passes overloads) :
    realm.Confined standing asks (narrow overloads) := by
  refine .tree_bind (.bind (.filterM fun overload isOverload =>
    meetsConstraint_confined raised (areOverloads.mem isOverload)) fun kept areKept => ?_)
  have areKept : realm.Passes kept := areOverloads.subset areKept
  rw [realm.fits.tree.mostSpecialized areKept]
  exact .pure (areKept.filter _)

theorem expand_confined {symbol : Symbol} (isSymbol : realm.Passes symbol) :
    realm.Confined standing asks (expand symbol) := by
  have isAlone : realm.Passes [symbol] := passes_cons.mpr ⟨isSymbol, passes_nil⟩
  unfold expand
  split
  next => exact .pure isAlone
  next aggregate isAggregate =>
    obtain ⟨isNode, -, -, areBound, -⟩ := passes_aggregate.mp (isSymbol.aggregate? isAggregate)
    split
    · exact .pure isAlone
    · refine .node_bind isNode fun entry isFound isEntry => ?_
      split
      next type initializer _ isKind =>
        refine (eponymousType_confined isNode areBound fun question isHeld => raised _
          (.declaration isFound (by simp [Node.sharedQuestions, isKind, isHeld])
            (Nat.le_refl _))).bind fun base isBase => .pure ?_
        exact passes_cons.mpr ⟨passes_memberSymbol isNode isBase areBound, passes_nil⟩
      next =>
        refine .tree_bind ?_
        rw [realm.fits.tree.namesakes isEntry]
        have areChildren : realm.Passes (namesakes realm.narrow.tree entry) :=
          isEntry.children.filter _
        refine .bind (.listed (.mapM fun child isChild => .symbolOf raised
          (passes_node.mp (areChildren.mem isChild)) areBound)) fun members areMembers => .pure ?_
        split
        · exact isAlone
        · exact areMembers.flatMap fun member isMember =>
            (isMember.optionMap fun _ => Passes.candidates).getD passes_nil
      next => exact .pure isAlone

theorem instantiate_confined
    (areOverloads : realm.Passes overloads) (areGiven : realm.Passes given) (atCall : Bool) :
    realm.Confined standing asks (instantiate overloads given atCall) := by
  have areCandidates := areOverloads.flatMap fun _ => Passes.candidates
  refine .bind (.collect fun overload isOverload => ?_) fun instances areInstances => ?_
  · exact (instantiateOverload_confined raised (areCandidates.mem isOverload) areGiven atCall).bind
      fun _ isInstance => .pure isInstance.toList
  · refine (narrow_confined raised areInstances).bind fun kept areKept => ?_
    exact .bind (.listed (.mapM fun symbol isKept => expand_confined raised (areKept.mem isKept)))
      fun _ areExpanded => .pure areExpanded.flatten

theorem instantiateForCall_confined
    (areGiven : realm.Passes given) (areArguments : realm.Passes arguments)
    (isOverload : realm.Passes overload) :
    realm.Confined standing asks (instantiateForCall given arguments overload) := by
  have isReceiver : realm.Passes (overload.receiver?.bind Symbol.strip) :=
    isOverload.receiver?.optionBind fun _ => Passes.strip
  have areTaken :
      realm.Passes
        (if overload.isUfcs then overload.receiver?.bind Symbol.strip :: arguments
        else arguments) := by
    split
    · exact passes_cons.mpr ⟨isReceiver, areArguments⟩
    · exact areArguments
  unfold instantiateForCall
  split
  next method isDefinition =>
    have isMethod := isOverload.definition? isDefinition
    refine .node_bind isMethod fun entry isFound isEntry => ?_
    have isStart := isEntry.templateParameters.forParameters.mergeMissing isOverload.bindings
    split
    · exact .pure passes_none
    · refine (bindParameters_confined raised isMethod isOverload areGiven isStart false false).bind
        fun bound areBound => ?_
      split
      · refine (matchCall_confined raised isMethod isFound (fun _ isOwn => isOwn) areTaken
          (passes_some.mp areBound)).bind fun matched areMatched => ?_
        split
        · refine (applyDefaults_confined raised isMethod (passes_some.mp areMatched)).bind
            fun completed areCompleted => ?_
          split
          · exact .pure passes_none
          · refine (specialized?_confined raised isMethod areCompleted).bind
              fun specialized areSpecialized => ?_
            split
            · exact (instantiateMember_confined raised isOverload isMethod
                (passes_some.mp areSpecialized)).bind fun _ isInstance =>
                  .pure (passes_some.mpr isInstance)
            · exact .pure passes_none
        · exact .pure passes_none
      · exact .pure passes_none
  next => exact .pure passes_none

theorem selectForCall_confined
    (areOverloads : realm.Passes overloads) (areGiven : realm.Passes given)
    (areArguments : realm.Passes arguments) :
    realm.Confined standing asks (selectForCall overloads given arguments) := by
  have areCandidates := areOverloads.flatMap fun _ => Passes.candidates
  refine .bind (.collect fun overload isOverload => ?_) fun _ => narrow_confined raised
  exact (instantiateForCall_confined raised areGiven areArguments
    (areCandidates.mem isOverload)).bind fun _ isInstance => .pure isInstance.toList

end Template

namespace MemberAccess

variable {owner type : Symbol}

theorem declared_confined
    (isOwner : realm.Passes owner) (isReceiver : realm.Passes receiver) (name : String) :
    realm.Confined standing asks (declared owner receiver name) := by
  have ofMembers :
      realm.Confined standing asks
        (do
          let found ← Query.symbolsOf (← Lookup.members owner name .all)
          return found.map (onReceiver owner receiver)) :=
    (Lookup.members_confined raised isOwner name .all).bind fun _ areDeclared =>
      (Query.symbolsOf_confined raised areDeclared).bind fun _ areFound =>
        .pure (areFound.map fun _ => passes_onReceiver isReceiver)
  unfold declared
  split
  · exact ofMembers
  · exact ofMembers
  · exact ofMembers
  · refine .reading ?_
    rw [inPackage?_eq]
    exact .pure (passes_inPackage? _ name).toList
  · exact .pure passes_nil

theorem dispatched_confined
    (isOwner : realm.Passes owner) (isReceiver : realm.Passes receiver) (name : String) :
    realm.Confined standing asks (dispatched owner receiver name) := by
  refine (Lookup.members_confined raised isOwner _ .all).bind fun declarations areDeclared => ?_
  split
  · exact .pure passes_nil
  · have isName : realm.Passes [Argument.value (.string name)] :=
      passes_cons.mpr ⟨passes_argumentValue.mpr (passes_of_parts_eq_nil rfl), passes_nil⟩
    refine (Query.symbolsOf_confined raised areDeclared).bind fun overloads areOverloads => ?_
    refine (instantiate_confined raised areOverloads isName true).bind fun found areFound => ?_
    refine .pure (areFound.map fun symbol isSymbol => ?_)
    have isForwarded : realm.Passes (symbol.withTag (.dispatched name)) := isSymbol.withTag trivial
    exact isForwarded.withTag isReceiver

theorem asMember_confined
    {declaration : Declaration} (isReceiver : realm.Passes receiver) (isType : realm.Passes type)
    (isDeclaration : realm.Passes declaration) :
    realm.Confined standing asks (asMember receiver type declaration) := by
  obtain ⟨isNode, isVia⟩ := passes_declaration.mp isDeclaration
  refine .node_bind isNode fun method _ _ => ?_
  refine (firstParameterAccepts_confined raised isNode isType).bind fun accepts _ => ?_
  split
  · exact .pure passes_nil
  · refine (Realm.Relates.symbolThrough raised isNode isVia).bind fun symbol isSymbol => ?_
    split
    · exact .pure passes_nil
    next symbol =>
      have isFree : realm.Passes (symbol.withTag .ufcs) := (passes_some.mp isSymbol).withTag trivial
      have isTagged : realm.Passes [(symbol.withTag .ufcs).withTag (.receiver receiver)] :=
        passes_cons.mpr ⟨isFree.withTag isReceiver, passes_nil⟩
      refine Realm.Relates.options.bind fun options _ => ?_
      split
      · exact .pure isTagged
      · exact selectForCall_confined raised isTagged passes_nil passes_nil

theorem freeFunctions_confined
    (isReceiver : realm.Passes receiver) (isType : realm.Passes type) (name : String) :
    realm.Confined standing asks (freeFunctions receiver type name) :=
  (Lookup.visible_confined raised name .onlyMethods).bind fun _ areMethods =>
    .bind (.listed (.mapM fun _ isMethod =>
      asMember_confined raised isReceiver isType (areMethods.mem isMethod)))
      fun _ areFound => .pure areFound.flatten

theorem candidatesOn_confined (isReceiver : realm.Passes receiver) (name : String) (ufcs : Bool) :
    realm.Confined standing asks (candidatesOn name ufcs receiver) := by
  have isStripped := isReceiver.strip
  unfold candidatesOn
  split
  next => exact .pure passes_nil
  next type isType =>
    rw [isType, passes_some] at isStripped
    refine (declared_confined raised isStripped.pointee isReceiver name).bind fun found areFound => ?_
    split
    · exact .pure areFound
    · refine (member?_confined raised isStripped name).bind fun property isProperty => ?_
      have continued :
          ∀ forwarded : List Symbol, realm.Passes forwarded →
            realm.Confined standing asks
              (if (forwarded.isEmpty && ufcs && takesFreeFunctions type.pointee) = true then
                freeFunctions receiver type name
              else pure forwarded) := by
        intro forwarded areForwarded
        split
        · exact freeFunctions_confined raised isReceiver isStripped name
        · exact .pure areForwarded
      split
      · exact .pure (passes_cons.mpr ⟨passes_some.mp isProperty, passes_nil⟩)
      · split
        · exact (dispatched_confined raised isStripped.pointee isReceiver name).bind continued
        · exact .bind (.pure passes_nil) continued

theorem candidates_confined (isOwner : realm.Passes owner) (name : String) (ufcs : Bool) :
    realm.Confined standing asks (candidates owner name ufcs) :=
  .collect fun _ isCandidate =>
    candidatesOn_confined raised (isOwner.candidates.mem isCandidate) name ufcs

theorem symbols_confined
    {arguments : Option (List WrittenArgument)} (isPlain : standing ≠ .overridden)
    (parts :
      ∀ written, arguments = some written →
        ∀ question : Question,
          question.weight ≤ 2 * WrittenArgument.weights written → asks question)
    (isOwner : realm.Passes owner) (name : String) (ufcs : Bool) :
    realm.Confined standing asks (symbols owner name arguments ufcs) := by
  refine (candidates_confined raised isOwner name ufcs).bind fun found areFound => ?_
  split
  · exact (resolveArguments_confined isPlain (parts _ rfl)).bind fun _ areGiven =>
      instantiate_confined raised areFound areGiven false
  · refine Realm.Relates.options.bind fun options _ => ?_
    split
    · exact .pure areFound
    · exact instantiate_confined raised areFound passes_nil false

end MemberAccess

end DScope