import DScope.Proofs.Calls
import DScope.Proofs.Deduction
import DScope.Proofs.Drafting
import DScope.Proofs.Slots

namespace DScope

/-!
# Capture of the remaining arguments

A function `f(T1, .., Tk, Ts...)(T1 x1, .., Tk xk, Ts rest)` binds its type parameters
to the types of the first arguments of a call, one after the other, and its tuple
parameter to the types of all others.
-/

open Bindings hiding none
open List Template
open Engine (Yields)

variable {bindings : Bindings}
open Query (Reads)

theorem Symbol.convert_open {source : Symbol} {parameter : NodeId}
    (isStripped : source.shape.isStripped = true) (isOpen : bindings.get? parameter = none) :
    source.convert (.parameter (.unbound parameter)) bindings =
      (true, bindings.set (.ofType parameter source)) := by
  apply (convertBelow_of_isStripped isStripped).mpr
  exact .inl ⟨parameter, rfl, bindParameter_iff.mpr (.inr ⟨isOpen, rfl⟩)⟩

/-- A module that holds a variadic function and nothing else. -/
structure VariadicFunction (program : Program) where
  moduleId : NodeId
  id : NodeId
  module : Node
  entry : Node
  /-- The type parameters, each with the function parameter that is of its type. -/
  typed : List (NodeId × NodeId)
  tuple : NodeId
  capture : NodeId
  result : BasicType
  body : Option StatementId
  isModuleEntry : program.tree.node? moduleId = some module
  isModule : module.kind = .module
  isRoot : module.parent = none
  isNoTemplate : module.templateParameters = []
  holdsFunction : module.children = [id]
  isEntry : program.tree.node? id = some entry
  isMethod :
    entry.kind = .method (some (.basic result)) (typed.map Prod.snd ++ [capture]) body
  isInside : entry.parent = some moduleId
  isFree : entry.constraint = none
  isLeaf : entry.children = []
  takesParameters : entry.templateParameters = typed.map Prod.fst ++ [tuple]
  arePlain : ∀ pair ∈ typed, Template.IsPlainParameter program pair.1
  isTuple : program.tree.parameterKind? tuple = some .tuple
  areTyped :
    ∀ pair ∈ typed,
      ∃ node,
        program.tree.node? pair.2 = some node ∧
          node.declaredType? = some (.named (program.tree.nameOf pair.1))
  isCapture :
    ∃ node,
      program.tree.node? capture = some node ∧
        node.declaredType? = some (.named (program.tree.nameOf tuple))
  haveDistinctNames : (entry.templateParameters.map program.tree.nameOf).Nodup
  areOther :
    ∀ parameter ∈ entry.parameters,
      program.tree.nameOf parameter ∉ entry.templateParameters.map program.tree.nameOf

namespace VariadicFunction

variable {program : Program} {evaluator : Evaluator} (function : VariadicFunction program)
  {pair : NodeId × NodeId} {pairs : List (NodeId × NodeId)} {arguments types : List Symbol}
  {argument type : Symbol}

def start : State :=
  .start function.moduleId none

theorem isPositive_start : function.start.guard.IsPositive :=
  fun _ isEntered => nomatch isEntered

theorem parameters_eq :
    function.entry.parameters = function.typed.map Prod.snd ++ [function.capture] := by
  rw [Node.parameters, function.isMethod]

theorem templateParameters_nodup : (function.typed.map Prod.fst ++ [function.tuple]).Nodup := by
  rw [← function.takesParameters]
  exact Nodup.of_map _ function.haveDistinctNames

section

variable (isPair : pair ∈ function.typed)
include isPair

theorem mem_templateParameters : pair.1 ∈ function.entry.templateParameters := by
  rw [function.takesParameters]
  exact mem_append_left _ (mem_map_of_mem isPair)

/-! ## Names in the signature -/

theorem signature_eq :
    Scan.signature program.tree function.id (function.typed.map Prod.snd ++ [function.capture])
        function.entry.templateParameters (program.tree.nameOf pair.1) =
      { name := some (program.tree.nameOf pair.1), filter := .all,
        home := program.tree.rootOf function.id, found := [⟨pair.1, none⟩] } := by
  obtain ⟨node, isNode, isKind, -⟩ := function.arePlain pair isPair
  have isMember := function.mem_templateParameters isPair
  let start : Scan :=
    { name := some (program.tree.nameOf pair.1), filter := .all,
      home := program.tree.rootOf function.id }
  have passes :
      (function.typed.map Prod.snd ++ [function.capture]).foldl
        (Scan.consider program.tree none) start = start := by
    refine foldl_eq_self fun parameter isParameter => Scan.consider_of_ne rfl fun isSame => ?_
    rw [← function.parameters_eq] at isParameter
    exact function.areOther parameter isParameter (isSame ▸ mem_map_of_mem isMember)
  have isWanted : start.wants node = true := by
    simp [start, Scan.wants, Tree.nameOf, isNode, Filter.accepts, isKind, Filter.all]
  unfold Scan.signature
  dsimp only
  rw [passes]
  exact Scan.foldl_consider isMember function.haveDistinctNames isNode rfl isWanted rfl

theorem encloses_eq_false : program.tree.encloses pair.1 function.id = false := by
  obtain ⟨node, isNode, isKind, -⟩ := function.arePlain pair isPair
  exact Tree.encloses_eq_false isNode (by simp [Node.isBlock, isKind]) function.isEntry
    function.isInside (by simp [Node.isBlock, function.isMethod]) function.isModuleEntry
    function.isModule function.isRoot

/-- Inside the function, a type parameter that is open stands for itself. -/
theorem yields_typeParameter (isOpen : bindings.IsOpen pair.1) :
    Yields program evaluator function.start
      (Query.withFrame (frameOf function.id bindings)
        (Query.resolve (.named (program.tree.nameOf pair.1))))
      (some [.parameter (.unbound pair.1)]) := by
  obtain ⟨node, isNode, isKind, isPlain⟩ := function.arePlain pair isPair
  let state := function.start.push (frameOf function.id bindings)
  have isQuiet : state.memoKey? (program.tree.nameOf pair.1) = none := by
    simp [state, State.memoKey?, State.push, Stack.push, Stack.hasBindings, Stack.frames,
      frameOf, isOpen.isEmpty_eq_false]
  have isUnbound : state.stack.binding? pair.1 = none := by
    simp only [state, Stack.binding?, State.push, Stack.push, Stack.frames, frameOf,
      findSome?_cons, isOpen.isUnbound]
    rfl
  have isVisible :
      Reads program state (Lookup.visible (program.tree.nameOf pair.1) .all) [⟨pair.1, none⟩] := by
    have isScan := function.signature_eq isPair
    have reads :=
      @Lookup.reads_visible_in_function program state function.entry
        (program.tree.nameOf pair.1) _ _ _ rfl rfl function.isEntry function.isMethod function.isLeaf
        (by change (Scan.signature _ function.id _ _ _).isDone = true; rw [isScan]; rfl)
    change Reads program state _ (Scan.signature _ function.id _ _ _).found at reads
    rw [isScan] at reads
    exact reads
  have stands :
      Yields program evaluator state (Query.symbolOf pair.1 .none)
        (some (.parameter (.unbound pair.1))) := by
    have yields :=
      @DeclaredSymbol.yields_templateParameter program state node pair.1 evaluator _ rfl
        function.isPositive_start isNode isKind isPlain.1 (function.encloses_eq_false isPair)
    rw [isUnbound] at yields
    exact yields
  have isInert : (Symbol.parameter (.unbound pair.1)).IsInert program :=
    Symbol.isInert_of_definition? isNode isPlain rfl rfl (by rintro _ ⟨⟩)
  apply Yields.withFrame rfl
  apply Yields.ask
  apply Resolution.yields_ofName rfl isQuiet (cons_ne_nil _ _)
  exact Resolution.yields_searchName_of_visible rfl (.ofReads isVisible) isInert stands

/-! ## Matching a call -/

theorem yields_matchType (isOpen : bindings.IsOpen pair.1) (isType : argument.strip = some type) :
    Yields program evaluator function.start
      (matchType function.id (.named (program.tree.nameOf pair.1)) argument bindings)
      (some (bindings.set (.ofType pair.1 type))) := by
  simp only [matchType, isType]
  apply Yields.bind (function.yields_typeParameter isPair isOpen)
  simp only [Option.bind_some, head?_cons,
    Symbol.convert_open (Symbol.isStripped_of_strip isType) isOpen.isUnbound]
  exact .pure _

theorem tupleParameter?_typed :
    tupleParameter? program.tree function.entry (.named (program.tree.nameOf pair.1)) = none := by
  refine find?_eq_none.mpr fun parameter isParameter => ?_
  rw [function.takesParameters, mem_append, mem_map, mem_singleton] at isParameter
  rcases isParameter with ⟨other, isOther, rfl⟩ | rfl
  · simp [(function.arePlain other isOther).isKind, ParameterKind.isTuple]
  · have areDistinct := function.haveDistinctNames
    rw [function.takesParameters, map_append, nodup_append] at areDistinct
    have isOther := areDistinct.2.2 _ (mem_map_of_mem (mem_map_of_mem isPair)) _
      (mem_map_of_mem (mem_singleton.mpr rfl))
    simp [Ne.symm isOther]

end

theorem tupleParameter?_capture :
    tupleParameter? program.tree function.entry
      (.named (program.tree.nameOf function.tuple)) = some function.tuple := by
  change function.entry.templateParameters.find? _ = _
  rw [function.takesParameters, find?_append, find?_eq_none.mpr]
  · simp [function.isTuple, ParameterKind.isTuple]
  · intro parameter isParameter
    obtain ⟨pair, isPair, rfl⟩ := mem_map.mp isParameter
    simp [(function.arePlain pair isPair).isKind, ParameterKind.isTuple]

theorem yields_matchCall_capture (arguments : List (Option Symbol)) (bindings : Bindings) :
    Yields program evaluator function.start
      (matchCall function.id [function.capture] arguments bindings)
      (some (bindings.set (.ofType function.tuple (.tuple (arguments.map tupleItem))))) := by
  obtain ⟨node, isNode, isTyped⟩ := function.isCapture
  apply Yields.bind (.ofReads (.node isNode))
  rw [isTyped]
  apply Yields.bind (.ofReads .tree)
  apply Yields.bind (.ofReads (.node function.isEntry))
  rw [function.tupleParameter?_capture]
  exact .pure _

theorem yields_matchCall_typed
    {rest : List NodeId} {others : List (Option Symbol)} {outcome : Option Bindings}
    (isPair : pair ∈ function.typed) (isOpen : bindings.IsOpen pair.1)
    (isType : argument.strip = some type)
    (goes :
      Yields program evaluator function.start
        (matchCall function.id rest others (bindings.set (.ofType pair.1 type)))
        outcome) :
    Yields program evaluator function.start
      (matchCall function.id (pair.2 :: rest) (some argument :: others) bindings)
      outcome := by
  obtain ⟨node, isNode, isTyped⟩ := function.areTyped pair isPair
  apply yields_matchCall_cons function.isEntry isNode isTyped
    (function.tupleParameter?_typed isPair) (function.yields_matchType isPair isOpen isType)
  · rintro later ⟨⟩
    exact goes
  · nofun

theorem exists_matchCall_nil
    (arePairs : ∀ pair ∈ pairs, pair ∈ function.typed) (evaluator : Evaluator)
    (bindings : Bindings) :
    ∃ outcome,
      Yields program evaluator function.start
          (matchCall function.id (pairs.map Prod.snd ++ [function.capture]) [] bindings)
          outcome ∧
        ∀ later, outcome = some later →
          later = bindings.set (.ofType function.tuple (.tuple [])) := by
  induction pairs with
  | nil =>
    refine ⟨_, function.yields_matchCall_capture [] bindings, ?_⟩
    rintro later ⟨⟩
    rfl
  | cons pair rest ih =>
    have isPair := arePairs pair mem_cons_self
    obtain ⟨node, isNode, isTyped⟩ := function.areTyped pair isPair
    obtain ⟨outcome, yields, isResult⟩ := ih (forall_mem_cons.mp arePairs).2
    have isNoTuple := function.tupleParameter?_typed isPair
    cases isOptional : node.initializer?.isSome with
    | false =>
      refine ⟨none, yields_matchCall_nil function.isEntry isNode isTyped isNoTuple ?_, nofun⟩
      rw [isOptional]
      exact .pure none
    | true =>
      refine ⟨outcome, yields_matchCall_nil function.isEntry isNode isTyped isNoTuple ?_, isResult⟩
      rw [isOptional]
      exact yields

/-- With fewer arguments than typed parameters, a type parameter stays open. -/
theorem exists_matchCall_of_lt
    (evaluator : Evaluator) (arePairs : ∀ pair ∈ pairs, pair ∈ function.typed)
    (areDistinct : (pairs.map Prod.fst ++ [function.tuple]).Nodup)
    (areOpen : ∀ pair ∈ pairs, bindings.IsOpen pair.1)
    (areTypes : arguments.map Symbol.strip = types.map some)
    (areFew : arguments.length < pairs.length) :
    ∃ outcome,
      Yields program evaluator function.start
          (matchCall function.id (pairs.map Prod.snd ++ [function.capture])
            (arguments.map some) bindings)
          outcome ∧
        ∀ later, outcome = some later →
          later.isSatisfied function.tuple = true ∧ ∃ parameter, later.IsOpen parameter := by
  induction pairs generalizing arguments types bindings with
  | nil => cases areFew
  | cons pair rest ih =>
    have isPair := arePairs pair mem_cons_self
    have isOpen := areOpen pair mem_cons_self
    obtain ⟨isNew, areDistinct⟩ := nodup_cons.mp areDistinct
    cases arguments with
    | nil =>
      have isOther : function.tuple ≠ pair.1 := fun isSame =>
        isNew (isSame ▸ mem_append_right _ (mem_singleton.mpr rfl))
      obtain ⟨outcome, yields, isResult⟩ :=
        function.exists_matchCall_nil arePairs evaluator bindings
      refine ⟨outcome, yields, fun later isLater => ?_⟩
      rw [isResult later isLater]
      exact ⟨bindings.isSatisfied_set _, pair.1, isOpen.set_of_ne isOther⟩
    | cons argument others =>
      cases types with
      | nil => cases areTypes
      | cons type otherTypes =>
        obtain ⟨isType, areTypes⟩ := cons.inj areTypes
        have areOpenLater :
            ∀ later ∈ rest, (bindings.set (.ofType pair.1 type)).IsOpen later.1 := by
          intro later isLater
          apply (areOpen later (mem_cons_of_mem pair isLater)).set_of_ne
          intro isSame
          apply isNew
          rw [show pair.1 = later.1 from isSame]
          exact mem_append_left _ (mem_map_of_mem isLater)
        obtain ⟨outcome, yields, isResult⟩ :=
          ih
            (forall_mem_cons.mp arePairs).2
            areDistinct areOpenLater areTypes (Nat.lt_of_succ_lt_succ areFew)
        exact ⟨outcome, function.yields_matchCall_typed isPair isOpen isType yields, isResult⟩

theorem map_tupleItem (areTypes : arguments.map Symbol.strip = types.map some) :
    (arguments.map some).map tupleItem = types.map .type := by
  induction arguments generalizing types with
  | nil =>
    cases types with
    | nil => rfl
    | cons type others => cases areTypes
  | cons argument rest ih =>
    cases types with
    | nil => cases areTypes
    | cons type others =>
      obtain ⟨isType, areTypes⟩ := cons.inj areTypes
      rw [map_cons, map_cons, map_cons, ih areTypes,
        tupleItem, Symbol.stripped, isType, Option.getD_some]

/-- The template parameters bound for arguments of the given types. -/
def captured (pairs : List (NodeId × NodeId)) (types : List Symbol) : Bindings :=
  .ofTypes (pairs.map Prod.fst ++ [function.tuple])
    (types.take pairs.length ++ [.tuple ((types.drop pairs.length).map .type)])

/-- With enough arguments, the parameters that are still open are bound in order. -/
theorem yields_matchCall
    {bound : List Slot} {items : List Argument} (arePairs : ∀ pair ∈ pairs, pair ∈ function.typed)
    (areDistinct : (pairs.map Prod.fst ++ [function.tuple]).Nodup)
    (areNew :
      ∀ parameter ∈ pairs.map Prod.fst ++ [function.tuple], parameter ∉ bound.map Slot.parameter)
    (areTypes : arguments.map Symbol.strip = types.map some)
    (areEnough : pairs.length ≤ arguments.length) :
    Yields program evaluator function.start
      (matchCall function.id (pairs.map Prod.snd ++ [function.capture])
        (arguments.map some)
        ⟨bound ++ ((pairs.map Prod.fst).map .empty ++
          [.filled (.ofType function.tuple (.tuple items))])⟩)
      (some ⟨bound ++ (function.captured pairs types).slots⟩) := by
  induction pairs generalizing bound arguments types with
  | nil =>
    have isSet :
        Bindings.set ⟨bound ++ [.filled (.ofType function.tuple (.tuple items))]⟩
            (.ofType function.tuple (.tuple (types.map .type))) =
          ⟨bound ++ (function.captured [] types).slots⟩ :=
      congrArg Bindings.mk
        (Bindings.putSlot_append rfl (areNew function.tuple (mem_singleton.mpr rfl)))
    have yields :=
      @yields_matchCall_capture program evaluator function (arguments.map some)
        ⟨bound ++ [.filled (.ofType function.tuple (.tuple items))]⟩
    rw [map_tupleItem areTypes, isSet] at yields
    exact yields
  | cons pair rest ih =>
    obtain ⟨argument, others, rfl⟩ :=
      exists_cons_of_length_pos (Nat.lt_of_lt_of_le (Nat.succ_pos _) areEnough)
    obtain ⟨type, otherTypes, rfl⟩ : ∃ type otherTypes, types = type :: otherTypes := by
      cases types with
      | nil => cases areTypes
      | cons type otherTypes => exact ⟨type, otherTypes, rfl⟩
    obtain ⟨isType, areTypes⟩ := cons.inj areTypes
    obtain ⟨isOther, areDistinct⟩ := nodup_cons.mp areDistinct
    have isNew := areNew pair.1 mem_cons_self
    have yields :=
      ih
        (forall_mem_cons.mp arePairs).2 areDistinct
        (Bindings.areNew_next (.filled (.ofType pair.1 type)) isOther areNew) areTypes
        (Nat.le_of_succ_le_succ areEnough)
    have isSet :
        Bindings.set
            ⟨bound ++ .empty pair.1 :: ((rest.map Prod.fst).map .empty ++
              [.filled (.ofType function.tuple (.tuple items))])⟩
            (.ofType pair.1 type) =
          ⟨(bound ++ [.filled (.ofType pair.1 type)]) ++ ((rest.map Prod.fst).map .empty ++
            [.filled (.ofType function.tuple (.tuple items))])⟩ := by
      rw [append_assoc]
      exact congrArg Bindings.mk (Bindings.putSlot_append rfl isNew)
    rw [← isSet, append_assoc] at yields
    exact function.yields_matchCall_typed (arePairs pair mem_cons_self)
      (Bindings.isOpen_append isNew) isType yields

/-! ## The function and its instances -/

/-- The function under bindings, with its return type. -/
def instanceWith (bindings : Bindings) : Symbol :=
  .member function.id (some (.primitive function.result)) bindings

/-- The function with its template parameters open. -/
def overload : Symbol :=
  function.instanceWith (.ofOpen function.entry.templateParameters)

theorem yields_symbolOf (given : Bindings) :
    Yields program evaluator function.start (Query.symbolOf function.id given)
      (some (function.instanceWith
        ((ofOpen function.entry.templateParameters).mergeMissing given))) := by
  have isOther : function.entry.kind ≠ function.module.kind := by
    rw [function.isMethod, function.isModule]
    exact nofun
  have isAttached :
      DeclaredSymbol.attached program.tree function.start.stack function.id function.entry given =
        (ofOpen function.entry.templateParameters).mergeMissing given := by
    have areDistinct : function.entry.templateParameters.Nodup :=
      function.takesParameters ▸ function.templateParameters_nodup
    rw [← forParameters_eq areDistinct]
    exact DeclaredSymbol.attached_outside function.isEntry function.isModuleEntry function.isRoot
      isOther given
  apply DeclaredSymbol.yields_symbolOf rfl function.isPositive_start function.isEntry
  rw [isAttached]
  apply DeclaredSymbol.yields_visit_method function.isMethod
  · intro _
    apply Yields.bind (.ofReads (.node function.isEntry))
    rw [function.isMethod]
    exact .bind (.ask (.bind (.ofReads .isCancelled) (.pure _))) (.pure _)
  · rw [Guard.depth_enter_self]
    rintro ⟨⟩

theorem yields_candidates :
    Yields program evaluator function.start (Lookup.candidates function.entry.name)
      [function.overload] := by
  have isVisible :
      Yields program evaluator function.start
        (Lookup.visible function.entry.name .all) [⟨function.id, none⟩] :=
    .ofReads (Lookup.reads_visible_only rfl function.isModuleEntry function.isModule
      function.isNoTemplate function.holdsFunction function.isEntry
      (by rw [Node.isOrdinary, function.isMethod]))
  apply Lookup.settles_candidates isVisible (cons_ne_nil _ _)
  exact Query.settles_symbolsOf_singleton rfl rfl (function.yields_symbolOf .none)

theorem areUnrestricted :
    ∀ parameter ∈ function.entry.templateParameters, IsUnrestricted program.tree parameter := by
  intro parameter isParameter
  rw [function.takesParameters, mem_append, mem_map, mem_singleton] at isParameter
  rcases isParameter with ⟨pair, isPair, rfl⟩ | rfl
  · exact (function.arePlain pair isPair).isUnrestricted
  · exact ⟨.tuple, function.isTuple, rfl⟩

/-- The bindings before a call is matched: the tuple is empty, the type parameters are open. -/
def initial : Bindings :=
  ⟨(function.typed.map Prod.fst).map .empty ++ [.filled (.ofType function.tuple (.tuple []))]⟩

theorem isOpen_initial (isPair : pair ∈ function.typed) : function.initial.IsOpen pair.1 := by
  obtain ⟨before, after, isSplit⟩ := append_of_mem isPair
  have areDistinct := function.templateParameters_nodup
  rw [isSplit, map_append, append_assoc, nodup_append] at areDistinct
  have isNew : pair.1 ∉ ((before.map Prod.fst).map Slot.empty).map Slot.parameter := by
    rw [map_map]
    intro isMember
    obtain ⟨parameter, isParameter, isSame⟩ := mem_map.mp isMember
    exact areDistinct.2.2 parameter isParameter pair.1 mem_cons_self isSame
  rw [initial, isSplit, map_append, map_append, append_assoc]
  exact isOpen_append isNew

theorem reads_bindParameters (state : State) :
    Reads program state
      (bindParameters function.id function.overload [] false false
        (.ofOpen function.entry.templateParameters))
      (some function.initial) := by
  have isDistributed :
      distributed? program.tree function.entry.templateParameters []
          (.ofOpen function.entry.templateParameters) =
        some (function.initial, []) := by
    have areNoTuples :
        ∀ parameter ∈ function.typed.map Prod.fst,
          ∃ kind, program.tree.parameterKind? parameter = some kind ∧ kind.isTuple = false := by
      intro parameter isParameter
      obtain ⟨pair, isPair, rfl⟩ := mem_map.mp isParameter
      exact ⟨_, (function.arePlain pair isPair).isKind, rfl⟩
    have isNew :
        function.tuple ∉ ((function.typed.map Prod.fst).map Slot.empty).map Slot.parameter := by
      have areDistinct := nodup_append.mp function.templateParameters_nodup
      rw [map_map]
      intro isMember
      obtain ⟨parameter, isParameter, isSame⟩ := mem_map.mp isMember
      exact areDistinct.2.2 parameter isParameter _ (mem_singleton.mpr rfl) isSame
    have isSet := @set_next function.tuple _ [] (.tuple []) isNew
    rw [map_nil, append_nil] at isSet
    rw [function.takesParameters, distributed?_append areNoTuples,
      distributed?_tuple function.isTuple, ofOpen, map_append, isSet]
    rfl
  apply Reads.bind (.node function.isEntry)
  apply Reads.bind (reads_bindInOrder_distributed function.areUnrestricted _ _ _ _)
  rw [isDistributed]
  exact .pure _

/-- A call goes through if the arguments match and leave no template parameter open. -/
theorem yields_instantiateForCall {arguments : List (Option Symbol)} {matched : Option Bindings}
    (isMatched :
      Yields program evaluator function.start
        (Template.matchCall function.id (function.typed.map Prod.snd ++ [function.capture])
          arguments function.initial)
        matched)
    (isBound : ∀ later, matched = some later → later.isSatisfied function.tuple = true) :
    Yields program evaluator function.start
      (Template.instantiateForCall [] arguments function.overload)
      ((matched.filter (·.allSatisfied)).map fun later => function.instanceWith
        ((ofOpen function.entry.templateParameters).mergeMissing later)) := by
  have areDistinct : function.entry.templateParameters.Nodup :=
    function.takesParameters ▸ function.templateParameters_nodup
  have isStart :
      (forParameters function.entry.templateParameters).mergeMissing function.overload.bindings =
        .ofOpen function.entry.templateParameters := by
    have areEmpty := filled_forParameters function.entry.templateParameters
    rw [forParameters_eq areDistinct] at areEmpty ⊢
    change foldl _ _ (filled (.ofOpen function.entry.templateParameters)) = _
    rw [areEmpty]
    rfl
  have isMethod : function.entry.isMethod = true := by rw [Node.isMethod, function.isMethod]
  have binds := function.reads_bindParameters function.start
  rw [← isStart] at binds
  rw [← function.parameters_eq] at isMatched
  refine Template.yields_instantiateForCall rfl function.isEntry isMethod function.areUnrestricted
    binds isMatched ?_ ?_
  · intro later isLater parameter isParameter isTuple
    rw [function.takesParameters, mem_append, mem_map, mem_singleton] at isParameter
    rcases isParameter with ⟨pair, isPair, rfl⟩ | rfl
    · rw [Template.isTuple_eq (function.arePlain pair isPair).isKind] at isTuple
      cases isTuple
    · exact isBound later isLater
  · intro later _
    exact .bind (function.yields_symbolOf later) (.pure _)

section Answer

variable (areTypes : arguments.map Symbol.strip = types.map some)

include areTypes

/-- With an argument for each type parameter, the function takes the call. -/
theorem yields_instantiateForCall_of_le (areEnough : function.typed.length ≤ arguments.length) :
    Yields program evaluator function.start
      (instantiateForCall [] (arguments.map some) function.overload)
      (some (function.instanceWith (function.captured function.typed types))) := by
  have isMatched :
      Yields program evaluator function.start
        (matchCall function.id (function.typed.map Prod.snd ++ [function.capture])
          (arguments.map some) function.initial)
        (some (function.captured function.typed types)) :=
    @yields_matchCall program evaluator function function.typed arguments types [] []
      (fun _ isPair => isPair) function.templateParameters_nodup (fun _ _ => not_mem_nil)
      areTypes areEnough
  have areSatisfied : (function.captured function.typed types).allSatisfied = true :=
    allSatisfied_ofTypes _ _
  have sameLength : (function.typed.map Prod.fst).length =
      (types.take function.typed.length).length := by
    have haveTypes : arguments.length = types.length := by
      simpa using congrArg length areTypes
    rw [length_map, length_take]
    omega
  have isTupleBound :
      (function.captured function.typed types).isSatisfied function.tuple = true := by
    have isPair :
        (function.tuple, Symbol.tuple ((types.drop function.typed.length).map .type)) ∈
          (function.typed.map Prod.fst ++ [function.tuple]).zip
            (types.take function.typed.length ++
              [Symbol.tuple ((types.drop function.typed.length).map .type)]) := by
      rw [zip_append sameLength]
      exact mem_append_right _ (mem_singleton.mpr rfl)
    rw [isSatisfied, captured, get?_ofTypes function.templateParameters_nodup isPair]
    rfl
  have isMerged :
      (ofOpen function.entry.templateParameters).mergeMissing
          (function.captured function.typed types) =
        function.captured function.typed types := by
    rw [function.takesParameters]
    apply mergeMissing_ofTypes function.templateParameters_nodup
    rw [length_append, length_append, sameLength]
    rfl
  have yields := function.yields_instantiateForCall isMatched fun later isLater => by
    cases isLater
    exact isTupleBound
  rw [Option.filter_some, if_pos areSatisfied, Option.map_some, isMerged] at yields
  exact yields

theorem yields_instantiateForCall_of_lt (areFew : arguments.length < function.typed.length) :
    Yields program evaluator function.start
      (instantiateForCall [] (arguments.map some) function.overload) none := by
  obtain ⟨matched, isMatched, isOpen⟩ :=
    function.exists_matchCall_of_lt evaluator (fun _ isPair => isPair)
      function.templateParameters_nodup (fun _ isPair => function.isOpen_initial isPair) areTypes
      areFew
  have isIncomplete : matched.filter (·.allSatisfied) = none := by
    refine Option.filter_eq_none_iff.mpr fun later isLater => ?_
    obtain ⟨-, parameter, isOpen⟩ := isOpen later isLater
    simp [isOpen.allSatisfied_eq_false]
  have yields := function.yields_instantiateForCall isMatched fun later isLater =>
    (isOpen later isLater).1
  rw [isIncomplete] at yields
  exact yields

end Answer

theorem yields_selectForCall {arguments : List (Option Symbol)} (outcome : Option Bindings)
    (instantiates :
      Yields program evaluator function.start
        (instantiateForCall [] arguments function.overload)
        (outcome.map function.instanceWith)) :
    Yields program evaluator function.start
      (selectForCall [function.overload] [] arguments)
      (outcome.map function.instanceWith).toList := by
  have meets :
      ∀ result ∈ outcome.map function.instanceWith,
        Yields program evaluator function.start (meetsConstraint result) true := by
    intro result isResult
    obtain ⟨bindings, -, rfl⟩ := Option.map_eq_some_iff.mp isResult
    apply Yields.bind (.ofReads (.node function.isEntry))
    rw [function.isFree]
    exact .pure true
  exact .bind (.collect_singleton rfl (.bind instantiates (.pure _))) (yields_narrow meets)

end VariadicFunction

/--
Variadic capture: called without explicit arguments, a function with type parameters
and a tuple parameter after them takes a call if there is an argument for each type
parameter. Each of these is bound to the type of its argument, and the tuple parameter
to the types of the other arguments in order.
-/
theorem variadic_functions_capture_the_remaining_arguments
    {program : Program}
    (evaluator : Evaluator)
    (function : VariadicFunction program)
    (arguments types : List Symbol)
    (areTypes : arguments.map Symbol.strip = types.map some) :
    Engine.Settles program evaluator (Operation.resolveOverloads function.entry.name).query
        (.start function.moduleId none) [function.overload] (.start function.moduleId none) ∧
      Engine.Settles program evaluator
        (Operation.deduceCall [function.overload] [] (arguments.map some)).query
        (.start function.moduleId none)
        (if arguments.length < function.typed.length then []
          else [function.instanceWith (function.captured function.typed types)])
        (.start function.moduleId none) := by
  refine ⟨function.yields_candidates, ?_⟩
  split
  next areFew =>
    exact function.yields_selectForCall none
      (function.yields_instantiateForCall_of_lt areTypes areFew)
  next areEnough =>
    exact function.yields_selectForCall (some (function.captured function.typed types))
      (function.yields_instantiateForCall_of_le areTypes (Nat.le_of_not_lt areEnough))

/-- A function `void log(T, U, V...)(T first, U second, V others)`. -/
def Program.logging : Program :=
  .ofTree (.ofSteps
    [ .module "m",
      .member ⟨0⟩ "log" (.method (some (.basic .void)) [] none),
      .templateParameter ⟨1⟩ "T" (.type none none),
      .templateParameter ⟨1⟩ "U" (.type none none),
      .templateParameter ⟨1⟩ "V" .tuple,
      .parameter ⟨1⟩ "first" (.named "T"),
      .parameter ⟨1⟩ "second" (.named "U"),
      .parameter ⟨1⟩ "others" (.named "V") ])

theorem Program.logging_arePlain :
    ∀ pair ∈ [((⟨2⟩, ⟨5⟩) : NodeId × NodeId), (⟨3⟩, ⟨6⟩)], IsPlainParameter .logging pair.1 := by
  rw [forall_mem_cons, forall_mem_singleton]
  exact ⟨⟨_, rfl, rfl, rfl, rfl⟩, ⟨_, rfl, rfl, rfl, rfl⟩⟩

theorem Program.logging_areTyped :
    ∀ pair ∈ [((⟨2⟩, ⟨5⟩) : NodeId × NodeId), (⟨3⟩, ⟨6⟩)],
      ∃ node,
        Program.logging.tree.node? pair.2 = some node ∧
          node.declaredType? = some (.named (Program.logging.tree.nameOf pair.1)) := by
  rw [forall_mem_cons, forall_mem_singleton]
  exact ⟨⟨_, rfl, rfl⟩, ⟨_, rfl, rfl⟩⟩

def VariadicFunction.logging : VariadicFunction .logging where
  moduleId := ⟨0⟩
  id := ⟨1⟩
  module := (Program.logging.tree.node? ⟨0⟩).get (by decide +kernel)
  entry := (Program.logging.tree.node? ⟨1⟩).get (by decide +kernel)
  typed := [(⟨2⟩, ⟨5⟩), (⟨3⟩, ⟨6⟩)]
  tuple := ⟨4⟩
  capture := ⟨7⟩
  result := .void
  body := none
  isModuleEntry := (Option.some_get _).symm
  isModule := rfl
  isRoot := rfl
  isNoTemplate := rfl
  holdsFunction := rfl
  isEntry := (Option.some_get _).symm
  isMethod := rfl
  isInside := rfl
  isFree := rfl
  isLeaf := rfl
  takesParameters := rfl
  arePlain := Program.logging_arePlain
  isTuple := rfl
  areTyped := Program.logging_areTyped
  isCapture := ⟨_, rfl, rfl⟩
  haveDistinctNames := by decide +kernel
  areOther := by decide +kernel

/-- `log(number, 'c', true, 1L)` with a number of type `int`, and `log(number)`. -/
theorem logging_captures_the_remaining_arguments :
    Engine.Settles .logging .standard
        (Operation.deduceCall [VariadicFunction.logging.overload] []
          [some (.member ⟨1⟩ (some (.primitive .int)) .none), some (.primitive .char),
            some (.primitive .bool), some (.primitive .long)]).query
        (.start ⟨0⟩ none)
        [.member ⟨1⟩ (some (.primitive .void))
          (.ofTypes [⟨2⟩, ⟨3⟩, ⟨4⟩]
            [.primitive .int, .primitive .char,
              .tuple [.type (.primitive .bool), .type (.primitive .long)]])]
        (.start ⟨0⟩ none) ∧
      Engine.Settles .logging .standard
        (Operation.deduceCall [VariadicFunction.logging.overload] []
          [some (.member ⟨1⟩ (some (.primitive .int)) .none)]).query
        (.start ⟨0⟩ none) [] (.start ⟨0⟩ none) :=
  ⟨(variadic_functions_capture_the_remaining_arguments .standard .logging
      [.member ⟨1⟩ (some (.primitive .int)) .none, .primitive .char, .primitive .bool,
        .primitive .long]
      [.primitive .int, .primitive .char, .primitive .bool, .primitive .long] rfl).2,
    (variadic_functions_capture_the_remaining_arguments .standard .logging
      [.member ⟨1⟩ (some (.primitive .int)) .none] [.primitive .int] rfl).2⟩

end DScope
