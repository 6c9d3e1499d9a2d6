import DScope.Proofs.Calls

namespace DScope

/-!
# Free functions called like members

A call `x.f(a)` of a free function means the call `f(x, a)`. Overloads whose first
parameter does not take the receiver are left out before the others are chosen
among, but these would not take the call anyway.
-/

open PlainFunction hiding isMethod
open List Symbol Query Template Typing
open Engine (Settles Yields)

variable {evaluator : Evaluator}

namespace Symbol

theorem flatMap_candidates
    {symbols : List Symbol} (areSingle : ∀ symbol ∈ symbols, symbol.candidates = [symbol]) :
    symbols.flatMap candidates = symbols := by
  induction symbols with
  | nil => rfl
  | cons symbol rest ih =>
    rw [flatMap_cons, areSingle symbol mem_cons_self, ih]
    · rfl
    · exact (forall_mem_cons.mp areSingle).2

theorem shape_withMissingTags (symbol : Symbol) (tags : List Tag) :
    (symbol.withMissingTags tags).shape = symbol.shape := by
  unfold withMissingTags
  induction tags generalizing symbol with
  | nil => rfl
  | cons tag rest ih =>
    rw [foldl_cons, ih]
    split <;> rfl

end Symbol

namespace Template

theorem mostSpecialized_map
    {mark : Symbol → Symbol} (sameShape : ∀ symbol, (mark symbol).shape = symbol.shape)
    (tree : Tree) (symbols : List Symbol) :
    mostSpecialized tree (symbols.map mark) = (mostSpecialized tree symbols).map mark := by
  have sameRanks (symbol : Symbol) : ranks tree (mark symbol) = ranks tree symbol := by
    simp only [ranks, definition?, sameShape]
  simp only [mostSpecialized, filter_map, Function.comp_def, any_map, sameRanks]

theorem settles_theOnly
    (program : Program) (evaluator : Evaluator) (state : State) (overloads : List Symbol)
    (subject : String) :
    ∃ final,
      Settles program evaluator (theOnly overloads subject) state
        (Resolution.lone? overloads) final := by
  unfold theOnly
  split
  · exact ⟨state, Yields.pure _⟩
  · exact ⟨_, 0, fun _ _ => rfl⟩
  next isNotSingle isNotEmpty =>
    have isNone : Resolution.lone? overloads = none := by
      unfold Resolution.lone?
      split
      · exact absurd rfl (isNotSingle _)
      · rfl
    rw [isNone]
    exact ⟨_, 0, fun _ _ => rfl⟩

end Template

namespace Query

variable {α β γ : Type}

theorem collect_map (give : α → Query (List β)) (make : γ → α) (items : List γ) :
    collect give (items.map make) = collect (fun item => give (make item)) items := by
  have extending (found : List β) :
      collectFrom give found (items.map make) =
        collectFrom (fun item => give (make item)) found items := by
    induction items generalizing found with
    | nil => rfl
    | cons item rest ih =>
      rw [map_cons, collectFrom, collectFrom]
      simp only [ih]
  exact extending []

theorem mapM_map (step : α → Query β) (make : γ → α) (items : List γ) :
    (items.map make).mapM step = items.mapM fun item => step (make item) := by
  induction items with
  | nil => rfl
  | cons item rest ih =>
    rw [map_cons, mapM_cons, mapM_cons, ih]

end Query

theorem PlainFunction.yields_argumentTypes {program : Program} {state : State}
    (isRunning : state.isCancelled = false) (literals : List Literal) :
    Yields program evaluator state ((literals.map Expr.literal).mapM typingOf)
      (argumentTypes literals) := by
  rw [mapM_map]
  exact .mapM fun literal _ => yields_literal isRunning literal

/-- A module of free functions that is the only one of the program. -/
structure FunctionModule (program : Program) extends LoneModule program where
  areMethods :
    ∀ id ∈ module.children, ∃ entry, program.tree.node? id = some entry ∧ entry.isMethod = true
  areDistinct : module.children.Nodup

namespace FunctionModule

variable {program : Program} (functions : FunctionModule program) {evaluator : Evaluator}
  {state : State} {arguments : List (Option Symbol)} {name : String}

def plain : PlainModule program where
  toLoneModule := functions.toLoneModule
  areOrdinary := by
    intro id isMember
    obtain ⟨entry, isEntry, isMethod⟩ := functions.areMethods id isMember
    refine ⟨entry, isEntry, ?_⟩
    unfold Node.isMethod at isMethod
    unfold Node.isOrdinary
    split at isMethod <;> simp_all
  areDistinct := functions.areDistinct

def named (name : String) : List NodeId :=
  functions.module.children.filter (program.tree.nameOf · == name)

theorem declared_eq {filter : Filter} (isForMethods : filter.methods = true) (name : String) :
    functions.plain.declared name filter = functions.named name := by
  apply filter_congr
  intro id isMember
  obtain ⟨entry, isEntry, isMethod⟩ := functions.areMethods id isMember
  have isAccepted : filter.accepts entry = true := by
    unfold Node.isMethod at isMethod
    unfold Filter.accepts
    split at isMethod <;> simp_all
  simp [isEntry, Tree.nameOf, isAccepted]

/-- A function, whether its first parameter takes the receiver of a call, and what it answers. -/
structure Offer (evaluator : Evaluator) (receiver : Literal) (others : List Literal) where
  function : PlainFunction functions.toLoneModule
  accepts : Bool
  outcome : Option Symbol
  isAccepted :
    ∀ state, functions.IsIdle state →
      Yields program evaluator state
        (Template.firstParameterAccepts function.id (Typing.ofLiteral receiver)) accepts
  isRefused : accepts = false → outcome = none
  answers : function.Answers evaluator (receiver :: others) outcome

variable {receiver : Literal} {others : List Literal}

theorem exists_offers (evaluator : Evaluator)
    (arePlain :
      ∀ id ∈ functions.named name,
        ∃ function : PlainFunction functions.toLoneModule, function.id = id)
    (receiver : Literal) (others : List Literal) :
    ∃ offers : List (functions.Offer evaluator receiver others),
      offers.map (·.function.id) = functions.named name := by
  generalize functions.named name = ids at arePlain
  induction ids with
  | nil => exact ⟨[], rfl⟩
  | cons id rest ih =>
    obtain ⟨function, rfl⟩ := arePlain id mem_cons_self
    obtain ⟨accepts, outcome, isAccepted, isRefused, answers⟩ :=
      function.exists_answer evaluator receiver others
    obtain ⟨offers, areRest⟩ := ih (forall_mem_cons.mp arePlain).2
    exact ⟨⟨function, accepts, outcome, isAccepted, isRefused, answers⟩ :: offers,
      congrArg (function.id :: ·) areRest⟩

/-- The return type of the only function that is left. -/
def returned (chosen : List Symbol) : Option Symbol :=
  ((Resolution.lone? chosen).bind Symbol.member?).bind (·.base)

variable {functions} {offers : List (functions.Offer evaluator receiver others)}

section

variable {write : functions.Offer evaluator receiver others → Symbol}
  (isIdle : functions.IsIdle state) (isDefault : state.options = {})
  (isShape : ∀ offer ∈ offers, (write offer).shape = offer.function.overload.shape)
  (areArguments :
    ∀ offer ∈ offers,
      callArguments (write offer) arguments =
        argumentTypes (receiver :: others))
include isIdle isDefault isShape areArguments

/-- The functions that take a call, each written in some way, are narrowed down. -/
theorem yields_selectForCall :
    Yields program evaluator state
      (selectForCall (offers.map write) [] arguments)
      (mostSpecialized program.tree
        (offers.flatMap fun offer =>
          (offer.outcome.map (·.withMissingTags (write offer).tags)).toList)) := by
  have areSingle : (offers.map write).flatMap candidates = offers.map write := by
    apply flatMap_candidates
    intro symbol isMember
    obtain ⟨offer, isOffer, rfl⟩ := mem_map.mp isMember
    rw [candidates, isShape offer isOffer]
    rfl
  have instances :
      Yields program evaluator state
        (collect
          (fun overload => do
            return (← instantiateForCall [] arguments overload).toList)
          (offers.map write))
        (offers.flatMap fun offer =>
          (offer.outcome.map (·.withMissingTags (write offer).tags)).toList) := by
    rw [collect_map]
    apply Yields.collect isIdle.isRunning
    intro offer isOffer
    exact .bind (offer.answers.yields state _ arguments isIdle isDefault (isShape offer isOffer)
      (areArguments offer isOffer)) (.pure _)
  unfold selectForCall
  rw [areSingle]
  apply Yields.bind instances
  apply Yields.bind (.ofReads .tree)
  refine .bind (.filterM fun symbol isMember => ?_) (.pure _)
  obtain ⟨offer, -, isSymbol⟩ := mem_flatMap.mp isMember
  obtain ⟨chosen, isOutcome, rfl⟩ := Option.map_eq_some_iff.mp (Option.mem_toList.mp isSymbol)
  obtain ⟨base, bindings, rfl⟩ := offer.answers.isInstance chosen isOutcome
  unfold meetsConstraint
  rw [definition?, shape_withMissingTags]
  apply Yields.bind (.ofReads (.node offer.function.isEntry))
  rw [offer.function.isFree]
  exact .pure true

variable (offers write) in
theorem settles_ofOverloads (callee : Expr) :
    ∃ final,
      Settles program evaluator
        (ofOverloads callee (offers.map write) [] arguments) state
        (returned
          (mostSpecialized program.tree
            (offers.flatMap fun offer =>
              (offer.outcome.map (·.withMissingTags (write offer).tags)).toList)))
        final := by
  have areMethods : (offers.map write).filter (isMethod program.tree) = offers.map write := by
    refine filter_eq_self.mpr fun symbol isMember => ?_
    obtain ⟨offer, isOffer, rfl⟩ := mem_map.mp isMember
    simp [isMethod, Symbol.isMember, Symbol.member?, Symbol.definition?,
      isShape offer isOffer, overload, Symbol.member, Symbol.declared,
      Symbol.withOrigin, Symbol.ofShape, offer.function.isEntry, Node.isMethod,
      offer.function.isMethod]
  have selects := yields_selectForCall isIdle isDefault isShape areArguments
  cases offers with
  | nil => exact ⟨state, Yields.bind (.ofReads .tree) (.pure _)⟩
  | cons first rest =>
    obtain ⟨final, settles⟩ := settles_theOnly program evaluator state _ callee.text
    refine ⟨final, Settles.bind (Yields.ofReads .tree) ?_⟩
    rw [areMethods]
    exact .bind selects (.bind settles (Yields.pure _))

end

section Plain

theorem yields_candidates
    (areNamed : offers.map (·.function.id) = functions.named name) (isNonempty : offers ≠ [])
    (isIdle : functions.IsIdle state) (isReference : state.options.referencesOnly = true) :
    Yields program evaluator state (Lookup.candidates name) (offers.map (·.function.overload)) := by
  have isVisible := functions.plain.yields_visible evaluator isIdle.isRunning isIdle.isScope name .all
  rw [functions.declared_eq rfl, ← areNamed, map_map] at isVisible
  refine Lookup.settles_candidates isVisible (by simpa using isNonempty) ?_
  unfold symbolsOf
  rw [collect_map, ← flatMap_singleton' (offers.map (·.function.overload)), flatMap_map]
  apply Yields.collect isIdle.isRunning
  intro offer isOffer
  exact .bind (offer.function.yields_overload isIdle isReference) (.pure _)

theorem yields_withOverrides {α : Type} {overrides : Overrides} {body : Query α} {value : α}
    (isRunning : state.isCancelled = false)
    (yields : Yields program evaluator (state.push (state.overridden overrides)) body value) :
    Yields program evaluator state (withOverrides overrides body) (some value) :=
  .bind (.ofReads .get) (.withFrame isRunning yields)

theorem exists_candidates_of_missing (evaluator : Evaluator) (isMissing : functions.named name = [])
    (isIdle : functions.IsIdle state) :
    ∃ symbols,
      Yields program evaluator state (Lookup.candidates name) symbols ∧
        symbols.filter (isMethod program.tree) = [] ∧ symbols.head?.bind callResult = none := by
  have isVisible := functions.plain.yields_visible evaluator isIdle.isRunning isIdle.isScope name .all
  rw [functions.declared_eq rfl, isMissing] at isVisible
  refine ⟨_, Lookup.yields_namesakes isVisible, ?_⟩
  rcases program.namesakes_cases name with ⟨root, -, areNamed⟩ | areNamed | areNamed
  all_goals
    rw [areNamed]
    exact ⟨rfl, rfl⟩

/-- A plain call has the return type of the only function that takes it. -/
theorem settles_plainCall (areNamed : offers.map (·.function.id) = functions.named name) :
    ∃ final,
      Settles program evaluator
        (typingOf (.call (.named name) (.literal receiver :: others.map .literal)))
        functions.start
        (returned
          (mostSpecialized program.tree (offers.flatMap fun offer => offer.outcome.toList)))
        final := by
  have isIdle := functions.isIdle_start.override callOverrides
  have settlesCall
      {overloads : List Symbol}
      {result : Option Symbol}
      {final : State}
      (isOffered :
        Yields program evaluator
          (functions.start.push (functions.start.overridden callOverrides))
          (Lookup.candidates name) overloads)
      (settles :
        Settles program evaluator
          (ofOverloads (.named name) overloads []
            (argumentTypes (receiver :: others)))
          functions.start result final) :
      Settles program evaluator
        (typingOf (.call (.named name) (.literal receiver :: others.map .literal)))
        functions.start result final := by
    apply Settles.ask
    apply Settles.bind (Yields.ofReads .isCancelled)
    apply Settles.bind (yields_argumentTypes rfl (receiver :: others))
    exact .bind (Yields.bind (yields_withOverrides rfl isOffered) (.pure _)) settles
  by_cases isNonempty : offers = []
  · subst isNonempty
    obtain ⟨symbols, isOffered, areNoMethods, isNoResult⟩ :=
      exists_candidates_of_missing evaluator areNamed.symm isIdle
    refine ⟨functions.start, settlesCall isOffered ?_⟩
    apply Yields.bind (.ofReads .tree)
    rw [areNoMethods, isNoResult]
    exact .pure _
  · have isOffered := yields_candidates areNamed isNonempty isIdle rfl
    obtain ⟨final, settles⟩ :=
      settles_ofOverloads offers (·.function.overload) functions.isIdle_start rfl
        (fun _ _ => rfl) (fun _ _ => rfl) (.named name)
    refine ⟨final, settlesCall isOffered ?_⟩
    have isUnmarked (offer : functions.Offer evaluator receiver others) :
        offer.outcome.map (·.withMissingTags offer.function.overload.tags) = offer.outcome :=
      Option.map_id'
    simp only [isUnmarked] at settles
    exact settles

end Plain

section Member

/-- The function as a member of the receiver. -/
def Offer.asMember (offer : functions.Offer evaluator receiver others) : Symbol :=
  (offer.function.overload.withTag .ufcs).withTag (.receiver (Typing.ofLiteral receiver))

/-- The functions whose first parameter takes the receiver are its members. -/
theorem yields_freeFunctions
    (areNamed : offers.map (·.function.id) = functions.named name) (isIdle : functions.IsIdle state)
    (isReference : state.options.referencesOnly = true) :
    Yields program evaluator state
      (MemberAccess.freeFunctions (ofLiteral receiver) (ofLiteral receiver) name)
      ((offers.filter (·.accepts)).map (·.asMember)) := by
  have isVisible :=
    functions.plain.yields_visible evaluator isIdle.isRunning isIdle.isScope name .onlyMethods
  rw [functions.declared_eq rfl, ← areNamed, map_map] at isVisible
  have yieldsMember (offer : functions.Offer evaluator receiver others) :
      Yields program evaluator state
        (MemberAccess.asMember (ofLiteral receiver) (ofLiteral receiver) ⟨offer.function.id, none⟩)
        (if offer.accepts then [offer.asMember] else []) := by
    apply Yields.bind (.ofReads (.node offer.function.isEntry))
    apply Yields.bind (offer.isAccepted state isIdle)
    cases offer.accepts with
    | false => exact .pure []
    | true =>
      apply Yields.bind (offer.function.yields_overload isIdle isReference)
      apply Yields.bind (.ofReads .options)
      rw [isReference, Bool.or_true]
      exact .pure [offer.asMember]
  have yieldsMembers :
      Yields program evaluator state
        ((offers.map fun offer => ⟨offer.function.id, none⟩).mapM
          (MemberAccess.asMember (ofLiteral receiver) (ofLiteral receiver)))
        (offers.map fun offer => if offer.accepts then [offer.asMember] else []) := by
    rw [mapM_map]
    exact .mapM fun offer _ => yieldsMember offer
  have isFlat :
      (offers.map fun offer => if offer.accepts then [offer.asMember] else []).flatten =
        (offers.filter (·.accepts)).map (·.asMember) := by
    clear areNamed isVisible yieldsMembers
    induction offers with
    | nil => rfl
    | cons offer rest ih =>
      rw [map_cons, flatten_cons, ih]
      cases isAccepted : offer.accepts <;> simp [isAccepted]
  rw [← isFlat]
  exact .bind isVisible (.bind yieldsMembers (.pure _))

theorem yields_candidatesOn (areNamed : offers.map (·.function.id) = functions.named name)
    (isNoProperty :
      Property.find? (Property.categoryOf program.tree (ofLiteral receiver)) name = none)
    (isIdle : functions.IsIdle state) (isReference : state.options.referencesOnly = true) :
    Yields program evaluator state
      (MemberAccess.candidatesOn name true (ofLiteral receiver))
      ((offers.filter (·.accepts)).map (·.asMember)) := by
  have isOwn : (ofLiteral receiver).pointee = ofLiteral receiver := by
    cases receiver <;> rfl
  have isUndeclared :
      MemberAccess.declared (ofLiteral receiver) (ofLiteral receiver) name = pure [] := by
    cases receiver <;> rfl
  have isOwner :
      Property.ownerType? program.tree (ofLiteral receiver) = some (ofLiteral receiver) := by
    cases receiver <;> rfl
  have isNotAggregate : (ofLiteral receiver).isAggregate = false := by
    cases receiver <;> rfl
  have takes : MemberAccess.takesFreeFunctions (ofLiteral receiver) = true := by
    cases receiver <;> rfl
  have lacksProperty :
      Yields program evaluator state (Property.member? (ofLiteral receiver) name) none := by
    apply Yields.bind (.ofReads .tree)
    simp only [isOwner, isNoProperty]
    exact .pure none
  unfold MemberAccess.candidatesOn
  simp only [strip_ofLiteral, isOwn, isUndeclared]
  apply Yields.bind (.pure [])
  apply Yields.bind lacksProperty
  rw [isNotAggregate]
  apply Yields.bind (.pure [])
  rw [takes]
  exact yields_freeFunctions areNamed isIdle isReference

/-- A function as a member call gives it. -/
def marked (receiver : Literal) (symbol : Symbol) : Symbol :=
  symbol.withMissingTags [.ufcs, .receiver (Typing.ofLiteral receiver)]

theorem shape_marked (receiver : Literal) (symbol : Symbol) :
    (marked receiver symbol).shape = symbol.shape :=
  symbol.shape_withMissingTags _

theorem flatMap_accepting (offers : List (functions.Offer evaluator receiver others)) :
    ((offers.filter (·.accepts)).flatMap fun offer =>
      (offer.outcome.map (marked receiver)).toList) =
        (offers.flatMap fun offer => offer.outcome.toList).map (marked receiver) := by
  induction offers with
  | nil => rfl
  | cons offer rest ih =>
    cases isAccepted : offer.accepts with
    | false =>
      rw [filter_cons_of_neg (by simp [isAccepted]), ih, flatMap_cons, offer.isRefused isAccepted]
      rfl
    | true =>
      rw [filter_cons_of_pos isAccepted, flatMap_cons, ih, flatMap_cons]
      cases offer.outcome <;> rfl

theorem returned_map_marked (receiver : Literal) (chosen : List Symbol) :
    returned (chosen.map (marked receiver)) = returned chosen := by
  unfold returned Resolution.lone?
  match chosen with
  | [] => rfl
  | [symbol] =>
  simp only [map_cons, map_nil, Option.bind_some, member?]
  rw [shape_marked]
  | _ :: _ :: _ => rfl

/-- A member call has the return type of the only function that takes it. -/
theorem settles_memberCall (areNamed : offers.map (·.function.id) = functions.named name)
    (isNoProperty :
      Property.find? (Property.categoryOf program.tree (ofLiteral receiver)) name = none) :
    ∃ final,
      Settles program evaluator
        (typingOf (.call (.member (.literal receiver) name) (others.map .literal)))
        functions.start
        (returned
          (mostSpecialized program.tree (offers.flatMap fun offer => offer.outcome.toList)))
        final := by
  have isIdle := functions.isIdle_start.override callOverrides
  have isOffered :
      Yields program evaluator
        (functions.start.push (functions.start.overridden callOverrides))
        (MemberAccess.candidates (ofLiteral receiver) name true)
        ((offers.filter (·.accepts)).map (·.asMember)) := by
    have isSingle : (ofLiteral receiver).candidates = [ofLiteral receiver] := by
      cases receiver <;> rfl
    unfold MemberAccess.candidates
    rw [isSingle]
    exact .collect_singleton isIdle.isRunning (yields_candidatesOn areNamed isNoProperty isIdle rfl)
  have areArguments (offer : functions.Offer evaluator receiver others) :
      callArguments offer.asMember (argumentTypes others) =
        argumentTypes (receiver :: others) :=
    congrArg (· :: argumentTypes others) (strip_ofLiteral receiver)
  -- The receiver comes back as the first argument, through the tag that every member carries.
  obtain ⟨final, settles⟩ :=
    settles_ofOverloads (offers.filter (·.accepts)) (·.asMember) functions.isIdle_start rfl
      (fun _ _ => rfl) (fun offer _ => areArguments offer) (.member (.literal receiver) name)
  have isSame :
      returned
        (mostSpecialized program.tree
          ((offers.filter (·.accepts)).flatMap fun offer =>
            (offer.outcome.map (marked receiver)).toList)) =
        returned
          (mostSpecialized program.tree (offers.flatMap fun offer => offer.outcome.toList)) := by
    rw [flatMap_accepting, mostSpecialized_map (shape_marked receiver), returned_map_marked]
  rw [← isSame]
  refine ⟨final, .ask ?_⟩
  apply Settles.bind (Yields.ofReads .isCancelled)
  apply Settles.bind (yields_argumentTypes rfl others)
  apply Settles.bind (yields_literal rfl receiver)
  exact .bind (yields_withOverrides rfl isOffered) settles

end Member

end FunctionModule

/--
Calling free functions like members of a literal gives the type that calling them
with the literal as the first argument gives.
-/
theorem member_call_equals_plain_call
    {program : Program}
    (functions : FunctionModule program)
    {name : String}
    (arePlain :
      ∀ id ∈ functions.named name,
        ∃ function : PlainFunction functions.toLoneModule, function.id = id)
    (receiver : Literal)
    (others : List Literal)
    (isNoProperty :
      ∀ entry ∈ Property.entries (Property.categoryOf program.tree (Typing.ofLiteral receiver)),
        entry.name ≠ name) :
    ∃ result final later,
      Engine.Settles program .standard
          (Operation.evaluateType
            (.call (.member (.literal receiver) name) (others.map .literal))).query
          functions.start result final ∧
        Engine.Settles program .standard
          (Operation.evaluateType
            (.call (.named name) (.literal receiver :: others.map .literal))).query
          functions.start result later := by
  obtain ⟨offers, areNamed⟩ := functions.exists_offers .standard arePlain receiver others
  have isMissing :
      Property.find? (Property.categoryOf program.tree (ofLiteral receiver)) name = none :=
    find?_eq_none.mpr fun entry isEntry => by simpa using isNoProperty entry isEntry
  obtain ⟨final, memberCall⟩ := FunctionModule.settles_memberCall areNamed isMissing
  obtain ⟨later, plainCall⟩ := FunctionModule.settles_plainCall areNamed
  exact ⟨_, final, later, memberCall, plainCall⟩

/-- A module of functions of one name. -/
def Program.overloaded : Program :=
  let drafting : Drafting Unit := do
    let module ← Draft.addModule "m"
    let most ← Draft.addMember module "most" (.method (some (.pointer (.named "T"))) [] none)
    discard <| Draft.addTemplateParameter most "T" (.type none none)
    discard <| Draft.addParameter most "items" (.dynamicArray (.named "T"))
    discard <| Draft.addParameter most "bound" (.basic .int)
    let pointed ← Draft.addMember module "most" (.method (some (.named "T")) [] none)
    discard <| Draft.addTemplateParameter pointed "T" (.type none none)
    discard <| Draft.addParameter pointed "item" (.pointer (.named "T"))
    discard <| Draft.addParameter pointed "bound" (.basic .int)
    let number ← Draft.addMember module "most" (.method (some (.basic .int)) [] none)
    discard <| Draft.addParameter number "first" (.basic .int)
    discard <| Draft.addParameter number "second" (.basic .int)
  .ofTree (drafting.run {}).2.tree

def FunctionModule.overloaded : FunctionModule .overloaded where
  moduleId := ⟨0⟩
  module := (Program.overloaded.tree.node? ⟨0⟩).get (by decide +kernel)
  isModuleEntry := (Option.some_get _).symm
  isModule := rfl
  isRoot := rfl
  isNoTemplate := rfl
  isAlone := Program.isAlone_of_all (by decide +kernel)
  areMethods := by
    change ∀ id ∈ [(⟨1⟩ : NodeId), ⟨5⟩, ⟨9⟩], _
    simp only [List.forall_mem_cons]
    exact ⟨⟨_, rfl, rfl⟩, ⟨_, rfl, rfl⟩, ⟨_, rfl, rfl⟩, forall_mem_nil _⟩
  areDistinct := by
    change [(⟨1⟩ : NodeId), ⟨5⟩, ⟨9⟩].Nodup
    decide

theorem FunctionModule.overloaded_arePlain :
    ∀ id ∈ FunctionModule.overloaded.named "most",
      ∃ function : PlainFunction FunctionModule.overloaded.toLoneModule, function.id = id := by
  have isType : "T" ∈ ["T"] := mem_singleton_self "T"
  intro id isMember
  change id ∈ [⟨1⟩, ⟨5⟩, ⟨9⟩] at isMember
  simp only [mem_cons, not_mem_nil, or_false] at isMember
  rcases isMember with rfl | rfl | rfl
  · refine ⟨⟨⟨1⟩, _, _, [⟨3⟩, ⟨4⟩], _, rfl, rfl, rfl, rfl, rfl, ?_, ?_, .pointer (.named isType)⟩,
      rfl⟩
    · exact forall_mem_singleton.mpr ⟨_, rfl, rfl, rfl, rfl⟩
    · rw [forall_mem_cons, forall_mem_singleton]
      exact ⟨⟨_, _, _, rfl, rfl, rfl, ⟨rfl, rfl⟩, rfl, .dynamicArray (.named isType)⟩,
        ⟨_, _, _, rfl, rfl, rfl, ⟨rfl, rfl⟩, rfl, .basic _⟩⟩
  · refine ⟨⟨⟨5⟩, _, _, [⟨7⟩, ⟨8⟩], _, rfl, rfl, rfl, rfl, rfl, ?_, ?_, .named isType⟩, rfl⟩
    · exact forall_mem_singleton.mpr ⟨_, rfl, rfl, rfl, rfl⟩
    · rw [forall_mem_cons, forall_mem_singleton]
      exact ⟨⟨_, _, _, rfl, rfl, rfl, ⟨rfl, rfl⟩, rfl, .pointer (.named isType)⟩,
        ⟨_, _, _, rfl, rfl, rfl, ⟨rfl, rfl⟩, rfl, .basic _⟩⟩
  · refine ⟨⟨⟨9⟩, _, _, [⟨10⟩, ⟨11⟩], _, rfl, rfl, rfl, rfl, rfl, nofun, ?_, .basic _⟩, rfl⟩
    rw [forall_mem_cons, forall_mem_singleton]
    exact ⟨⟨_, _, _, rfl, rfl, rfl, ⟨rfl, rfl⟩, rfl, .basic _⟩,
      ⟨_, _, _, rfl, rfl, rfl, ⟨rfl, rfl⟩, rfl, .basic _⟩⟩

/-- Both `"ab".most(3)` and `most("ab", 3)` mean the function for arrays. -/
theorem overloaded_member_call_equals_plain_call :
    ∃ symbol final later,
      Engine.Settles .overloaded .standard
          (Operation.evaluateType
            (.call (.member (.literal (.string "ab")) "most") [.literal (.integer 3 .int)])).query
          (.start ⟨0⟩ none) (some symbol) final ∧
        Engine.Settles .overloaded .standard
            (Operation.evaluateType
              (.call (.named "most")
                [.literal (.string "ab"), .literal (.integer 3 .int)])).query
            (.start ⟨0⟩ none) (some symbol) later ∧
          symbol.sameType (.pointer (some ((Symbol.primitive .char).withModifier .immutable))) =
            true := by
  have run :
      ((Engine.run .overloaded .standard 9
            (Operation.evaluateType
              (.call (.named "most") [.literal (.string "ab"), .literal (.integer 3 .int)])).query
            (.start ⟨0⟩ none)).toOption.any
        fun outcome =>
          outcome.1.any
            (·.sameType (.pointer (some ((primitive .char).withModifier .immutable))))) =
        true := by
    decide +kernel
  obtain ⟨⟨found, reached⟩, returned, isPointer⟩ := exists_of_any run
  obtain ⟨symbol, isFound, isSame⟩ := (Option.any_eq_true _ _).mp isPointer
  obtain ⟨result, final, later, memberCall, plainCall⟩ :=
    member_call_equals_plain_call FunctionModule.overloaded FunctionModule.overloaded_arePlain
      (.string "ab") [.integer 3 .int] (by decide +kernel)
  cases isFound
  obtain rfl := plainCall.unique (.ofRun (Operation.query_orderly _ _) returned)
  exact ⟨symbol, final, later, memberCall, plainCall, isSame⟩

end DScope
