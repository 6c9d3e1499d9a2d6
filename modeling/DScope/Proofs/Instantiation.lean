import DScope.Proofs.ModuleScope
import DScope.Proofs.Portions
import DScope.Proofs.Substitution
import Mathlib.Data.List.Nodup

namespace DScope

/-!
# Instantiation is substitution

A field of an instantiated struct template has the type that results from writing
the arguments in the place of the parameters. The resolved type keeps a symbol for
each parameter around what the parameter is bound to; apart from these symbols the
two types are the same.
-/

open Bindings hiding isEmpty none
open List Template DeclaredSymbol
open Engine (Yields)
open Query (Reads)

variable {id parameter : NodeId} {tree : Tree} {scan : Scan} {parameters : List NodeId}
  {bindings : Bindings} {types : List Symbol} {program : Program} {evaluator : Evaluator}
  {state : State} {name : String} {via : Option Symbol} {bound : List Slot}

theorem foldl_eq_self {α β : Type} {step : β → α → β} {value : β} {items : List α}
    (isFixed : ∀ item ∈ items, step value item = value) : items.foldl step value = value :=
  foldlRecOn (motive := (· = value)) items step rfl fun _ isSame item isMember =>
    isSame.symm ▸ isFixed item isMember

namespace Bindings

variable {rest : List NodeId} {type : Symbol}

/-- Parameters bound to types in order. -/
def ofTypes (parameters : List NodeId) (types : List Symbol) : Bindings :=
  ⟨List.zipWith (fun parameter type => .filled (.ofType parameter type)) parameters types⟩

/-- Parameters that are declared and not bound. -/
def ofOpen (parameters : List NodeId) : Bindings :=
  ⟨parameters.map .empty⟩

theorem putSlot_append
    {slot previous : Slot} {before after : List Slot} (isSame : previous.parameter = slot.parameter)
    (isNew : slot.parameter ∉ before.map Slot.parameter) :
    putSlot slot (before ++ previous :: after) = before ++ slot :: after := by
  induction before with
  | nil => simp [putSlot, isSame]
  | cons first rest ih =>
    have isOther : first.parameter ≠ slot.parameter := fun isEqual => isNew (by simp [isEqual])
    have isNewInRest : slot.parameter ∉ rest.map Slot.parameter := fun isMember =>
      isNew (mem_cons_of_mem _ isMember)
    simp [putSlot, isOther, ih isNewInRest]

theorem set_next (isNew : parameter ∉ bound.map Slot.parameter) :
    set ⟨bound ++ (parameter :: rest).map .empty⟩ (.ofType parameter type) =
      ⟨(bound ++ [.filled (.ofType parameter type)]) ++ rest.map .empty⟩ := by
  have isPut :
      putSlot (.filled (.ofType parameter type)) (bound ++ .empty parameter :: rest.map .empty) =
        bound ++ .filled (.ofType parameter type) :: rest.map .empty :=
    putSlot_append rfl isNew
  simp [set, isPut]

theorem areNew_next (slot : Slot) (isOther : slot.parameter ∉ rest)
    (areNew : ∀ other ∈ slot.parameter :: rest, other ∉ bound.map Slot.parameter) :
    ∀ other ∈ rest, other ∉ (bound ++ [slot]).map Slot.parameter := by
  intro other isMember isBound
  rw [map_append, mem_append] at isBound
  rcases isBound with isOld | isEqual
  · exact areNew other (mem_cons_of_mem _ isMember) isOld
  · cases mem_singleton.mp isEqual
    exact isOther isMember

theorem contains_iff :
    bindings.contains parameter = true ↔ parameter ∈ bindings.slots.map Slot.parameter := by
  simp [contains, slot?]

theorem foldl_declare {slots : List Slot} (areDistinct : parameters.Nodup)
    (areNew : ∀ parameter ∈ parameters, parameter ∉ slots.map Slot.parameter) :
    parameters.foldl declare ⟨slots⟩ = ⟨slots ++ parameters.map .empty⟩ := by
  induction parameters generalizing slots with
  | nil => simp
  | cons parameter rest ih =>
    obtain ⟨isOther, areDistinct⟩ := nodup_cons.mp areDistinct
    have isNew : contains ⟨slots⟩ parameter = false := by
      rw [Bool.eq_false_iff, ne_eq, contains_iff]
      exact areNew parameter mem_cons_self
    rw [foldl_cons, declare, isNew]
    simp only [Bool.false_eq_true, if_false]
    rw [ih areDistinct (areNew_next (.empty parameter) isOther areNew)]
    simp

theorem forParameters_eq (areDistinct : parameters.Nodup) :
    forParameters parameters = ofOpen parameters :=
  foldl_declare areDistinct (by simp)

theorem declare_ofOpen (isMember : parameter ∈ parameters) :
    (ofOpen parameters).declare parameter = ofOpen parameters := by
  have isContained : (ofOpen parameters).contains parameter = true :=
    contains_iff.mpr (by simpa [ofOpen, Slot.parameter] using isMember)
  rw [declare, isContained, if_pos rfl]

theorem putSlot_empty (isMember : parameter ∈ parameters) :
    putSlot (.empty parameter) (parameters.map .empty) = parameters.map .empty := by
  obtain ⟨before, after, rfl, isNew⟩ := eq_append_cons_of_mem isMember
  rw [map_append]
  exact putSlot_append rfl (by simpa [Slot.parameter] using isNew)

theorem clear_ofOpen (isMember : parameter ∈ parameters) :
    (ofOpen parameters).clear parameter = ofOpen parameters := by
  unfold clear
  split
  · simp only [ofOpen, putSlot_empty isMember]
  · rfl

theorem get?_ofTypes (areDistinct : parameters.Nodup)
    (isPair : (parameter, type) ∈ parameters.zip types) :
    (ofTypes parameters types).get? parameter = some (.ofType parameter type) := by
  induction parameters generalizing types with
  | nil => simp at isPair
  | cons first rest ih =>
    cases types with
    | nil => simp at isPair
    | cons firstType restTypes =>
      obtain ⟨isOther, areDistinct⟩ := nodup_cons.mp areDistinct
      rw [zip_cons_cons, mem_cons] at isPair
      rcases isPair with isFirst | isLater
      · cases isFirst
        simp [ofTypes, get?, slot?, Slot.parameter, Binding.ofType, Slot.binding?]
      · have isOtherParameter : first ≠ parameter := by
          rintro rfl
          exact isOther (of_mem_zip isLater).1
        have isBound := ih areDistinct isLater
        simpa [ofTypes, get?, slot?, Slot.parameter, Binding.ofType, isOtherParameter] using isBound

theorem allSatisfied_ofTypes (parameters : List NodeId) (types : List Symbol) :
    (ofTypes parameters types).allSatisfied = true := by
  simp [allSatisfied, ofTypes, ← map_uncurry_zip_eq_zipWith, Slot.isSatisfied, Slot.binding?,
    Binding.isBound, Binding.ofType]

end Bindings

namespace Template

/-- A template parameter that takes any type and has no default. -/
def IsPlainParameter (program : Program) (parameter : NodeId) : Prop :=
  ∃ entry,
    program.tree.node? parameter = some entry ∧
      entry.kind = .templateParameter (.type none none) ∧
      entry.templateParameters = [] ∧ entry.constraint = none

theorem IsPlainParameter.isKind (isPlain : IsPlainParameter program parameter) :
    program.tree.parameterKind? parameter = some (.type none none) := by
  obtain ⟨entry, isEntry, isKind, -⟩ := isPlain
  simp [Tree.parameterKind?, isEntry, Node.parameterKind?, isKind]

theorem IsPlainParameter.isUnrestricted (isPlain : IsPlainParameter program parameter) :
    IsUnrestricted program.tree parameter :=
  ⟨.type none none, isPlain.isKind, rfl⟩

theorem distributed?_ofTypes (bound : List Slot)
    (arePlain : ∀ parameter ∈ parameters, IsPlainParameter program parameter)
    (areDistinct : parameters.Nodup)
    (areNew : ∀ parameter ∈ parameters, parameter ∉ bound.map Slot.parameter)
    (isComplete : types.length = parameters.length) :
    distributed? program.tree parameters (types.map .type) ⟨bound ++ parameters.map .empty⟩ =
      some (⟨bound ++ (ofTypes parameters types).slots⟩, []) := by
  induction parameters generalizing types bound with
  | nil =>
    cases length_eq_zero_iff.mp isComplete
    rfl
  | cons parameter rest ih =>
    cases types with
    | nil => cases isComplete
    | cons type later =>
      obtain ⟨isPlain, arePlain⟩ := forall_mem_cons.mp arePlain
      obtain ⟨isOther, areDistinct⟩ := nodup_cons.mp areDistinct
      have isRest :=
        ih _ arePlain areDistinct
          (areNew_next (.filled (.ofType parameter type)) isOther areNew)
          (Nat.succ.inj isComplete)
      have isNew := areNew parameter mem_cons_self
      rw [← set_next isNew, append_assoc] at isRest
      rw [map_cons, distributed?_cons isPlain.isKind rfl]
      exact isRest

end Template

namespace Lookup

variable {found : List Declaration} {entry : Node}

/-- Whether scanning the members of a scope for a name gives the declarations. -/
def FindsAmong (program : Program) (access : Access) (via : Option Symbol) (entry : Node)
    (name : String) (found : List Declaration) : Prop :=
  ∀ scan : Scan, scan.name = some name → scan.filter = .all → scan.found = [] →
    scan.members program access via entry = { scan with found }

theorem isDone_of_found {home : NodeId} (isNonempty : found ≠ []) :
    ({ name := some name, filter := .all, home, found } : Scan).isDone = true := by
  simp [Scan.isDone, isNonempty]

theorem reads_visible (isRunning : state.isCancelled = false)
    (isEntry : program.tree.node? state.stack.top.scope = some entry)
    (isNoMethod : entry.isMethod = false)
    (finds : FindsAmong program .lexical none entry name found) (isNonempty : found ≠ []) :
    Reads program state (visible name .all) found := by
  let start : Scan :=
    { name := some name, filter := .all, home := program.tree.rootOf state.stack.top.scope }
  have scansMethod : Reads program state (scanMethod state.stack.top.scope start) start := by
    apply Reads.bind (.node isEntry)
    rw [isNoMethod]
    exact .pure start
  exact reads_visible_of_isDone isRunning isEntry scansMethod (reads_scanMembers isEntry
    (finds start rfl rfl rfl)) (isDone_of_found isNonempty)

/-- A module that holds one declaration and nothing else is found to have it. -/
theorem reads_visible_only {module : Node} (isRunning : state.isCancelled = false)
    (isScope : program.tree.node? state.stack.top.scope = some module)
    (isModule : module.kind = .module) (isNoTemplate : module.templateParameters = [])
    (isOnly : module.children = [id]) (isEntry : program.tree.node? id = some entry)
    (isOrdinary : entry.isOrdinary = true) :
    Reads program state (visible entry.name .all) [⟨id, none⟩] := by
  refine reads_visible isRunning isScope (by rw [Node.isMethod, isModule]) ?_ (cons_ne_nil _ _)
  intro scan isName isAll isEmpty
  have isWanted : scan.wants entry = true := by
    simp [Scan.wants, isName, isAll, Node.accepts_all_of_isOrdinary isOrdinary]
  rw [Scan.members, isOnly, isNoTemplate, Scan.foldl_member
    (forall_mem_singleton.mpr ⟨entry, isEntry, isOrdinary⟩) (by simp) (by simp [isEmpty])]
  simp [isEntry, isWanted, isEmpty]

theorem reads_members {scopeEntry : Node} {owner : Symbol} {aggregate : Aggregate}
    (isScope : program.tree.node? state.stack.top.scope = some scopeEntry)
    (isAggregate : owner.shape = .aggregate aggregate)
    (isEntry : program.tree.node? aggregate.node = some entry)
    (finds :
      FindsAmong program .external (if aggregate.bindings.isEmpty then none else some owner) entry
        name found)
    (isNonempty : found ≠ []) :
    Reads program state (members owner name .all) found := by
  let start : Scan :=
    { name := some name, filter := .all, home := program.tree.rootOf state.stack.top.scope }
  have isDone : ({ start with found } : Scan).isDone = true := isDone_of_found isNonempty
  apply Reads.bind (reads_start isScope)
  rw [isAggregate]
  exact .bind (reads_scanMembers isEntry (finds _ rfl rfl rfl)) (.bind (reads_unlessDone isDone _)
    (.bind (reads_unlessDone isDone _) (.pure _)))

end Lookup

theorem DeclaredSymbol.reads_ofParameter {binding : Binding}
    (isBound : state.stack.binding? id = some binding) (isNotSelf : binding.isSelf = false) :
    Reads program state (ofParameter id bindings) (.parameter binding) := by
  have isFound :
      (state.stack.binding? id <|> bindings.get? id).filter (!·.isSelf) = some binding := by
    simp [isBound, isNotSelf]
  apply Reads.bind .get
  rw [isFound]
  exact .pure _

theorem Scan.consider_of_ne (isName : scan.name = some name) (isOther : tree.nameOf id ≠ name) :
    scan.consider tree via id = scan := by
  unfold consider
  split
  next entry isEntry =>
    have isUnwanted : scan.wants entry = false := by
      rw [Tree.nameOf, isEntry] at isOther
      simpa [wants, isName] using fun isEqual => absurd isEqual isOther
    rw [isUnwanted]
    rfl
  next => rfl

/-- Of declarations with distinct names, a scan that looks for one of the names finds that one. -/
theorem Scan.foldl_eq_of_meets {step : Scan → NodeId → Scan} {ids : List NodeId}
    (isMember : id ∈ ids) (haveDistinctNames : (ids.map tree.nameOf).Nodup)
    (passes :
      ∀ found other, tree.nameOf other ≠ tree.nameOf id →
        step { scan with found } other = { scan with found })
    (meets : step scan id = { scan with found := [⟨id, via⟩] }) :
    ids.foldl step scan = { scan with found := [⟨id, via⟩] } := by
  obtain ⟨before, after, rfl⟩ := append_of_mem isMember
  rw [map_append, nodup_append] at haveDistinctNames
  obtain ⟨-, areOtherAfter, areOtherBefore⟩ := haveDistinctNames
  have passesBefore : before.foldl step scan = scan :=
    foldl_eq_self fun other isOther =>
      passes scan.found other (areOtherBefore _ (mem_map_of_mem isOther) _ mem_cons_self)
  have passesAfter :
      after.foldl step { scan with found := [⟨id, via⟩] } = { scan with found := [⟨id, via⟩] } :=
    foldl_eq_self fun other isOther => passes _ other fun isEqual =>
      (nodup_cons.mp areOtherAfter).1 (isEqual ▸ mem_map_of_mem isOther)
  rw [foldl_append, foldl_cons, passesBefore, meets, passesAfter]

theorem Scan.foldl_consider {ids : List NodeId} {entry : Node} (isMember : id ∈ ids)
    (haveDistinctNames : (ids.map tree.nameOf).Nodup) (isEntry : tree.node? id = some entry)
    (isName : scan.name = some (tree.nameOf id)) (isWanted : scan.wants entry = true)
    (isEmpty : scan.found = []) :
    ids.foldl (consider tree none) scan = { scan with found := [⟨id, none⟩] } :=
  foldl_eq_of_meets isMember haveDistinctNames (fun _ _ isOther => consider_of_ne isName isOther)
    (by simp [consider, isEntry, isWanted, add, isEmpty])

/-- A module that holds a struct template with one field and nothing else. -/
structure FieldTemplate (program : Program) where
  moduleId : NodeId
  structId : NodeId
  fieldId : NodeId
  parameters : List NodeId
  module : Node
  struct : Node
  field : Node
  type : TypeExpr
  isModuleEntry : program.tree.node? moduleId = some module
  isStructEntry : program.tree.node? structId = some struct
  isFieldEntry : program.tree.node? fieldId = some field
  isModule : module.kind = .module
  isRoot : module.parent = none
  holdsStruct : module.children = [structId]
  isNoTemplate : module.templateParameters = []
  isStruct : ∃ isMixin bases, struct.kind = .aggregate .structType isMixin bases
  holdsField : struct.children = [fieldId]
  takesParameters : struct.templateParameters = parameters
  isFree : struct.constraint = none
  isField : ∃ initializer, field.kind = .var (some type) initializer
  isInside : field.parent = some structId
  isPublic : field.visibility = .publicAccess
  isPlainField : field.templateParameters = [] ∧ field.constraint = none
  isTemplate : parameters ≠ []
  arePlain : ∀ parameter ∈ parameters, Template.IsPlainParameter program parameter
  areDistinct : (parameters.map program.tree.nameOf).Nodup
  isOther : field.name ∉ parameters.map program.tree.nameOf
  isBuilt : type.IsBuiltFrom (parameters.map program.tree.nameOf)

namespace FieldTemplate

variable (template : FieldTemplate program) {arguments : List TypeExpr} {denote : TypeExpr → Symbol}
  {symbol : Symbol} {type base : Symbol}

def names : List String :=
  template.parameters.map program.tree.nameOf

/-- The template with its parameters bound to types in order. -/
def instanceWith (types : List Symbol) : Symbol :=
  .declared template.structId (.aggregate
    ⟨.structType, template.structId, none, [], .ofTypes template.parameters types⟩)

theorem parameters_nodup : template.parameters.Nodup :=
  Nodup.of_map _ template.areDistinct

theorem findsField (via : Option Symbol) :
    Lookup.FindsAmong program .external via template.struct template.field.name
      [⟨template.fieldId, via⟩] := by
  intro scan isName isAll isEmpty
  obtain ⟨initializer, isKind⟩ := template.isField
  have isWanted : scan.wants template.field = true := by
    simp [Scan.wants, isName, isAll, Filter.accepts, isKind, Filter.all]
  simp [Scan.members, template.holdsField, Scan.member, template.isFieldEntry, isKind, isWanted,
    Scan.mayAccess, template.isPublic, Scan.add, isEmpty]

theorem findsParameter (isMember : parameter ∈ template.parameters) :
    Lookup.FindsAmong program .lexical none template.struct (program.tree.nameOf parameter)
      [⟨parameter, none⟩] := by
  intro scan isName isAll isEmpty
  obtain ⟨initializer, isKind⟩ := template.isField
  obtain ⟨entry, isEntry, isParameter, -⟩ := template.arePlain parameter isMember
  have isFieldOther : template.field.name ≠ program.tree.nameOf parameter := fun isEqual =>
    template.isOther (isEqual ▸ mem_map_of_mem isMember)
  have isFieldUnwanted : scan.wants template.field = false := by
    simp [Scan.wants, isName, isFieldOther]
  have isWanted : scan.wants entry = true := by
    simp [Scan.wants, isName, isAll, Filter.accepts, isParameter, Filter.all, Tree.nameOf, isEntry]
  have passesField :
      template.struct.children.foldl (Scan.member program .lexical none) scan = scan := by
    simp [template.holdsField, Scan.member, template.isFieldEntry, isKind, isFieldUnwanted]
  unfold Scan.members
  rw [passesField, template.takesParameters]
  exact Scan.foldl_consider isMember template.areDistinct isEntry isName isWanted isEmpty

/-- The template with its parameters open. -/
def openTemplate : Symbol :=
  .declared template.structId (.aggregate
    ⟨.structType, template.structId, none, [], .ofOpen template.parameters⟩)

def start : State :=
  .start template.moduleId none

theorem isPositive_start : template.start.guard.IsPositive :=
  fun _ isEntered => nomatch isEntered

theorem attached_struct :
    attached program.tree template.start.stack template.structId template.struct .none =
      .ofOpen template.parameters := by
  obtain ⟨isMixin, bases, isKind⟩ := template.isStruct
  have isOther : template.struct.kind ≠ template.module.kind := by
    rw [isKind, template.isModule]
    exact nofun
  rw [attached_outside template.isStructEntry template.isModuleEntry template.isRoot
    isOther, template.takesParameters, forParameters_eq template.parameters_nodup]
  rfl

theorem yields_struct :
    Yields program evaluator template.start (Query.symbolOf template.structId .none)
      (some template.openTemplate) := by
  obtain ⟨isMixin, bases, isKind⟩ := template.isStruct
  apply yields_symbolOf rfl template.isPositive_start template.isStructEntry
  rw [template.attached_struct]
  unfold visit
  rw [isKind]
  exact .bind (.bind (.pure none) (.pure _)) (.pure _)

theorem yields_candidates :
    Yields program evaluator template.start (Lookup.candidates template.struct.name)
      [template.openTemplate] := by
  obtain ⟨isMixin, bases, isKind⟩ := template.isStruct
  have isVisible :
      Yields program evaluator template.start
        (Lookup.visible template.struct.name .all) [⟨template.structId, none⟩] :=
    .ofReads (Lookup.reads_visible_only rfl template.isModuleEntry template.isModule
      template.isNoTemplate template.holdsStruct template.isStructEntry
      (by rw [Node.isOrdinary, isKind]))
  apply Lookup.settles_candidates isVisible (by simp)
  exact Query.settles_symbolsOf_singleton rfl rfl template.yields_struct

def unrestricted : UnrestrictedTemplate program where
  id := template.structId
  entry := template.struct
  isEntry := template.isStructEntry
  isFree := template.isFree
  areDistinct := template.takesParameters ▸ template.parameters_nodup
  areUnrestricted := by
    rw [template.takesParameters]
    exact fun parameter isMember => (template.arePlain parameter isMember).isUnrestricted

theorem names_openTemplate : template.unrestricted.Names template.openTemplate := by
  have areParameters :
      template.openTemplate.bindings.parameters = template.struct.templateParameters := by
    change (template.parameters.map Slot.empty).map Slot.parameter = _
    rw [map_map, template.takesParameters]
    exact map_id _
  exact ⟨⟨_, rfl, rfl, rfl⟩, areParameters ▸ template.unrestricted.areDistinct,
    fun parameter isMember => areParameters ▸ isMember⟩

theorem bound?_openTemplate (isComplete : types.length = template.parameters.length) :
    template.unrestricted.bound? template.openTemplate (types.map .type) =
      some (template.instanceWith types) := by
  have isDistributed :
      distributed? program.tree template.parameters (types.map .type)
          (.ofOpen template.parameters) =
        some (.ofTypes template.parameters types, []) :=
    distributed?_ofTypes [] template.arePlain template.parameters_nodup
      (fun _ _ => not_mem_nil) isComplete
  have isOpened :
      template.unrestricted.opened template.openTemplate = .ofOpen template.parameters := by
    change template.struct.templateParameters.foldl _
      (template.struct.templateParameters.foldl _ (ofOpen template.parameters)) = _
    rw [template.takesParameters, foldl_eq_self fun parameter isMember => declare_ofOpen isMember,
      foldl_eq_self fun parameter isMember => clear_ofOpen isMember]
  rw [UnrestrictedTemplate.bound?, isOpened]
  change (distributed? _ template.struct.templateParameters _ _).bind _ = _
  rw [template.takesParameters, isDistributed]
  exact if_pos (allSatisfied_ofTypes _ _)

theorem yields_instantiate (isRunning : state.isCancelled = false)
    (isComplete : types.length = template.parameters.length) :
    Yields program evaluator state
      (instantiate [template.openTemplate] (types.map .type) false)
      [template.instanceWith types] := by
  have areGiven : types.map Argument.type ≠ [] := by
    rw [← length_pos_iff, length_map, isComplete]
    exact length_pos_iff.mpr template.isTemplate
  have yields : Yields program evaluator state _ _ :=
    template.unrestricted.yields_instantiate template.names_openTemplate areGiven isRunning
  rw [template.bound?_openTemplate isComplete] at yields
  exact yields

theorem yields_resolveArguments (isRunning : state.isCancelled = false)
    (denotes : ∀ argument ∈ arguments, argument.Denotes TypeExpr.noMeaning (denote argument)) :
    Yields program evaluator state
      (resolveArguments (arguments.map .type))
      ((arguments.map denote).map .type) := by
  induction arguments with
  | nil => exact .pure []
  | cons argument rest ih =>
    have denotesFirst := denotes argument mem_cons_self
    have resolvesRest := ih (forall_mem_cons.mp denotes).2
    have resolves :
        Yields program evaluator state (resolveArgument (.type argument))
          (.type (denote argument)) := by
      apply Yields.bind (denotesFirst.yields_of_noMeaning isRunning)
      simp only [denotesFirst.isNoDeclaration.1]
      exact .pure _
    unfold resolveArguments at resolvesRest ⊢
    rw [map_cons, mapM_cons]
    exact .bind resolves (.bind resolvesRest (.pure _))

theorem yields_ofInstance
    (evaluator : Evaluator) (isComplete : arguments.length = template.parameters.length)
    (denotes : ∀ argument ∈ arguments, argument.Denotes TypeExpr.noMeaning (denote argument)) :
    Yields program evaluator template.start
      (Query.resolve (.instantiated template.struct.name (arguments.map .type)))
      [template.instanceWith (arguments.map denote)] := by
  apply Yields.ask
  apply Yields.bind (.ofReads .isCancelled)
  apply Yields.bind template.yields_candidates
  apply Yields.bind (yields_resolveArguments rfl denotes)
  apply Yields.bind (template.yields_instantiate rfl (by simpa using isComplete))
  exact .bind (.ofReads fun _ _ => rfl) (.pure _)

/-- The state in which the field of an instance is read. -/
def inField (types : List Symbol) : State :=
  template.start.reading program.tree template.fieldId (.ofTypes template.parameters types)

theorem scope_inField (types : List Symbol) :
    (template.inField types).stack.top.scope = template.structId := by
  obtain ⟨initializer, isKind⟩ := template.isField
  simp [inField, State.reading, State.push, Stack.push, Frame.ofDeclaration, Tree.scopeOf,
    template.isFieldEntry, Node.isBlock, isKind, template.isInside]

/-- What the name of a parameter means inside an instance. -/
def meaningIn (types : List Symbol) (name : String) (symbol : Symbol) : Prop :=
  ∃ parameter type,
    (parameter, type) ∈ template.parameters.zip types ∧
      program.tree.nameOf parameter = name ∧ symbol = .parameter (.ofType parameter type)

theorem binding?_inField
    (isPair : (parameter, type) ∈ template.parameters.zip types) (id : NodeId) :
    ((template.inField types).reading program.tree id .none).stack.binding? parameter =
      some (.ofType parameter type) := by
  have isBound := get?_ofTypes template.parameters_nodup isPair
  have isUnbound : Bindings.none.get? parameter = none := rfl
  simp [inField, State.reading, State.push, Stack.push, Stack.binding?, Stack.frames,
    Frame.ofDeclaration, isUnbound, isBound, Binding.isBound, Binding.ofType]

theorem yields_parameter (isPair : (parameter, type) ∈ template.parameters.zip types)
    (isNoParameter : type.parameter? = none) :
    Yields program evaluator (template.inField types) (Query.symbolOf parameter .none)
      (some (.parameter (.ofType parameter type))) := by
  obtain ⟨entry, isEntry, isKind, -⟩ := template.arePlain parameter (of_mem_zip isPair).1
  have isPositive : (template.inField types).guard.IsPositive :=
    template.isPositive_start.enter template.fieldId
  have isNotSelf : (Binding.ofType parameter type).isSelf = false := by
    simp [Binding.isSelf, Binding.ofType, isNoParameter]
  have isBound := template.binding?_inField isPair parameter
  apply yields_symbolOf rfl isPositive isEntry
  unfold visit
  rw [isKind]
  exact .bind (.ofReads (reads_ofParameter isBound isNotSelf)) (.pure _)

theorem yields_name (areNoParameters : ∀ type ∈ types, type.parameter? = none)
    (isMeaning : template.meaningIn types name symbol) :
    Yields program evaluator (template.inField types) (Resolution.ofName name) [symbol] := by
  obtain ⟨parameter, type, isPair, rfl, rfl⟩ := isMeaning
  obtain ⟨isMember, isType⟩ := of_mem_zip isPair
  obtain ⟨isMixin, bases, isKind⟩ := template.isStruct
  have isNoMethod : template.struct.isMethod = false := by simp [Node.isMethod, isKind]
  have isScope :
      program.tree.node? (template.inField types).stack.top.scope = some template.struct := by
    rw [template.scope_inField]
    exact template.isStructEntry
  have isVisible :
      Yields program evaluator (template.inField types)
        (Lookup.visible (program.tree.nameOf parameter) .all) [⟨parameter, none⟩] :=
    .ofReads
      (Lookup.reads_visible rfl isScope isNoMethod (template.findsParameter isMember) (by simp))
  have isInert : (Symbol.parameter (.ofType parameter type)).IsInert program := by
    obtain ⟨entry, isEntry, -, isPlain⟩ := template.arePlain parameter isMember
    exact Symbol.isInert_of_definition? isEntry isPlain rfl rfl (by rintro _ ⟨⟩)
  apply Resolution.yields_ofName rfl rfl (by simp)
  exact Resolution.yields_searchName_of_visible rfl isVisible isInert
    (template.yields_parameter isPair (areNoParameters type isType))

theorem isLength_of_meaningIn (isMeaning : template.meaningIn types name symbol) :
    Resolution.isLength program.tree symbol = false := by
  obtain ⟨parameter, type, isPair, -, rfl⟩ := isMeaning
  have isKind := (template.arePlain parameter (of_mem_zip isPair).1).isKind
  simp [Resolution.isLength, Symbol.parameter, Symbol.declared, Symbol.withOrigin,
    Symbol.ofShape, Binding.ofType, isKind]

theorem yields_field
    (evaluator : Evaluator) (areNoParameters : ∀ type ∈ types, type.parameter? = none)
    (denotes : template.type.Denotes (template.meaningIn types) base) :
    ∃ bindings,
      Yields program evaluator template.start
        (Query.symbolOf template.fieldId (.ofTypes template.parameters types))
        (some (.member template.fieldId (some base) bindings)) := by
  obtain ⟨initializer, isKind⟩ := template.isField
  have resolves :
      Yields program evaluator (template.inField types) (Query.resolve template.type) [base] :=
    denotes.yields rfl (fun _ _ isMeaning => template.isLength_of_meaningIn isMeaning)
      fun _ _ isMeaning => template.yields_name areNoParameters isMeaning
  refine ⟨attached program.tree template.start.stack template.fieldId template.field
    (.ofTypes template.parameters types), ?_⟩
  -- The field is entered for the first time, so its type is within the depth that is resolved.
  apply yields_symbolOf rfl template.isPositive_start template.isFieldEntry
  rw [Guard.depth_enter_self]
  unfold visit
  rw [isKind]
  exact .bind (.bind resolves (.pure _)) (.pure _)

/-- Member access on an instance gives the field, marked with the instance. -/
theorem yields_memberAccess (isComplete : types.length = template.parameters.length)
    (yields :
      Yields program evaluator template.start
        (Query.symbolOf template.fieldId (.ofTypes template.parameters types))
        (some (.member template.fieldId (some base) bindings))) :
    Yields program evaluator template.start
      (MemberAccess.symbols (template.instanceWith types) template.field.name none true)
      [(Symbol.member template.fieldId (some base) bindings).withTag
        (.receiver (template.instanceWith types))] := by
  let owner := template.instanceWith types
  let found := (Symbol.member template.fieldId (some base) bindings).withTag (.receiver owner)
  have isBound : (ofTypes template.parameters types).isEmpty = false := by
    rw [Bindings.isEmpty, isEmpty_eq_false_iff, ← length_pos_iff, ofTypes,
      length_zipWith, isComplete, Nat.min_self]
    exact length_pos_iff.mpr template.isTemplate
  have searches :
      Yields program evaluator template.start
        (Lookup.members owner template.field.name .all) [⟨template.fieldId, some owner⟩] := by
    refine .ofReads (Lookup.reads_members template.isModuleEntry rfl template.isStructEntry ?_
      (by simp))
    rw [isBound]
    exact template.findsField _
  have resolves :
      Yields program evaluator template.start
        (Query.symbolsOf [⟨template.fieldId, some owner⟩])
        [.member template.fieldId (some base) bindings] :=
    Query.settles_symbolsOf_singleton rfl rfl yields
  have declares :
      Yields program evaluator template.start
        (MemberAccess.declared owner owner template.field.name) [found] :=
    .bind searches (.bind resolves (.pure _))
  have isInert : found.IsInert program :=
    Symbol.isInert_of_definition? template.isFieldEntry template.isPlainField rfl rfl
      (by rintro _ ⟨⟩)
  exact MemberAccess.settles_symbols rfl rfl (.bind declares (.pure _))
    (yields_instantiate_of_isInert rfl (forall_mem_singleton.mpr isInert))

theorem exists_meaningIn (isComplete : types.length = template.parameters.length) :
    ∀ name ∈ template.names, ∃ symbol, template.meaningIn types name symbol := by
  intro name isName
  obtain ⟨parameter, isMember, rfl⟩ := mem_map.mp isName
  obtain ⟨place, isPlace, rfl⟩ := getElem_of_mem isMember
  have isInside : place < (template.parameters.zip types).length := by
    rw [length_zip]
    omega
  have isPair := getElem_mem isInside
  rw [getElem_zip] at isPair
  exact ⟨_, _, _, isPair, rfl, rfl⟩

theorem replacement_denotes
    (denotes : ∀ argument ∈ arguments, argument.Denotes TypeExpr.noMeaning (denote argument))
    (isMeaning : template.meaningIn (arguments.map denote) name symbol) :
    (TypeExpr.replacement template.names arguments name).Denotes TypeExpr.noMeaning
      symbol.expanded := by
  obtain ⟨parameter, type, isPair, rfl, rfl⟩ := isMeaning
  rw [zip_map_right, mem_map] at isPair
  obtain ⟨⟨_, argument⟩, isWritten, isEqual⟩ := isPair
  simp only [Prod.map_apply, id_eq] at isEqual
  obtain ⟨rfl, rfl⟩ := isEqual
  have denotesArgument := denotes argument (of_mem_zip isWritten).2
  rw [names, TypeExpr.replacement_eq template.areDistinct isWritten]
  exact denotesArgument.expanded_eq.symm ▸ denotesArgument

end FieldTemplate

/--
Instantiation is substitution: a field of a struct template that is given its
arguments is one member, and its base with the parameters expanded is what its
declared type stands for with the arguments written in the place of the names.
-/
theorem instantiation_is_substitution
    (program : Program)
    (evaluator : Evaluator)
    (template : FieldTemplate program)
    (arguments : List TypeExpr)
    (isComplete : arguments.length = template.parameters.length)
    (areClosed : ∀ argument ∈ arguments, argument.IsBuiltFrom []) :
    ∃ member base,
      Engine.Settles program evaluator
          (Operation.resolveType
            (.member (.instantiated template.struct.name (arguments.map .type))
              template.field.name)).query
          (.start template.moduleId none) [member] (.start template.moduleId none) ∧
        member.isMember = true ∧
          member.definition? = some template.fieldId ∧
          member.base? = some base ∧
            Engine.Settles program evaluator
              (Operation.resolveType
                (template.type.substitute (.replacement template.names arguments))).query
              (.start template.moduleId none) [base.expanded]
              (.start template.moduleId none) := by
  have areDenoting :
      ∀ argument, ∃ symbol, argument ∈ arguments → argument.Denotes TypeExpr.noMeaning symbol := by
    intro argument
    by_cases isMember : argument ∈ arguments
    · obtain ⟨symbol, denotes⟩ := (areClosed argument isMember).denotes nofun
      exact ⟨symbol, fun _ => denotes⟩
    · exact ⟨.primitive .void, fun isMember' => absurd isMember' isMember⟩
  obtain ⟨denote, denotes⟩ := Classical.skolem.mp areDenoting
  have isCompleteList : (arguments.map denote).length = template.parameters.length := by
    rw [length_map, isComplete]
  have areNoParameters : ∀ type ∈ arguments.map denote, type.parameter? = none := by
    intro type isType
    obtain ⟨argument, isMember, rfl⟩ := mem_map.mp isType
    exact (denotes argument isMember).isNoDeclaration.2
  obtain ⟨base, denotesBase⟩ := template.isBuilt.denotes (template.exists_meaningIn isCompleteList)
  obtain ⟨bindings, yieldsField⟩ := template.yields_field evaluator areNoParameters denotesBase
  have yieldsMember := template.yields_memberAccess isCompleteList yieldsField
  have yieldsInstance := template.yields_ofInstance evaluator isComplete denotes
  refine ⟨(Symbol.member template.fieldId (some base) bindings).withTag
    (.receiver (template.instanceWith (arguments.map denote))), base, ?_, rfl, rfl, rfl, ?_⟩
  · apply Engine.Yields.ask
    apply Engine.Yields.bind (.ofReads .isCancelled)
    apply Engine.Yields.bind yieldsInstance
    exact .bind (.mapM_singleton yieldsMember) (.pure _)
  · have denotesWritten :=
      denotesBase.substitute fun _ _ isMeaning => template.replacement_denotes denotes isMeaning
    exact denotesWritten.yields_of_noMeaning rfl

/-- A template `Table(K, V)` with a field of type `const(V)*[K]`. -/
def Program.tables : Program :=
  let drafting : Drafting Unit := do
    let module ← Draft.addModule "m"
    let struct ← Draft.addMember module "Table" (.aggregate .structType false [])
    discard <| Draft.addTemplateParameter struct "K" (.type none none)
    discard <| Draft.addTemplateParameter struct "V" (.type none none)
    discard <| Draft.addMember struct "entries"
      (.var (some (.keyedArray (.pointer (.modified .const (.named "V"))) (.named "K"))) none)
  .ofTree (drafting.run {}).2.tree

theorem Program.tables_arePlain : ∀ parameter ∈ [⟨2⟩, ⟨3⟩], IsPlainParameter .tables parameter := by
  rw [forall_mem_cons, forall_mem_singleton]
  exact ⟨⟨_, rfl, rfl, rfl, rfl⟩, ⟨_, rfl, rfl, rfl, rfl⟩⟩

def FieldTemplate.table : FieldTemplate .tables where
  moduleId := ⟨0⟩
  structId := ⟨1⟩
  parameters := [⟨2⟩, ⟨3⟩]
  fieldId := ⟨4⟩
  type := .keyedArray (.pointer (.modified .const (.named "V"))) (.named "K")
  module := (Program.tables.tree.node? ⟨0⟩).get (by decide +kernel)
  struct := (Program.tables.tree.node? ⟨1⟩).get (by decide +kernel)
  field := (Program.tables.tree.node? ⟨4⟩).get (by decide +kernel)
  isModuleEntry := (Option.some_get _).symm
  isStructEntry := (Option.some_get _).symm
  isFieldEntry := (Option.some_get _).symm
  isModule := rfl
  isRoot := rfl
  holdsStruct := rfl
  isNoTemplate := rfl
  isStruct := ⟨false, [], rfl⟩
  holdsField := rfl
  takesParameters := rfl
  isFree := rfl
  isField := ⟨none, rfl⟩
  isInside := rfl
  isPublic := rfl
  isPlainField := ⟨rfl, rfl⟩
  isTemplate := nofun
  arePlain := Program.tables_arePlain
  areDistinct := by decide +kernel
  isOther := by decide +kernel
  isBuilt :=
    .keyedArray (.pointer (.modified (.named (by decide +kernel)))) (.named (by decide +kernel))

/-- The field of `Table!(char[], immutable(int))` has the type `const(immutable(int))*[char[]]`. -/
theorem table_instantiation_is_substitution :
    ∃ member base,
      Engine.Settles .tables .standard
          (Operation.resolveType
            (.member
              (.instantiated "Table"
                [.type (.dynamicArray (.basic .char)), .type (.modified .immutable (.basic .int))])
              "entries")).query
          (.start ⟨0⟩ none) [member] (.start ⟨0⟩ none) ∧
        member.isMember = true ∧
          member.definition? = some ⟨4⟩ ∧
          member.base? = some base ∧
            Engine.Settles .tables .standard
              (Operation.resolveType
                (.keyedArray (.pointer (.modified .const (.modified .immutable (.basic .int))))
                  (.dynamicArray (.basic .char)))).query
              (.start ⟨0⟩ none) [base.expanded] (.start ⟨0⟩ none) := by
  have areClosed :
      ∀ argument ∈ [TypeExpr.dynamicArray (.basic .char), .modified .immutable (.basic .int)],
        argument.IsBuiltFrom [] := by
    rw [forall_mem_cons, forall_mem_singleton]
    exact ⟨.dynamicArray (.basic .char), .modified (.basic .int)⟩
  exact instantiation_is_substitution .tables .standard .table _ rfl areClosed

/-- A template `S(T)` with a field of type `T` that has a constraint of its own. -/
def Program.constrainedField : Program :=
  let drafting : Drafting Unit := do
    let module ← Draft.addModule "m"
    let struct ← Draft.addMember module "S" (.aggregate .structType false [])
    discard <| Draft.addTemplateParameter struct "T" (.type none none)
    let field ← Draft.addMember struct "f" (.var (some (.named "T")) none)
    Draft.setConstraint field (.literal (.bool false))
  .ofTree (drafting.run {}).2.tree

/-- A field whose constraint fails is no member of an instance. -/
theorem constrained_field_is_no_member :
    ∃ final,
      Engine.Settles .constrainedField .standard
        (Operation.resolveType (.member (.instantiated "S" [.type (.basic .int)]) "f")).query
        (.start ⟨0⟩ none) [] final :=
  Operation.exists_final 9 isEmpty isEmpty_iff.mp (by decide +kernel)

end DScope
