import DScope.Proofs.Constants
import DScope.Proofs.Drafting
import DScope.Proofs.Instantiation
import DScope.Proofs.Memo

namespace DScope

/-!
# Values of enumerators

A module that holds an enumeration and nothing else. An enumerator counts on from the
last one before it whose value is written, in the type that is written there, or from
zero if there is none. Other declarations between the enumerators do not count.
-/

open List Query DeclaredSymbol Constant
open Constant (FoldsTo)

variable {place : Nat} {program : Program} {evaluator : Evaluator} {id : NodeId}
open Engine (Settles Yields)
open Query (Reads)

/-! ## Counting -/

def Node.isEnumerator (node : Node) : Bool :=
  match node.kind with
  | .enumerator _ => true
  | _ => false

section Counting

variable (written? : Nat → Option (Int × BasicType))

variable {written?}

end Counting

namespace Tree

/-- The enumerators among declarations. -/
def enumerators (tree : Tree) (ids : List NodeId) : List NodeId :=
  ids.filter fun id => (tree.node? id).any (·.isEnumerator)

def initializer? (tree : Tree) (id : NodeId) : Option Expr :=
  (tree.node? id).bind (·.initializer?)

end Tree

namespace Constant

variable {state : State} {written? : Nat → Option (Int × BasicType)}

end Constant

/-! ## A module that holds an enumeration -/

theorem Scan.member_of_ne {scan : Scan} {name : String} {via : Option Symbol}
    (isName : scan.name = some name) (isOther : program.tree.nameOf id ≠ name) :
    scan.member program .external via id = scan := by
  have isPassed : scan.take program.tree ⟨id, via⟩ = scan := consider_of_ne isName isOther
  rw [member_eq]
  unfold memberOffers
  split
  · rfl
  · split
    · rfl
    · split
      · exact isPassed
      · rfl

/-- The number and the type of an integer literal. -/
def Expr.integer? : Expr → Option (Int × BasicType)
  | .literal (.integer number basic) => some (number, basic)
  | _ => none

/-- An enumerator of an enumeration whose value, if it is written, is an integer literal. -/
structure Node.IsCounted (enumeration : NodeId) (node : Node) : Prop where
  isInside : node.parent = some enumeration
  isLiteral : ∀ value ∈ node.initializer?, ∃ number type, value = .literal (.integer number type)

/-- A module that holds an enumeration and nothing else. -/
structure EnumerationModule (program : Program) where
  moduleId : NodeId
  enumId : NodeId
  module : Node
  enum : Node
  isModuleEntry : program.tree.node? moduleId = some module
  isModule : module.kind = .module
  isNoTemplate : module.templateParameters = []
  holdsEnum : module.children = [enumId]
  isEntry : program.tree.node? enumId = some enum
  isEnum : ∃ base, enum.kind = .enumeration base
  areMembers :
    ∀ id ∈ enum.children, ∃ entry,
      program.tree.node? id = some entry ∧
        program.tree.rootOf id = program.tree.rootOf moduleId ∧
        (entry.isEnumerator = true → entry.IsCounted enumId)
  haveDistinctNames : (enum.children.map program.tree.nameOf).Nodup

namespace EnumerationModule

variable {state : State} {base : Option Symbol}

section

variable (enumeration : EnumerationModule program)

/-- The enumerators of the module, in order. -/
def members : List NodeId :=
  program.tree.enumerators enumeration.enum.children

/-- What is known of an enumerator of the module. -/
structure Holds (id : NodeId) (entry : Node) : Prop where
  isMember : id ∈ enumeration.enum.children
  isEntry : program.tree.node? id = some entry
  isHome : program.tree.rootOf id = program.tree.rootOf enumeration.moduleId
  isKind : ∃ initializer, entry.kind = .enumerator initializer
  isCounted : entry.IsCounted enumeration.enumId

def symbol (base : Option Symbol) : Symbol :=
  .declared enumeration.enumId (.enumeration enumeration.enumId base)

/-- A query of the module that is in the middle of nothing, whatever it has logged by then. -/
def Stands (state : State) : Prop :=
  (State.start enumeration.moduleId none).Balances .standard state

/--
What the value of an enumerator takes besides the values written before it.

The enumerator is not a template and has no constraint, the constraint of the enumeration
holds, and the type below the enumeration can be resolved wherever it is asked for: while
the enumeration or the enumerator is being read.
-/
structure Admits (id : NodeId) : Prop where
  isPlain :
    ∀ entry, program.tree.node? id = some entry →
      entry.templateParameters = [] ∧ entry.constraint = none
  meetsConstraint :
    ∀ state, enumeration.Stands state →
      ∃ final,
        Settles program .standard (Template.meetsConstraint (enumeration.symbol none)) state true
          final
  resolvesBase :
    ∀ type, enumeration.enum.kind = .enumeration (some type) →
      ∀ state, enumeration.Stands state →
      ∀ inner ∈
        [ state.reading program.tree enumeration.enumId .none,
          state.reading program.tree id .none,
          (state.reading program.tree id .none).reading program.tree enumeration.enumId .none ],
        ∃ found final, Settles program .standard (resolve type) inner found final

end

variable {enumeration : EnumerationModule program} {entry : Node}

theorem stands_start (enumeration : EnumerationModule program) :
    enumeration.Stands (.start enumeration.moduleId none) :=
  .refl _ _

section

variable (stands : enumeration.Stands state)
include stands

theorem Stands.isRunning : state.isCancelled = false := by
  have isCancelled := stands.cancellation
  simpa [State.start, Evaluator.CancelsBetween] using isCancelled

theorem Stands.isScope : state.stack.top.scope = enumeration.moduleId := by
  rw [stands.stack]
  rfl

theorem Stands.isPositive : state.guard.IsPositive :=
  stands.guard ▸ nofun

theorem Stands.isShallow : state.guard.IsShallow :=
  stands.guard ▸ fun _ => Nat.zero_le _

theorem Stands.hasNoBindings : ∀ frame ∈ state.stack.frames, frame.bindings = .none := by
  rw [stands.stack]
  rintro frame isFrame
  cases mem_singleton.mp isFrame
  rfl

theorem Stands.later {question : Question} {answer : question.Answer} {final : State}
    (settles : Settles program .standard (ask question) state answer final) :
    enumeration.Stands final := by
  obtain ⟨limit, returned⟩ := settles.returns
  exact stands.trans
    (Engine.answer_isBalanced program .standard limit question stands.isPositive returned)

theorem Stands.isVisible :
    Yields program .standard state (Lookup.visible enumeration.enum.name .all)
      [⟨enumeration.enumId, none⟩] := by
  obtain ⟨base, isKind⟩ := enumeration.isEnum
  have isScope : program.tree.node? state.stack.top.scope = some enumeration.module :=
    stands.isScope ▸ enumeration.isModuleEntry
  exact .ofReads (Lookup.reads_visible_only stands.isRunning isScope enumeration.isModule
    enumeration.isNoTemplate enumeration.holdsEnum enumeration.isEntry
    (by rw [Node.isOrdinary, isKind]))

end

/-- The type below the enumeration is found without being remembered. -/
theorem exists_base {inner : State}
    (resolves :
      ∀ type, enumeration.enum.kind = .enumeration (some type) →
        ∃ found final, Settles program .standard (resolve type) inner found final)
    (isPositive : inner.guard.IsPositive) (isBusy : inner.guard.isIdle = false) :
    ∃ base final,
      Settles program .standard (enumerationBase enumeration.enumId) inner base final ∧
        final.memo = inner.memo := by
  obtain ⟨base, isKind⟩ := enumeration.isEnum
  cases base with
  | none =>
    refine ⟨some (.primitive .int), inner, .bind (.ofReads (.node enumeration.isEntry)) ?_, rfl⟩
    rw [isKind]
    exact .pure _
  | some type =>
    obtain ⟨found, final, settles⟩ := resolves type isKind
    refine ⟨Symbol.ofCandidates? found, final, .bind (.ofReads (.node enumeration.isEntry)) ?_,
      settles.memo_eq isPositive isBusy⟩
    rw [isKind]
    exact settles.bind (.pure _)

/-- The enumeration stands for its symbol, with the type below it if this is asked for. -/
theorem exists_symbol (isRunning : state.isCancelled = false) (isPositive : state.guard.IsPositive)
    (resolves :
      ∀ type, enumeration.enum.kind = .enumeration (some type) →
        ∃ found final,
          Settles program .standard (resolve type)
            (state.reading program.tree enumeration.enumId .none) found final) :
    ∃ base final,
      Settles program .standard (symbolOf enumeration.enumId .none) state
          (some (enumeration.symbol base)) final ∧
        final.memo = state.memo := by
  obtain ⟨written, isKind⟩ := enumeration.isEnum
  obtain ⟨base, later, settles, isKept⟩ :=
    exists_base resolves (isPositive.enter _) (Guard.isIdle_enter _ _)
  have visits (reach : Reach) (bindings : Bindings) :
      ∃ base later,
        Settles program .standard (visit enumeration.enumId enumeration.enum reach bindings)
            (state.reading program.tree enumeration.enumId .none)
            (some (enumeration.symbol base)) later ∧
          later.memo = state.memo := by
    rw [visit, isKind]
    dsimp only
    split
    · exact ⟨base, later, settles.bind (.pure _), isKept⟩
    · exact ⟨none, _, .bind (.pure none) (.pure _), rfl⟩
  obtain ⟨base, later, visits, isKept⟩ := visits _ _
  exact ⟨base, _, settles_symbolOf isRunning enumeration.isEntry visits, isKept⟩

section

variable (stands : enumeration.Stands state) (admits : enumeration.Admits id)
include stands admits

/-- In the module, the enumeration stands for its symbol. -/
theorem Stands.exists_symbol :
    ∃ base final,
      Settles program .standard (symbolsOf [⟨enumeration.enumId, none⟩]) state
          [enumeration.symbol base] final ∧
        enumeration.Stands final ∧ final.memo = state.memo := by
  obtain ⟨base, final, settles, isKept⟩ :=
    EnumerationModule.exists_symbol stands.isRunning stands.isPositive fun type isKind =>
      admits.resolvesBase type isKind state stands _ mem_cons_self
  exact ⟨base, final, settles_symbolsOf_singleton stands.isRunning rfl settles,
    stands.later settles, isKept⟩

end

section

variable (stands : enumeration.Stands state) (holds : enumeration.Holds id entry)
include stands holds

theorem Stands.exists_enumerator (admits : enumeration.Admits id) :
    ∃ base final,
      Settles program .standard (symbolOf id .none) state (some (.member id base .none)) final := by
  obtain ⟨initializer, isKind⟩ := holds.isKind
  have isRunning : (state.reading program.tree id .none).isCancelled = false := stands.isRunning
  have isPositive : (state.reading program.tree id .none).guard.IsPositive :=
    stands.isPositive.enter id
  obtain ⟨base, later, settles⟩ :
      ∃ base later,
        Settles program .standard (enumeratorType entry.parent)
          (state.reading program.tree id .none) base later := by
    have reads :
        Reads program (state.reading program.tree id .none) (node enumeration.enumId)
          enumeration.enum :=
      .node enumeration.isEntry
    rw [holds.isCounted.isInside]
    by_cases isNameless : enumeration.enum.name.isEmpty = true
    · obtain ⟨base, later, settles, -⟩ :=
        exists_base
          (fun type isKind => admits.resolvesBase type isKind state stands _
            (mem_cons_of_mem _ mem_cons_self))
          isPositive (Guard.isIdle_enter _ _)
      refine ⟨base, later, .bind (.ofReads reads) ?_⟩
      rwa [if_pos isNameless]
    · obtain ⟨base, later, settles, -⟩ :=
        EnumerationModule.exists_symbol isRunning isPositive fun type isKind =>
          admits.resolvesBase type isKind state stands _
            (mem_cons_of_mem _ (mem_cons_of_mem _ mem_cons_self))
      refine ⟨some (enumeration.symbol base), later, .bind (.ofReads reads) ?_⟩
      rwa [if_neg isNameless]
  have isAttached : attached program.tree state.stack id entry .none = .none :=
    attached_eq_none stands.hasNoBindings (admits.isPlain entry holds.isEntry).1
  have visits (reach : Reach) :
      ∃ base later,
        Settles program .standard
          (visit id entry reach (attached program.tree state.stack id entry .none))
          (state.reading program.tree id .none) (some (.member id base .none)) later := by
    rw [isAttached, visit, isKind]
    dsimp only
    split
    · exact ⟨base, later, settles.bind (.pure _)⟩
    · exact ⟨none, _, .bind (.pure none) (.pure _)⟩
  obtain ⟨base, later, visits⟩ := visits _
  exact ⟨base, _, settles_symbolOf stands.isRunning holds.isEntry visits⟩

theorem Stands.reads_members (base : Option Symbol) :
    Reads program state
      (Lookup.members (enumeration.symbol base) (program.tree.nameOf id) .all) [⟨id, none⟩] := by
  obtain ⟨initializer, isKind⟩ := holds.isKind
  have isScope : program.tree.node? state.stack.top.scope = some enumeration.module :=
    stands.isScope ▸ enumeration.isModuleEntry
  let scan : Scan :=
    { name := some (program.tree.nameOf id)
      filter := .all
      home := program.tree.rootOf state.stack.top.scope }
  have isOpen : scan.mayAccess program .external id entry = true := by
    have isSame : (program.tree.rootOf id == scan.home) = true := by
      rw [beq_iff_eq, holds.isHome, ← stands.isScope]
    unfold Scan.mayAccess
    cases entry.visibility <;> simp [isSame]
  have isWanted : scan.wants entry = true := by
    simp [scan, Scan.wants, Tree.nameOf, holds.isEntry, Filter.accepts, isKind, Filter.all]
  have meets : scan.member program .external none id = { scan with found := [⟨id, none⟩] } := by
    simp [Scan.member, holds.isEntry, isKind, isWanted, isOpen, Scan.add, scan]
  have finds :
      scan.members program .external none enumeration.enum = { scan with found := [⟨id, none⟩] } :=
    Scan.foldl_eq_of_meets holds.isMember enumeration.haveDistinctNames
      (fun _ _ isOther => Scan.member_of_ne rfl isOther) meets
  have scans :
      Reads program state (Lookup.scanMembers .external none enumeration.enumId scan)
        { scan with found := [⟨id, none⟩] } :=
    Lookup.reads_scanMembers enumeration.isEntry finds
  exact .bind (Lookup.reads_start isScope) (.bind scans (.pure _))

theorem Stands.exists_candidate (admits : enumeration.Admits id) (base : Option Symbol) :
    ∃ type final,
      Settles program .standard
        (MemberAccess.symbols (enumeration.symbol base) (program.tree.nameOf id) none true) state
        [.member id type .none] final := by
  obtain ⟨type, final, settles⟩ := stands.exists_enumerator holds admits
  have isInert : (Symbol.member id type .none).IsInert program :=
    Symbol.isInert_of_definition? holds.isEntry (admits.isPlain entry holds.isEntry) rfl rfl nofun
  have declares :
      Settles program .standard
        (MemberAccess.declared (enumeration.symbol base) (enumeration.symbol base)
          (program.tree.nameOf id))
        state [.member id type .none] final :=
    .bind (.ofReads (stands.reads_members holds base))
      (.bind (settles_symbolsOf_singleton stands.isRunning rfl settles) (.pure _))
  exact ⟨type, final,
    MemberAccess.settles_symbols stands.isRunning rfl (declares.bind (.pure _))
      (Template.yields_instantiate_of_isInert (stands.later settles).isRunning
        (by simpa using isInert))⟩

end

end EnumerationModule

/-- An enumeration with a base type and a constraint, with a variable between its enumerators. -/
def Draft.counting : List Step :=
  [ .module "m",
    .member ⟨0⟩ "E" (.enumeration (some (.basic .ulong))),
    .member ⟨1⟩ "z" (.enumerator none),
    .member ⟨1⟩ "a" (.enumerator (some (.literal (.integer (-3) .long)))),
    .member ⟨1⟩ "q" (.var (some (.basic .int)) none),
    .member ⟨1⟩ "b" (.enumerator none),
    .visibility ⟨5⟩ .privateAccess,
    .constraint ⟨1⟩ (.literal (.bool true)) ]

theorem Draft.counting_areMembers (id : NodeId) (isMember : id ∈ [⟨2⟩, ⟨3⟩, ⟨4⟩, ⟨5⟩]) :
    ∃ entry,
      (Program.ofTree (.ofSteps counting)).tree.node? id = some entry ∧
        (Program.ofTree (.ofSteps counting)).tree.rootOf id =
            (Program.ofTree (.ofSteps counting)).tree.rootOf ⟨0⟩ ∧
        (entry.isEnumerator = true → entry.IsCounted ⟨1⟩) := by
  simp only [mem_cons, not_mem_nil, or_false] at isMember
  rcases isMember with rfl | rfl | rfl | rfl
  · exact ⟨_, rfl, by decide +kernel, fun _ => ⟨rfl, fun _ isValue => by cases isValue⟩⟩
  · refine ⟨_, rfl, by decide +kernel, fun _ => ⟨rfl, ?_⟩⟩
    rintro value ⟨⟩
    exact ⟨_, _, rfl⟩
  · exact ⟨_, rfl, by decide +kernel, fun isEnumerator => by cases isEnumerator⟩
  · exact ⟨_, rfl, by decide +kernel, fun _ => ⟨rfl, fun _ isValue => by cases isValue⟩⟩

def EnumerationModule.counting : EnumerationModule (.ofTree (.ofSteps Draft.counting)) where
  moduleId := ⟨0⟩
  enumId := ⟨1⟩
  module := _
  enum := _
  isModuleEntry := rfl
  isModule := rfl
  isNoTemplate := rfl
  holdsEnum := rfl
  isEntry := rfl
  isEnum := ⟨_, rfl⟩
  areMembers := Draft.counting_areMembers
  haveDistinctNames := by
    change ["z", "a", "q", "b"].Nodup
    decide

end DScope
