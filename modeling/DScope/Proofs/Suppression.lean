import DScope.Proofs.Operation
import DScope.Proofs.Sieve.Run

namespace DScope

/-!
# Suppressed bases and aliases

Under the option not to look up base classes a query gives aggregates without
bases, and under the option to keep aliases nothing that was reached through one.
The option reaches every depth: frames opened on the way fall back on the default
options, so it has to be a default that no frame clears, and whatever is taken
from the memo has to be free of what is suppressed.
-/

/-- What an option can suppress. -/
inductive Suppression where
  | baseClasses
  | aliases
deriving Repr, DecidableEq

namespace Suppression

/-- Whether the option is among the given ones. -/
def isSet : Suppression → Options → Bool
  | baseClasses, options => options.skipBaseClasses
  | aliases, options => options.keepAliases

/--
Whether a symbol is free of what is suppressed, the symbols inside it left aside.

A tag of an alias may still name an import binding or a module under another name.
-/
def Frees (tree : Tree) : Suppression → Symbol → Prop
  | baseClasses, symbol =>
    ∀ aggregate, symbol.aggregate? = some aggregate →
      aggregate.baseClass = none ∧ aggregate.interfaces = []
  | aliases, symbol =>
    (∀ node ∈ symbol.aliasTags, ∀ entry, tree.node? node = some entry →
        entry.isAlias = false) ∧
      ∀ node target, symbol.shape = .aliased node target → target = none

/-- Whether a symbol is free of what is suppressed at every depth. -/
def Reaches (suppression : Suppression) (tree : Tree) (symbol : Symbol) : Prop :=
  ∀ part ∈ symbol.parts, suppression.Frees tree part

/-- Whether all that was remembered under the option is free of what is suppressed. -/
def ReachesMemo (suppression : Suppression) (tree : Tree) (state : State) : Prop :=
  ∀ entry ∈ state.memo, suppression.isSet entry.1.options = true →
    ∀ symbol ∈ entry.2, suppression.Reaches tree symbol

/-- The sieve that holds back what is suppressed. -/
def sieve (suppression : Suppression) (tree : Tree) : Sieve where
  node _ := True
  statement _ := True
  tag node :=
    suppression = aliases → ∀ entry, tree.node? node = some entry → entry.isAlias = false
  hasBases := suppression ≠ baseClasses
  hasTargets := suppression ≠ aliases
  options options := suppression.isSet options = true
  hasGaps := True

variable {suppression : Suppression} {tree : Tree}

theorem hasBases_eq_false_iff {symbol : Symbol} :
    symbol.shape.hasBases = false ↔
      ∀ aggregate, symbol.aggregate? = some aggregate →
        aggregate.baseClass = none ∧ aggregate.interfaces = [] := by
  obtain ⟨shape, origin, modifier, tags⟩ := symbol
  cases shape with
  | aggregate aggregate =>
    obtain ⟨kind, node, baseClass, interfaces, bindings⟩ := aggregate
    simp [Symbol.aggregate?]
  | _ => simp [Symbol.aggregate?]

theorem hasTarget_eq_false_iff {shape : Shape} :
    shape.hasTarget = false ↔ ∀ node target, shape = .aliased node target → target = none := by
  cases shape with
  | aliased node target => simp
  | _ => simp

theorem admits_iff_frees {part : Symbol} :
    (suppression.sieve tree).Admits part ↔ suppression.Frees tree part := by
  cases suppression with
  | baseClasses =>
    rw [Frees, ← hasBases_eq_false_iff]
    constructor
    · intro admits
      exact Bool.eq_false_iff.mpr fun hasBases => admits.bases hasBases rfl
    · intro isFree
      refine ⟨fun _ _ => trivial, ?_, ?_, ?_⟩
      · intro _ _ isAliases
        cases isAliases
      · intro hasBases
        exact absurd hasBases (Bool.eq_false_iff.mp isFree)
      · intro _ isAliases
        cases isAliases
  | aliases =>
    rw [Frees, ← hasTarget_eq_false_iff]
    constructor
    · intro admits
      exact ⟨fun node isTag => admits.tags node isTag rfl,
        Bool.eq_false_iff.mpr fun hasTarget => admits.targets hasTarget rfl⟩
    · rintro ⟨areFree, isFree⟩
      refine ⟨fun _ _ => trivial, fun node isTag _ => areFree node isTag, ?_, ?_⟩
      · intro _ isBases
        cases isBases
      · intro hasTarget
        exact absurd hasTarget (Bool.eq_false_iff.mp isFree)

theorem passes_iff_reaches {symbol : Symbol} :
    (suppression.sieve tree).Passes symbol ↔ suppression.Reaches tree symbol := by
  simp only [Sieve.Passes, Reaches, Composite.parts, Composite.loose, admits_iff_frees]
  simp

theorem passes_list_iff_reaches {symbols : List Symbol} :
    (suppression.sieve tree).Passes symbols ↔
      ∀ symbol ∈ symbols, suppression.Reaches tree symbol := by
  simp only [Sieve.passes_list, passes_iff_reaches]

theorem sieve_fits (suppression : Suppression) (program : Program) :
    (suppression.sieve program.tree).Fits program program where
  tree := Sieve.covers_self (fun _ => trivial) (fun _ => trivial) trivial program.tree
  modules := rfl
  root := rfl
  isModule _ := trivial
  bases := by
    rintro options areSet looksUp rfl
    exact Bool.false_ne_true (looksUp.symm.trans areSet)
  tag := by
    rintro id entry options - isEntry areSet isFollowed rfl found isFound
    obtain rfl : entry = found := Option.some.inj (isEntry.symm.trans isFound)
    refine Bool.eq_false_iff.mpr fun isAlias => ?_
    exact Bool.false_ne_true ((isFollowed isAlias).symm.trans areSet)
  union := by
    cases suppression <;> simp_all [sieve, isSet, Options.union, Options.zip]

/-- A state in which the option is set by default and nothing stands against it. -/
structure Governs (suppression : Suppression) (state : State) : Prop where
  isDefault : suppression.isSet state.defaults = true
  isNotCleared :
    ∀ frame ∈ state.stack.frames, suppression.isSet frame.overrides.disabled = false
  noSymbols : ∀ frame ∈ state.stack.frames, frame.bindings.parts = []

instance (suppression : Suppression) (state : State) : Decidable (suppression.Governs state) :=
  decidable_of_iff
    (suppression.isSet state.defaults = true ∧
      (∀ frame ∈ state.stack.frames, suppression.isSet frame.overrides.disabled = false) ∧
      ∀ frame ∈ state.stack.frames, frame.bindings.parts = [])
    ⟨fun ⟨isDefault, isNotCleared, noSymbols⟩ => ⟨isDefault, isNotCleared, noSymbols⟩,
      fun governs => ⟨governs.isDefault, governs.isNotCleared, governs.noSymbols⟩⟩

theorem Governs.holds {state : State} (governs : suppression.Governs state)
    (memo : suppression.ReachesMemo tree state) :
    (suppression.sieve tree).Holds state.log.length state where
  frames frame isFrame :=
    { scope := trivial
      statement := fun _ => trivial
      bindings := by
        simp [Sieve.Passes, Composite.parts, governs.noSymbols frame isFrame, sieve]
      options := by
        have isDefault := governs.isDefault
        have isNotCleared := governs.isNotCleared frame isFrame
        cases suppression <;>
          simp_all [sieve, isSet, Overrides.apply, Options.union, Options.difference, Options.zip] }
  defaults := governs.isDefault
  memo entry isEntry isUnder := passes_list_iff_reaches.mpr (memo entry isEntry isUnder)
  isKnown := Nat.le_refl _
  log := by simp

end Suppression

/--
What an option suppresses is missing at every depth.

Where the option is a default that no frame clears, where the frames bind no
symbols and where nothing remembered under the option has what it suppresses, the
symbols of a type, of a name and of an expression are free of it down to their
last parts, and so is what is remembered afterwards.
-/
theorem suppression_reaches_every_depth
    (suppression : Suppression)
    (program : Program)
    (evaluator : Evaluator)
    (limit : Nat)
    {state : State}
    (governs : suppression.Governs state)
    (memo : suppression.ReachesMemo program.tree state) :
    (∀ type symbols final,
        Engine.run program evaluator limit (Operation.resolveType type).query state =
            .ok (symbols, final) →
          (∀ symbol ∈ symbols, suppression.Reaches program.tree symbol) ∧
            suppression.ReachesMemo program.tree final) ∧
      (∀ name symbols final,
          Engine.run program evaluator limit (Operation.resolveIdentifier name).query state =
              .ok (symbols, final) →
            (∀ symbol ∈ symbols, suppression.Reaches program.tree symbol) ∧
              suppression.ReachesMemo program.tree final) ∧
      ∀ expression type final,
        Engine.run program evaluator limit (Operation.evaluateType expression).query state =
            .ok (type, final) →
          (∀ symbol ∈ type, suppression.Reaches program.tree symbol) ∧
            suppression.ReachesMemo program.tree final := by
  have holds := governs.holds memo
  let realm : Realm :=
    { suppression.sieve program.tree with
      narrow := program
      wide := program
      fits := suppression.sieve_fits program
      within := fun _ _ => True }
  have isPlain : Standing.plain ≠ .overridden := by decide
  have ofHolds {final : State}
      (isFinal : (suppression.sieve program.tree).Holds state.log.length final) :
      suppression.ReachesMemo program.tree final :=
    fun entry isEntry isUnder =>
      Suppression.passes_list_iff_reaches.mp (isFinal.memo entry isEntry isUnder)
  refine ⟨?_, ?_, ?_⟩
  · intro type symbols final returned
    have confined : realm.Confined .plain (fun _ => True) (Query.resolve type) :=
      .resolve isPlain trivial
    obtain ⟨areFree, isFinal⟩ := (Engine.run_confines confined _ _ holds).returned returned
    exact ⟨Suppression.passes_list_iff_reaches.mp areFree, ofHolds isFinal⟩
  · intro name symbols final returned
    have confined : realm.Confined .plain (fun _ => True) (Resolution.ofName name) :=
      Resolution.ofName_confined (fun _ _ => trivial) isPlain name
    obtain ⟨areFree, isFinal⟩ := (Engine.run_confines confined _ _ holds).returned returned
    exact ⟨Suppression.passes_list_iff_reaches.mp areFree, ofHolds isFinal⟩
  · intro expression type final returned
    have confined : realm.Confined .plain (fun _ => True) (Query.evaluateType expression) :=
      .evaluateType isPlain trivial
    obtain ⟨isFree, isFinal⟩ := (Engine.run_confines confined _ _ holds).returned returned
    refine ⟨fun symbol isType => Suppression.passes_iff_reaches.mp ?_, ofHolds isFinal⟩
    exact Sieve.passes_option.mp isFree symbol isType

/-- A program with a pointer to a derived class, which it names through an alias. -/
def Program.derivedBehindAlias : Program :=
  let drafting : Drafting Unit := do
    let module ← Draft.addModule "m"
    discard <| Draft.addMember module "B" (.aggregate .classType false [])
    discard <| Draft.addMember module "C" (.aggregate .classType false [.named "B"])
    discard <| Draft.addMember module "A" (.aliased (some (.named "C")) none)
    discard <| Draft.addMember module "x" (.var (some (.pointer (.named "A"))) none)
  .ofTree (drafting.run {}).2.tree

/-- The derived class below the pointer has no bases when they are suppressed. -/
theorem suppression_reaches_below_pointer :
    ∃ start symbols final,
      Suppression.baseClasses.Governs start ∧
        Suppression.baseClasses.ReachesMemo Program.derivedBehindAlias.tree start ∧
        Engine.run .derivedBehindAlias .standard 9 (Operation.resolveIdentifier "x").query start =
            .ok (symbols, final) ∧
          (∃ symbol ∈ symbols, ∃ part ∈ symbol.parts, part.definition? = some ⟨2⟩) ∧
          ∀ symbol ∈ symbols,
            Suppression.baseClasses.Reaches Program.derivedBehindAlias.tree symbol := by
  let start : State := { State.start ⟨0⟩ none with defaults := { skipBaseClasses := true } }
  have run :
      ((Engine.run .derivedBehindAlias .standard 9 (Operation.resolveIdentifier "x").query
            start).toOption.any
        fun outcome =>
          outcome.1.any fun symbol =>
            symbol.parts.any fun part => part.definition? == some ⟨2⟩) = true := by
    decide +kernel
  obtain ⟨⟨symbols, final⟩, returned, isFound⟩ := exists_of_any run
  have governs : Suppression.baseClasses.Governs start := by decide +kernel
  have memo : Suppression.baseClasses.ReachesMemo Program.derivedBehindAlias.tree start := by
    simp [Suppression.ReachesMemo, start, State.start]
  have reaches :=
    (suppression_reaches_every_depth .baseClasses .derivedBehindAlias .standard 9 governs memo).2.1
  simp only [List.any_eq_true, beq_iff_eq] at isFound
  exact ⟨start, symbols, final, governs, memo, returned, isFound, (reaches _ _ _ returned).1⟩

/--
What was remembered while only one frame set the option is taken as it is.

The frames above that one fall back on the default options, so that the name is
remembered under the option with the bases that were found without it.
-/
theorem remembered_bases_are_not_suppressed :
    ∃ found between symbols final,
      Engine.run .derivedBehindAlias .standard 9
            (Query.withOverrides { enabled := { skipBaseClasses := true } }
              (Operation.resolveIdentifier "x").query)
            (.start ⟨0⟩ none) =
          .ok (found, between) ∧
        Suppression.baseClasses.Governs
            { between with defaults := { skipBaseClasses := true } } ∧
          Engine.run .derivedBehindAlias .standard 9 (Operation.resolveIdentifier "x").query
                { between with defaults := { skipBaseClasses := true } } =
              .ok (symbols, final) ∧
            ∃ symbol ∈ symbols,
              ¬Suppression.baseClasses.Reaches Program.derivedBehindAlias.tree symbol := by
  have run :
      ((Engine.run .derivedBehindAlias .standard 9
            (Query.withOverrides { enabled := { skipBaseClasses := true } }
              (Operation.resolveIdentifier "x").query)
            (.start ⟨0⟩ none)).toOption.any
        fun outcome =>
          let state := { outcome.2 with defaults := { skipBaseClasses := true } }
          Suppression.baseClasses.Governs state &&
            (Engine.run .derivedBehindAlias .standard 9 (Operation.resolveIdentifier "x").query
                state).toOption.any
              fun outcome =>
                outcome.1.any fun symbol =>
                  symbol.parts.any fun part => part.shape.hasBases) = true := by
    decide +kernel
  obtain ⟨⟨found, between⟩, isBetween, passes⟩ := exists_of_any run
  simp only [Bool.and_eq_true, decide_eq_true_eq] at passes
  obtain ⟨governs, passes⟩ := passes
  obtain ⟨⟨symbols, final⟩, returned, isFound⟩ := exists_of_any passes
  simp only [List.any_eq_true] at isFound
  obtain ⟨symbol, isSymbol, part, isPart, hasBases⟩ := isFound
  refine ⟨found, between, symbols, final, isBetween, governs, returned, symbol, isSymbol, ?_⟩
  intro reaches
  exact Bool.false_ne_true
    ((Suppression.hasBases_eq_false_iff.mpr (reaches part isPart)).symm.trans hasBases)

end DScope
