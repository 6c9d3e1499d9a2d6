import DScope.Proofs.Moves

namespace DScope

/-!
# Steps of a scan

What a scan does at a mixin, at a base and at an import is made of a few kinds of
steps. A property that these steps have, and that passes on to what is made of them,
holds of the whole.
-/

namespace Lookup

open Query

/-- The property passes on to a step that follows a query or is left out in an open block. -/
structure ClosedUnderQueries (environment : Environment) (Holds : (Scan → Query Scan) → Prop) :
    Prop where
  unchanged : Holds fun scan => pure scan
  after {α : Type} {query : Query α} {next : α → Scan → Query Scan} :
    (∀ value state later, query environment state = .ok (value, later) → Holds (next value)) →
      Holds fun scan => query >>= fun value => next value scan
  unlessOpen {next : Scan → Query Scan} (block : NodeId) :
    Holds next → Holds fun scan => if scan.openBlocks.contains block then pure scan else next scan

/-- The property passes on to steps one after another. -/
structure ClosedUnderSteps (environment : Environment) (Holds : (Scan → Query Scan) → Prop) : Prop
    extends ClosedUnderQueries environment Holds where
  comp {first second : Scan → Query Scan} :
    Holds first → Holds second → Holds fun scan => first scan >>= second

/-- The property holds of the steps at a mixin. -/
structure ClosedUnderMixins (environment : Environment) (Holds : (Scan → Query Scan) → Prop) : Prop
    extends ClosedUnderSteps environment Holds where
  framed {step : Scan → Query Scan} (frame : Frame) :
    Holds step → Holds fun scan => do
      let nested ← withFrame frame (step scan)
      return nested.getD scan
  marks (change : List NodeId → List NodeId) :
    Holds fun scan => pure { scan with openBlocks := change scan.openBlocks }
  adds {block member : NodeId} {entry memberEntry : Node} :
    environment.program.tree.node? block = some entry → member ∈ entry.children →
      environment.program.tree.node? member = some memberEntry → ∀ isNamed brought,
        Holds fun scan => pure <|
          if isNamed && scan.wants memberEntry then scan.add member (some brought) else scan

/-- The property holds of the steps at a base, and passes on to layers one after another. -/
structure ClosedUnderLayers (environment : Environment) (access : Access)
    (Holds : (Scan → Query Scan) → Prop) : Prop
    extends ClosedUnderQueries environment Holds where
  andThen {first second : Scan → Query Scan} :
    Holds first → Holds second → Holds fun scan => first scan >>= unlessDone second
  opened (via : Option Symbol) (scope : NodeId) :
    Holds fun scan =>
      scanMembers access via scope { scan with openBlocks := scope :: scan.openBlocks }
  mixins (scope : NodeId) : Holds (scanMixins scope)

variable {environment : Environment} {Holds : (Scan → Query Scan) → Prop} {α : Type}

theorem ClosedUnderSteps.foldlM (closed : ClosedUnderSteps environment Holds)
    {step : Scan → α → Query Scan} {items : List α}
    (each : ∀ item ∈ items, Holds fun scan => step scan item) :
    Holds fun scan => items.foldlM step scan := by
  induction items with
  | nil => exact closed.unchanged
  | cons item rest ih =>
    obtain ⟨first, others⟩ := List.forall_mem_cons.mp each
    exact closed.comp first (ih others)

theorem ClosedUnderSteps.scanImports (closed : ClosedUnderSteps environment Holds)
    (modules : ∀ module, Holds (scanModule module)) (scope : NodeId) :
    Holds (Lookup.scanImports scope) := by
  refine closed.after fun entry _ _ _ => closed.after fun isCancelled _ _ _ => ?_
  cases isCancelled with
  | true => exact closed.unchanged
  | false => exact closed.after fun program _ _ _ => closed.foldlM fun module _ => modules module

namespace ClosedUnderMixins

variable (closed : ClosedUnderMixins environment Holds)
include closed

theorem scanMixin (steps : Nat) (mixin : NodeId) :
    Holds fun scan => Lookup.scanMixin steps scan mixin := by
  induction steps generalizing mixin with
  | zero => exact closed.unchanged
  | succ steps ih =>
    refine closed.after fun brought _ _ _ => ?_
    cases brought with
    | none => exact closed.unchanged
    | some brought =>
      cases isAggregate : brought.aggregate? with
      | none => simp only [isAggregate]; exact closed.unchanged
      | some aggregate =>
        simp only [isAggregate]
        refine closed.unlessOpen _ (closed.after fun template _ _ isTemplate => ?_)
        refine closed.comp (closed.comp (closed.marks (aggregate.node :: ·))
          (closed.foldlM fun member isMember => closed.after fun entry _ _ isRead => ?_))
          (closed.marks (·.erase aggregate.node))
        have adds := fun isNamed =>
          closed.adds (node_eq_ok.mp isTemplate).1 isMember (node_eq_ok.mp isRead).1 isNamed brought
        cases entry.isMixin with
        | true => exact closed.comp (adds !entry.name.isEmpty) (closed.framed _ (ih member))
        | false =>
          simpa only [Bool.true_and, Bool.false_eq_true, if_false,
            apply_ite (pure : Scan → Query Scan)] using adds true

theorem scanMixins (scope : NodeId) : Holds (Lookup.scanMixins scope) := by
  refine closed.after fun entry _ _ _ => closed.foldlM fun child _ =>
    closed.after fun childEntry _ _ _ => ?_
  cases childEntry.isMixin with
  | true => exact closed.after fun tree _ _ _ => closed.scanMixin _ child
  | false => exact closed.unchanged

end ClosedUnderMixins

namespace ClosedUnderLayers

variable {access : Access} (closed : ClosedUnderLayers environment access Holds)

include closed

-- The three theorems use the assumption in turn.
set_option linter.unusedSectionVars false in
mutual

theorem scanBase : ∀ base : Symbol, Holds fun scan => Lookup.scanBase access base scan
  | ⟨shape, origin, modifier, tags⟩ => by
    cases shape with
    | aggregate aggregate =>
      obtain ⟨kind, scope, baseClass, interfaces, bindings⟩ := aggregate
      have layers := fun via =>
        closed.andThen (closed.andThen (closed.andThen (closed.opened via scope)
          (closed.mixins scope)) (scanBaseOption baseClass)) (scanBases interfaces)
      simp only [bind_assoc] at layers
      unfold Lookup.scanBase
      exact closed.unlessOpen scope (layers _)
    | _ =>
      unfold Lookup.scanBase
      exact closed.unchanged

theorem scanBaseOption :
    ∀ base : Option Symbol, Holds fun scan => Lookup.scanBaseOption access base scan
  | none => closed.unchanged
  | some base => scanBase base

theorem scanBases : ∀ bases : List Symbol, Holds fun scan => Lookup.scanBases access bases scan
  | [] => closed.unchanged
  | base :: rest => closed.andThen (scanBase base) (scanBases rest)

end

theorem scanBasesOf (owner : Symbol) : Holds (Lookup.scanBasesOf access owner) := by
  unfold Lookup.scanBasesOf
  cases owner.aggregate? with
  | none => exact closed.unchanged
  | some aggregate => exact closed.scanBases _

omit closed in
theorem scanInherited (closed : ClosedUnderLayers environment .inherited Holds) (scope : NodeId) :
    Holds (Lookup.scanInherited scope) := by
  refine closed.after fun entry _ _ _ => ?_
  split
  case h_3 => exact closed.unchanged
  -- A class and an interface are scanned alike.
  all_goals
    refine closed.after fun state _ _ _ => ?_
    cases state.guard.isResolving scope with
    | true => exact closed.unchanged
    | false =>
      refine closed.after fun symbol _ _ _ => ?_
      cases symbol with
      | none => exact closed.unchanged
      | some symbol => exact closed.scanBasesOf symbol

end ClosedUnderLayers

end Lookup

end DScope
