import DScope.Symbol.Bindings
import DScope.Template.Rank
import Mathlib.Data.List.FinRange
import Mathlib.Data.List.Lex
import Mathlib.Data.List.MinMax

namespace DScope.Template

/-!
# Overloads that no other one dominates

Dominance compares ranks at the places that two overloads have in common, so it is not
transitive across overloads with different numbers of parameters. Still it has no cycle:
ranks that dominate others are greater in the lexicographic order, where the first
difference decides. The overload that is greatest in this order is never dropped.
-/

open List

variable {others : List Nat}

/-- Of the places that two lists of ranks have in common, none is lower and one is higher. -/
structure Dominates (ranks others : List Nat) : Prop where
  isNowhereLower :
    ∀ (place rank other : Nat),
      ranks[place]? = some rank → others[place]? = some other → other ≤ rank
  isSomewhereHigher :
    ∃ (place rank other : Nat),
      ranks[place]? = some rank ∧ others[place]? = some other ∧ other < rank

/-- A parameter with a specialization ranks above one without, and all others above a tuple. -/
theorem rank_lt_rank_iff (kind other : ParameterKind) :
    rank (some other) < rank (some kind) ↔
      kind ≠ .tuple ∧
        (other = .tuple ∨ kind.hasSpecialization = true ∧ other.hasSpecialization = false) := by
  unfold rank
  cases kind <;> cases other <;> grind [ParameterKind.hasSpecialization]

theorem dominates_iff {ranks : List Nat} :
    dominates ranks others = true ↔ Dominates ranks others := by
  simp only [dominates, Bool.and_eq_true, all_eq_true, any_eq_true, Prod.forall,
    Prod.exists, mem_iff_getElem?, getElem?_zip_eq_some, decide_eq_true_eq]
  constructor
  · rintro ⟨isNowhereLower, rank, other, ⟨place, isRank, isOther⟩, isHigher⟩
    exact ⟨fun place rank other isRank isOther =>
        isNowhereLower rank other ⟨place, isRank, isOther⟩,
      place, rank, other, isRank, isOther, isHigher⟩
  · rintro ⟨isNowhereLower, place, rank, other, isRank, isOther, isHigher⟩
    refine ⟨?_, rank, other, ⟨place, isRank, isOther⟩, isHigher⟩
    rintro rank other ⟨place, isRank, isOther⟩
    exact isNowhereLower place rank other isRank isOther

theorem lt_of_dominates {ranks : List Nat} (isAbove : dominates ranks others = true) :
    others < ranks := by
  induction ranks generalizing others with
  | nil => simp [dominates] at isAbove
  | cons rank rest ih =>
    cases others with
    | nil => simp [dominates] at isAbove
    | cons other later =>
      simp only [dominates, zip_cons_cons, all_cons, any_cons,
        Bool.and_eq_true, Bool.or_eq_true, decide_eq_true_eq] at isAbove
      obtain ⟨⟨isNotLower, areNotLower⟩, isHigher⟩ := isAbove
      rcases Nat.lt_or_eq_of_le isNotLower with isFirst | rfl
      · exact Lex.rel isFirst
      · have isLater := isHigher.resolve_left (Nat.lt_irrefl _)
        exact Lex.cons (ih (Bool.and_eq_true_iff.mpr ⟨areNotLower, isLater⟩))

/-- Dominance is not transitive: the second ranks are too short to tell the others apart. -/
example :
    dominates [2, 0] [1] = true ∧
      dominates [1] [0, 2] = true ∧ dominates [2, 0] [0, 2] = false := by
  decide

section Survivors

variable {tree : Tree} {overloads : List Symbol}

theorem mem_mostSpecialized {overload : Symbol} :
    overload ∈ mostSpecialized tree overloads ↔
      overload ∈ overloads ∧
        ∀ other ∈ overloads, ¬Dominates (ranks tree other) (ranks tree overload) := by
  simp [mostSpecialized, ← dominates_iff]

theorem mostSpecialized_eq_nil_iff : mostSpecialized tree overloads = [] ↔ overloads = [] := by
  constructor
  · intro isEmpty
    cases isGreatest : overloads.argmax (ranks tree) with
    | none => exact argmax_eq_none.mp isGreatest
    | some greatest =>
      have isLeft : greatest ∈ mostSpecialized tree overloads := by
        refine mem_mostSpecialized.mpr ⟨argmax_mem isGreatest, ?_⟩
        intro other isOther isAbove
        exact not_lt_of_mem_argmax isOther isGreatest (lt_of_dominates (dominates_iff.mpr isAbove))
      rw [isEmpty] at isLeft
      cases isLeft
  · rintro rfl
    rfl

theorem not_dominates_of_mem_mostSpecialized
    {first second : Symbol} (isFirst : first ∈ mostSpecialized tree overloads)
    (isSecond : second ∈ mostSpecialized tree overloads) :
    ¬Dominates (ranks tree first) (ranks tree second) :=
  (mem_mostSpecialized.mp isSecond).2 first (mem_mostSpecialized.mp isFirst).1

theorem mostSpecialized_mostSpecialized (tree : Tree) (overloads : List Symbol) :
    mostSpecialized tree (mostSpecialized tree overloads) = mostSpecialized tree overloads := by
  refine filter_eq_self.mpr fun overload isLeft => ?_
  simp only [Bool.not_eq_true', any_eq_false, dominates_iff]
  exact fun other isOther => not_dominates_of_mem_mostSpecialized isOther isLeft

theorem mostSpecialized_perm {permuted : List Symbol} (isPermuted : permuted.Perm overloads) :
    (mostSpecialized tree permuted).Perm (mostSpecialized tree overloads) := by
  have sameTest (overload : Symbol) :
      (!permuted.any fun other => dominates (ranks tree other) (ranks tree overload)) =
        !overloads.any fun other => dominates (ranks tree other) (ranks tree overload) := by
    rw [isPermuted.any_eq]
  rw [mostSpecialized, funext sameTest]
  exact isPermuted.filter _

theorem exists_places (tree : Tree) (overloads : List Symbol) :
    ∃ places : List (Fin overloads.length),
      places.Pairwise (· < ·) ∧
        mostSpecialized tree overloads = places.map overloads.get ∧
        ∀ place,
          place ∈ places ↔
            ∀ other,
              other ≠ place →
                ¬Dominates (ranks tree (overloads.get other))
                  (ranks tree (overloads.get place)) := by
  let isLeft (overload : Symbol) : Bool :=
    !overloads.any fun other => dominates (ranks tree other) (ranks tree overload)
  refine ⟨(finRange overloads.length).filter (isLeft ∘ overloads.get), ?_, ?_, fun place => ?_⟩
  · exact (pairwise_lt_finRange _).filter _
  · rw [← filter_map, map_get_finRange]
    rfl
  · simp only [mem_filter, mem_finRange, true_and, Function.comp_apply, isLeft,
      Bool.not_eq_true', any_eq_false, dominates_iff]
    constructor
    · exact fun areNotAbove other _ => areNotAbove _ (get_mem overloads other)
    · intro areNotAbove overload isOverload
      obtain ⟨other, rfl⟩ := mem_iff_get.mp isOverload
      by_cases isSame : other = place
      · subst isSame
        exact fun isAbove => lt_irrefl _ (lt_of_dominates (dominates_iff.mpr isAbove))
      · exact areNotAbove other isSame

end Survivors

/--
Choosing the most specialized overloads never drops them all.

What is left of a list of overloads are those that no other one dominates, in their old
order. At least one is left, none of those left dominates another, choosing again
changes nothing, and the order of the overloads decides about nothing but the order of
those that are left.
-/
theorem most_specialized_overloads_are_undominated (tree : Tree) (overloads : List Symbol) :
    (mostSpecialized tree overloads = [] ↔ overloads = []) ∧
      (∃ places : List (Fin overloads.length),
        places.Pairwise (· < ·) ∧
          mostSpecialized tree overloads = places.map overloads.get ∧
          ∀ place,
            place ∈ places ↔
              ∀ other,
                other ≠ place →
                  ¬Dominates (ranks tree (overloads.get other))
                    (ranks tree (overloads.get place))) ∧
      (∀ first ∈ mostSpecialized tree overloads,
        ∀ second ∈ mostSpecialized tree overloads,
          ¬Dominates (ranks tree first) (ranks tree second)) ∧
        mostSpecialized tree (mostSpecialized tree overloads) = mostSpecialized tree overloads ∧
        ∀ permuted,
          permuted.Perm overloads →
            (mostSpecialized tree permuted).Perm (mostSpecialized tree overloads) :=
  ⟨mostSpecialized_eq_nil_iff, exists_places tree overloads,
    fun _ isFirst _ isSecond => not_dominates_of_mem_mostSpecialized isFirst isSecond,
    mostSpecialized_mostSpecialized tree overloads, fun _ => mostSpecialized_perm⟩

/-- Alone `f(T : int)` is left beside `f(T)`, and `f(T)` beside `f(T...)`. -/
example :
    let node (kind : NodeKind) (templateParameters : List NodeId) : Node :=
      { name := "", kind, parent := none, span := .lines 0 0, templateParameters }
    let tree : Tree :=
      { nodes :=
          #[node (.templateParameter (.type (some (.basic .int)) none)) [],
            node (.templateParameter (.type none none)) [], node (.templateParameter .tuple) [],
            node (.method none [] none) [⟨0⟩], node (.method none [] none) [⟨1⟩],
            node (.method none [] none) [⟨2⟩]] }
    let overload (place : Nat) : Symbol := .member ⟨place⟩ none .none
    mostSpecialized tree [overload 3, overload 4] = [overload 3] ∧
      mostSpecialized tree [overload 4, overload 5] = [overload 4] :=
  ⟨rfl, rfl⟩

end DScope.Template
