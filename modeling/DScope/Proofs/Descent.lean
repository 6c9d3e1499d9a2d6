import Mathlib.Logic.Relation

namespace DScope

/-!
# Ways that meet no place twice

Links between finitely many places may form circles. Whatever a way along links
leads to is also led to by a way that goes on from each place at most once, and
such a way is no longer than there are places.
-/

open Relation

variable {Place : Type} {places cut : List Place} {Links : Place → Place → Prop} {place : Place}

/-- Links lead from a place to another one without going on from a place that is cut off. -/
inductive Descends (Links : Place → Place → Prop) : List Place → Place → Place → Prop
  | here (cut : List Place) (place : Place) : Descends Links cut place place
  | along {cut : List Place} {place next target : Place}
      (isNew : place ∉ cut)
      (link : Links place next)
      (rest : Descends Links (place :: cut) next target) :
      Descends Links cut place target

namespace Descends

variable {start target : Place}

theorem reaches (descends : Descends Links cut place target) :
    ReflTransGen Links place target := by
  induction descends with
  | here => exact .refl
  | along _ link _ ih => exact .head link ih

theorem iff_along :
    Descends Links cut place target ↔
      place = target ∨
        (place ∉ cut ∧ ∃ next, Links place next ∧ Descends Links (place :: cut) next target) := by
  constructor
  · intro descends
    cases descends with
    | here => exact .inl rfl
    | along isNew link rest => exact .inr ⟨isNew, _, link, rest⟩
  · rintro (rfl | ⟨isNew, next, link, rest⟩)
    · exact .here cut place
    · exact .along isNew link rest

/-- A place that is not cut off leads to itself and to what its links lead to beyond it. -/
theorem new_iff (isNew : place ∉ cut) :
    target ∉ cut ∧ Descends Links cut place target ↔
      target = place ∨
        ∃ next, Links place next ∧ target ∉ place :: cut ∧
          Descends Links (place :: cut) next target := by
  rw [iff_along]
  grind

/-- Links from places that are not cut off. -/
def Beyond (Links : Place → Place → Prop) (cut : List Place) (place next : Place) : Prop :=
  place ∉ cut ∧ Links place next

theorem Beyond.goes_on
    (reaches : ReflTransGen (Beyond Links cut) start target) (place : Place) :
    ReflTransGen (Beyond Links (place :: cut)) start target ∨
      ∃ next,
        Beyond Links cut place next ∧
          ReflTransGen (Beyond Links (place :: cut)) next target := by
  induction reaches using ReflTransGen.head_induction_on with
  | refl => exact .inl .refl
  | @head first next beyond _ ih =>
    rcases ih with avoids | passes
    · by_cases isSame : first = place
      · subst isSame
        exact .inr ⟨next, beyond, avoids⟩
      · have isNew : first ∉ place :: cut := by
          simpa [isSame] using beyond.1
        exact .inl (.head ⟨isNew, beyond.2⟩ avoids)
    · exact .inr passes

end Descends

variable [DecidableEq Place]

/-- The number of places that are not cut off. -/
def remaining (places cut : List Place) : Nat :=
  (places.filter fun place => !cut.contains place).length

theorem remaining_cons_lt (isPlace : place ∈ places) (isNew : place ∉ cut) :
    remaining places (place :: cut) < remaining places cut := by
  have isFiltered :
      (places.filter fun other => !(place :: cut).contains other) =
        (places.filter fun other => !cut.contains other).filter (· != place) := by
    rw [List.filter_filter]
    apply List.filter_congr
    intro other _
    by_cases isSame : other = place <;> simp [isSame]
  unfold remaining
  rw [isFiltered, List.length_filter_lt_length_iff_exists]
  exact ⟨place, List.mem_filter.mpr ⟨isPlace, by simpa using isNew⟩, by simp⟩

theorem remaining_le_of_subset {more : List Place} (isSubset : cut ⊆ more) :
    remaining places more ≤ remaining places cut := by
  unfold remaining
  rw [← List.countP_eq_length_filter, ← List.countP_eq_length_filter]
  apply List.countP_mono_left
  intro place _ isLeft
  have isNew : place ∉ more := by simpa using isLeft
  simpa using fun isCut => isNew (isSubset isCut)

namespace Descends

variable {target : Place}

theorem ofBeyond (areFinite : ∀ place next, Links place next → place ∈ places)
    (reaches : ReflTransGen (Beyond Links cut) place target) :
    Descends Links cut place target := by
  -- Going on from a place cuts it off, so fewer places remain.
  induction isCount : remaining places cut using Nat.strongRecOn generalizing cut place with
  | ind count ih =>
    rcases ReflTransGen.cases_head reaches with rfl | ⟨next, beyond, _⟩
    · exact .here cut place
    · have isFewer : remaining places (place :: cut) < count :=
        isCount ▸ remaining_cons_lt (areFinite place next beyond.2) beyond.1
      rcases Beyond.goes_on reaches place with avoids | ⟨last, lastBeyond, avoids⟩
      · rcases ReflTransGen.cases_head avoids with rfl | ⟨_, isBlocked, _⟩
        · exact .here cut place
        · exact absurd List.mem_cons_self isBlocked.1
      · exact .along lastBeyond.1 lastBeyond.2 (ih _ isFewer avoids rfl)

theorem iff_reaches (areFinite : ∀ place next, Links place next → place ∈ places) :
    Descends Links [] place target ↔ ReflTransGen Links place target := by
  have isBeyond : ∀ place next, Links place next → Beyond Links [] place next :=
    fun _ _ link => ⟨List.not_mem_nil, link⟩
  constructor
  · exact reaches
  · intro isReached
    exact ofBeyond areFinite (ReflTransGen.mono isBeyond _ _ isReached)

end Descends

end DScope
