import Mathlib

/-!
# Sorting by distinct keys

A list whose keys are distinct has one order in which they rise, so it does not matter in
which order the list was before it was sorted.
-/

namespace SortBy

variable {α β : Type*} [LinearOrder β]

def sortBy (key : α → β) (values : List α) : List α :=
  values.insertionSort fun a b => key a ≤ key b

variable {key : α → β} {values values' : List α}

theorem sortBy_perm (key : α → β) (values : List α) : (sortBy key values).Perm values :=
  List.perm_insertionSort _ _

theorem sortBy_le (key : α → β) (values : List α) :
    (sortBy key values).Pairwise fun a b => key a ≤ key b :=
  haveI : Std.Total fun a b : α => key a ≤ key b := ⟨fun a b => le_total (key a) (key b)⟩
  haveI : IsTrans α fun a b : α => key a ≤ key b := ⟨fun _ _ _ => le_trans⟩
  List.pairwise_insertionSort _ _

theorem sortBy_lt (hkeys : (values.map key).Nodup) :
    (sortBy key values).Pairwise fun a b => key a < key b := by
  have hsorted : (((sortBy key values).map key).Nodup) :=
    ((sortBy_perm key values).map key).nodup_iff.mpr hkeys
  rw [List.Nodup, List.pairwise_map] at hsorted
  exact ((sortBy_le key values).and hsorted).imp fun h => lt_of_le_of_ne h.1 h.2

/-- There is only one order in which the keys rise. -/
theorem eq_sortBy (hperm : values'.Perm values)
    (hrises : values'.Pairwise fun a b => key a < key b) : values' = sortBy key values := by
  have hkeys : (values'.map key).Nodup := by
    rw [List.Nodup, List.pairwise_map]
    exact hrises.imp fun h => ne_of_lt h
  have hsorted := sortBy_lt ((hperm.map key).nodup_iff.mp hkeys)
  refine List.Perm.eq_of_pairwise ?_ hrises hsorted (hperm.trans (sortBy_perm key values).symm)
  intro a b _ _ hab hba
  exact absurd hab (lt_asymm hba)

theorem sortBy_congr (hperm : values.Perm values') (hkeys : (values.map key).Nodup) :
    sortBy key values = sortBy key values' :=
  eq_sortBy ((sortBy_perm key values).trans hperm) (sortBy_lt hkeys)

end SortBy
