import Mathlib.Data.List.Sort
import Mathlib.Order.Defs.LinearOrder

/-!
# Nearest-rank percentiles

The nearest-rank percentile of a list of values is the least of them that is not exceeded by the given share of the
values.  Sorted, it is the value at the rank (`isPercentile_getElem`).
-/

namespace NearestRank

variable {α : Type} [LinearOrder α] {p : Nat} {values : List α} {v : α}

/-- At least `p` percent of the values do not exceed `v`, and no smaller value has that. -/
structure IsPercentile (p : Nat) (values : List α) (v : α) : Prop where
  mem : v ∈ values
  reached : p * values.length ≤ 100 * values.countP (· ≤ v)
  least : ∀ w ∈ values, w < v → 100 * values.countP (· ≤ w) < p * values.length

theorem IsPercentile.perm {values' : List α} (h : IsPercentile p values v) (hperm : values.Perm values') :
    IsPercentile p values' v where
  mem := hperm.mem_iff.mp h.mem
  reached := by
    rw [← hperm.length_eq, ← hperm.countP_eq]
    exact h.reached
  least w hmem hlt := by
    rw [← hperm.length_eq, ← hperm.countP_eq]
    exact h.least w (hperm.mem_iff.mpr hmem) hlt

/-- In a sorted list the values up to a place do not exceed the value there. -/
theorem countP_le_getElem (hsorted : values.Pairwise (· ≤ ·)) {i : Nat} (hi : i < values.length) :
    i + 1 ≤ values.countP (· ≤ values[i]) := by
  have hall : ∀ w ∈ values.take (i + 1), w ≤ values[i] := by
    intro w hmem
    obtain ⟨j, hj, rfl⟩ := List.mem_take_iff_getElem.mp hmem
    rcases Nat.lt_or_ge j i with hlt | hge
    · exact List.pairwise_iff_getElem.mp hsorted j i (by omega) hi hlt
    · obtain rfl : j = i := by omega
      exact le_rfl
  have htaken : (values.take (i + 1)).countP (· ≤ values[i]) = i + 1 := by
    rw [List.countP_eq_length.mpr fun w hmem => decide_eq_true (hall w hmem), List.length_take]
    omega
  have hsub := (List.take_sublist (i + 1) values).countP_le (p := (· ≤ values[i]))
  omega

/-- A smaller value than the one at a place exceeds only values before that place. -/
theorem countP_lt_getElem (hsorted : values.Pairwise (· ≤ ·)) {i : Nat} (hi : i < values.length) {w : α}
    (hw : w < values[i]) : values.countP (· ≤ w) ≤ i := by
  have hnone : (values.drop i).countP (· ≤ w) = 0 := by
    rw [List.countP_eq_zero]
    intro u hmem hle
    obtain ⟨j, hj, rfl⟩ := List.mem_drop_iff_getElem.mp hmem
    have hge : values[i] ≤ values[i + j] := by
      rcases Nat.eq_zero_or_pos j with rfl | hpos
      · exact le_rfl
      · exact List.pairwise_iff_getElem.mp hsorted i (i + j) hi (by omega) (by omega)
    exact absurd (of_decide_eq_true hle) (not_le_of_gt (lt_of_lt_of_le hw hge))
  have hsplit : values.countP (· ≤ w) = (values.take i).countP (· ≤ w) + (values.drop i).countP (· ≤ w) := by
    rw [← List.countP_append, List.take_append_drop]
  have hlength := List.countP_le_length (p := (· ≤ w)) (l := values.take i)
  rw [List.length_take] at hlength
  omega

/-- The value at the rank. -/
theorem isPercentile_getElem (hsorted : values.Pairwise (· ≤ ·)) {i : Nat} (hi : i < values.length)
    (hreached : p * values.length ≤ 100 * (i + 1)) (hleast : 100 * i < p * values.length) :
    IsPercentile p values values[i] where
  mem := List.getElem_mem hi
  reached := by
    have hcount := countP_le_getElem hsorted hi
    omega
  least w _ hlt := by
    have hcount := countP_lt_getElem hsorted hi hlt
    omega

end NearestRank
