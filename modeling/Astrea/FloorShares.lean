/-
# Floors of shares

An amount split by integer weights that add up to a total, each share rounded down.  What the
floors leave over is not negative and less than one unit for each share.
-/
import Mathlib.Algebra.Order.Ring.Int
import Mathlib.Algebra.BigOperators.Ring.List
import Mathlib.Algebra.Order.BigOperators.Group.List
import Mathlib.Tactic.Linarith

namespace FloorShares

variable {ι : Type} (amount total : ℤ) (weight : ι → ℤ)

/-- The share of `i`, rounded down. -/
def floorShare (i : ι) : ℤ := amount * weight i / total

/-- What the floors leave over. -/
def remainder (l : List ι) : ℤ := amount - (l.map (floorShare amount total weight)).sum

variable {amount total weight}

/-- The floors and what was cut off them make up the exact shares. -/
theorem sum_floorShare (amount total : ℤ) (weight : ι → ℤ) (l : List ι) :
    total * (l.map (floorShare amount total weight)).sum
        + (l.map fun i => amount * weight i % total).sum = amount * (l.map weight).sum := by
  induction l with
  | nil => simp
  | cons i l ih =>
      have hdiv := Int.mul_ediv_add_emod (amount * weight i) total
      simp only [List.map_cons, List.sum_cons, mul_add, floorShare] at ih ⊢
      linarith

/-- The cut off parts, one less than `total` for each share. -/
theorem sum_emod_bounds (amount : ℤ) (weight : ι → ℤ) (htotal : 0 < total) (l : List ι) :
    0 ≤ (l.map fun i => amount * weight i % total).sum ∧
      (l.map fun i => amount * weight i % total).sum ≤ l.length * (total - 1) := by
  induction l with
  | nil => simp
  | cons i l ih =>
      have hnonneg := Int.emod_nonneg (amount * weight i) htotal.ne'
      have hlt := Int.emod_lt_of_pos (amount * weight i) htotal
      simp only [List.map_cons, List.sum_cons, List.length_cons, Nat.cast_succ, add_mul, one_mul]
      omega

/-- The remainder of weights that add up to the total. -/
theorem remainder_bounds (htotal : 0 < total) {l : List ι} (hsum : (l.map weight).sum = total) :
    0 ≤ remainder amount total weight l ∧ remainder amount total weight l < l.length := by
  have hsplit := sum_floorShare amount total weight l
  obtain ⟨hnonneg, hle⟩ := sum_emod_bounds amount weight htotal l
  have hne : l ≠ [] := by
    rintro rfl
    exact htotal.ne' hsum.symm
  have hpos : (0 : ℤ) < l.length := by exact_mod_cast List.length_pos_iff.mpr hne
  -- `total` times the remainder is what was cut off
  have hcut : total * remainder amount total weight l
      = (l.map fun i => amount * weight i % total).sum := by
    rw [remainder, mul_sub]
    rw [hsum] at hsplit
    linarith
  constructor
  · by_contra hneg
    nlinarith
  · by_contra hge
    nlinarith

end FloorShares
