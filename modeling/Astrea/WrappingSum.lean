/-
# Sums that wrap

Sums of 64-bit integers in wrapping arithmetic.  A wrapping sum is the exact sum modulo
`2^64`; so when the exact sum is positive and below `2^64`, and the wrapping one is positive,
the two are equal.
-/
import Mathlib.Algebra.BigOperators.Group.List.Basic
import Mathlib.Algebra.Order.BigOperators.Group.List
import Mathlib.Tactic.Linarith

namespace WrappingSum

/-- The exact sum of a list of 64-bit integers. -/
def exact (l : List Int64) : ℤ := (l.map Int64.toInt).sum

@[simp] theorem exact_nil : exact [] = 0 := rfl

@[simp] theorem exact_cons (x : Int64) (l : List Int64) : exact (x :: l) = x.toInt + exact l := by
  rw [exact, List.map_cons, List.sum_cons, exact]

@[simp] theorem exact_append (l l' : List Int64) : exact (l ++ l') = exact l + exact l' := by
  rw [exact, List.map_append, List.sum_append, exact, exact]

/-- The wrapping sum is the exact one modulo `2^64`. -/
theorem toInt_sum (l : List Int64) : l.sum.toInt = (exact l).bmod (2 ^ 64) := by
  induction l with
  | nil => rfl
  | cons x l ih =>
      rw [List.sum_cons, Int64.toInt_add, ih, exact_cons, Int.add_bmod_bmod]

/-- A number in range, positive modulo `2^64`, is its own residue. -/
theorem eq_of_bmod {x y : ℤ} (hx : 0 < x) (hlt : x < 2 ^ 64) (hy : 0 < y)
    (h : y = x.bmod (2 ^ 64)) : y = x := by
  have hcases : x.bmod (2 ^ 64) = x ∨ x.bmod (2 ^ 64) = x - 2 ^ 64 := by
    have hmod : x % ((2 ^ 64 : ℕ) : ℤ) = x := Int.emod_eq_of_lt (le_of_lt hx) (by simpa using hlt)
    rw [Int.bmod, hmod]
    split
    · exact .inl rfl
    · exact .inr (by norm_num)
  rcases hcases with heq | heq
  · exact h.trans heq
  · omega

/-- An exact sum below `2^63` is the wrapping one. -/
theorem toInt_sum_of_lt {l : List Int64} (hpos : ∀ x ∈ l, 0 < x) (hlt : exact l < 2 ^ 63) :
    l.sum.toInt = exact l := by
  have hnonneg : 0 ≤ exact l := by
    apply List.sum_nonneg
    intro y hy
    obtain ⟨x, hx, rfl⟩ := List.mem_map.mp hy
    exact le_of_lt (Int64.lt_iff_toInt_lt.mp (hpos x hx))
  rw [toInt_sum]
  exact Int.bmod_eq_of_le (by norm_num; omega) (by norm_num; omega)

/-- Adding to one entry adds to the wrapping sum. -/
theorem sum_modify {l : List Int64} {i : ℕ} (hi : i < l.length) (r : Int64) :
    (l.modify i (· + r)).sum = l.sum + r := by
  induction l generalizing i with
  | nil => exact absurd hi (Nat.not_lt_zero i)
  | cons x l ih =>
      cases i with
      | zero =>
          rw [List.modify_zero_cons, List.sum_cons, List.sum_cons]
          ac_rfl
      | succ i =>
          rw [List.modify_succ_cons, List.sum_cons, List.sum_cons,
            ih (Nat.lt_of_succ_lt_succ hi), Int64.add_assoc]

/-- A list whose entries are at most `bound` stays below one full word and `bound` times its
length after one entry is changed. -/
theorem exact_modify_lt {l : List Int64} {bound : ℤ} (hbound : ∀ x ∈ l, x.toInt ≤ bound)
    (hnonneg : 0 ≤ bound) (i : ℕ) (f : Int64 → Int64) :
    exact (l.modify i f) < 2 ^ 63 + bound * l.length := by
  have hrest : ∀ l : List Int64, (∀ x ∈ l, x.toInt ≤ bound) → exact l ≤ bound * l.length := by
    intro l hl
    induction l with
    | nil => simp
    | cons x l ih =>
        have hx := hl x List.mem_cons_self
        have htail := ih fun y hy => hl y (List.mem_cons_of_mem _ hy)
        rw [exact_cons, List.length_cons, Nat.cast_succ, mul_add, mul_one]
        omega
  induction l generalizing i with
  | nil => simp [exact]
  | cons x l ih =>
      have hx := hbound x List.mem_cons_self
      have hl : ∀ y ∈ l, y.toInt ≤ bound := fun y hy => hbound y (List.mem_cons_of_mem _ hy)
      rw [List.length_cons, Nat.cast_succ, mul_add, mul_one]
      cases i with
      | zero =>
          have hword := Int64.toInt_lt (f x)
          have htail := hrest l hl
          rw [List.modify_zero_cons, exact_cons]
          omega
      | succ i =>
          have htail := ih hl i
          rw [List.modify_succ_cons, exact_cons]
          omega

end WrappingSum
