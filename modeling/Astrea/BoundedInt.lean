/-
# Bounded integers

Integers confined to an interval, with arithmetic that answers `none` where the
exact result leaves the interval: the integers of a machine that traps on
overflow.  The value carries its own bounds, so every result that exists is in
range by construction, and `ofInt_eq_some` turns each operation into the exact
one.
-/
import Mathlib.Data.Int.Basic
import Mathlib.Algebra.Ring.Int.Defs
import Mathlib.Algebra.BigOperators.Group.List.Basic
import Mathlib.Algebra.Order.BigOperators.Group.List

/-- An integer between `lo` and `hi`. -/
structure BoundedInt (lo hi : ℤ) where
  val : ℤ
  lower : lo ≤ val
  upper : val ≤ hi
  deriving DecidableEq

namespace BoundedInt

variable {lo hi : ℤ}

/-- Two bounded integers with one value are equal. -/
@[ext] theorem ext {x y : BoundedInt lo hi} (h : x.val = y.val) : x = y := by
  cases x
  cases y
  simp only at h
  subst h
  rfl

/-- The bounded integer of value `z`, when `z` is in range. -/
def ofInt (lo hi z : ℤ) : Option (BoundedInt lo hi) :=
  if h : lo ≤ z ∧ z ≤ hi then some ⟨z, h.1, h.2⟩ else none

@[simp] theorem ofInt_eq_some {z : ℤ} {x : BoundedInt lo hi} :
    ofInt lo hi z = some x ↔ x.val = z := by
  unfold ofInt
  by_cases h : lo ≤ z ∧ z ≤ hi
  · rw [dif_pos h, Option.some_inj]
    constructor
    · rintro rfl
      rfl
    · intro hx
      exact ext hx.symm
  · rw [dif_neg h]
    constructor
    · intro hx
      exact nomatch hx
    · rintro rfl
      exact absurd ⟨x.lower, x.upper⟩ h

/-- Trapping addition. -/
def add (x y : BoundedInt lo hi) : Option (BoundedInt lo hi) := ofInt lo hi (x.val + y.val)

/-- Trapping subtraction. -/
def sub (x y : BoundedInt lo hi) : Option (BoundedInt lo hi) := ofInt lo hi (x.val - y.val)

/-- Trapping multiplication. -/
def mul (x y : BoundedInt lo hi) : Option (BoundedInt lo hi) := ofInt lo hi (x.val * y.val)

/-- Trapping division by an exact divisor, rounding toward zero. -/
def tdiv (x : BoundedInt lo hi) (d : ℤ) : Option (BoundedInt lo hi) :=
  if d = 0 then none else ofInt lo hi (x.val.tdiv d)

@[simp] theorem add_eq_some {x y z : BoundedInt lo hi} :
    x.add y = some z ↔ z.val = x.val + y.val := ofInt_eq_some

@[simp] theorem sub_eq_some {x y z : BoundedInt lo hi} :
    x.sub y = some z ↔ z.val = x.val - y.val := ofInt_eq_some

@[simp] theorem mul_eq_some {x y z : BoundedInt lo hi} :
    x.mul y = some z ↔ z.val = x.val * y.val := ofInt_eq_some

/-- A division in bounds is the truncated one. -/
theorem tdiv_eq_some {x z : BoundedInt lo hi} {d : ℤ} (hd : d ≠ 0) :
    x.tdiv d = some z ↔ z.val = x.val.tdiv d := by
  rw [tdiv, if_neg hd, ofInt_eq_some]

/-! ## Sums that trap -/

/-- The exact sum of a list of bounded integers. -/
def exactSum (l : List (BoundedInt lo hi)) : ℤ := (l.map val).sum

@[simp] theorem exactSum_nil : exactSum ([] : List (BoundedInt lo hi)) = 0 := rfl

@[simp] theorem exactSum_cons (x : BoundedInt lo hi) (l : List (BoundedInt lo hi)) :
    exactSum (x :: l) = x.val + exactSum l := by
  rw [exactSum, exactSum, List.map_cons, List.sum_cons]

/-- Add up a list from the left, starting at `acc` and trapping at the first
partial sum out of range. -/
def sumFrom (acc : BoundedInt lo hi) : List (BoundedInt lo hi) → Option (BoundedInt lo hi)
  | [] => some acc
  | x :: l => (acc.add x).bind fun acc' => sumFrom acc' l

/-- A trapping sum that does not trap is the exact sum. -/
theorem sumFrom_exact {l : List (BoundedInt lo hi)} {acc z : BoundedInt lo hi}
    (h : sumFrom acc l = some z) : z.val = acc.val + exactSum l := by
  induction l generalizing acc with
  | nil =>
      simp only [sumFrom, Option.some_inj] at h
      rw [h, exactSum_nil, add_zero]
  | cons x l ih =>
      obtain ⟨acc', hacc, hl⟩ := Option.bind_eq_some_iff.mp h
      rw [ih hl, add_eq_some.mp hacc, exactSum_cons, add_assoc]

/-- A sum of nonnegative terms never traps on the way to a total in range. -/
theorem sumFrom_of_exact {l : List (BoundedInt lo hi)} {acc z : BoundedInt lo hi}
    (hpos : ∀ x ∈ l, 0 ≤ x.val) (hz : z.val = acc.val + exactSum l) :
    sumFrom acc l = some z := by
  induction l generalizing acc with
  | nil =>
      rw [exactSum_nil, add_zero] at hz
      rw [sumFrom, ext hz]
  | cons x l ih =>
      have hx : 0 ≤ x.val := hpos x (List.mem_cons_self ..)
      have hrest : 0 ≤ exactSum l :=
        List.sum_nonneg fun y hy => by
          obtain ⟨w, hw, rfl⟩ := List.mem_map.mp hy
          exact hpos w (List.mem_cons_of_mem _ hw)
      rw [exactSum_cons] at hz
      -- the partial sum lies between the accumulator and the total
      have hlow : lo ≤ acc.val + x.val := le_trans acc.lower (by omega)
      have hupp : acc.val + x.val ≤ hi := le_trans (by omega) z.upper
      have hadd : acc.add x = some ⟨acc.val + x.val, hlow, hupp⟩ := add_eq_some.mpr rfl
      rw [sumFrom, hadd, Option.bind_some]
      exact ih (fun w hw => hpos w (List.mem_cons_of_mem _ hw)) (by simp only; omega)

end BoundedInt
