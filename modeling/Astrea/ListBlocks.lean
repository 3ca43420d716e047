/-
# Lists made of blocks

A list that is put together from blocks, one per key, gives each block back when it is
filtered by the block's key, and its windows are cut as those of any list.
-/
import Mathlib.Data.List.Nodup
import Mathlib.Data.List.Perm.Subperm
import Mathlib.Algebra.BigOperators.Group.List.Basic
import Mathlib.Algebra.Ring.Int.Defs

namespace ListBlocks

variable {α β : Type}

/-- A test that holds on one block only finds that block. -/
theorem filter_flatMap_eq {l : List α} {f : α → List β} {q : β → Bool} {x : α}
    (hnodup : l.Nodup) (hx : x ∈ l) (hthis : ∀ z ∈ f x, q z = true)
    (hother : ∀ y ∈ l, y ≠ x → ∀ z ∈ f y, q z = false) : (l.flatMap f).filter q = f x := by
  have hnone : ∀ l : List α, (∀ y ∈ l, ∀ z ∈ f y, q z = false) →
      (l.flatMap f).filter q = [] := by
    intro l hl
    rw [List.filter_eq_nil_iff]
    intro z hz
    obtain ⟨y, hy, hz⟩ := List.mem_flatMap.mp hz
    rw [hl y hy z hz]
    exact Bool.false_ne_true
  induction l with
  | nil => exact absurd hx List.not_mem_nil
  | cons y l ih =>
      obtain ⟨hy, hnodup⟩ := List.nodup_cons.mp hnodup
      rw [List.flatMap_cons, List.filter_append]
      rcases List.mem_cons.mp hx with rfl | hx
      · rw [List.filter_eq_self.mpr hthis, hnone l ?_, List.append_nil]
        intro y' hy' z hz
        exact hother y' (List.mem_cons_of_mem _ hy') (fun h => hy (h ▸ hy')) z hz
      · have hne : y ≠ x := fun h => hy (h ▸ hx)
        have hhead : (f y).filter q = [] := by
          rw [List.filter_eq_nil_iff]
          intro z hz
          rw [hother y List.mem_cons_self hne z hz]
          exact Bool.false_ne_true
        rw [hhead, List.nil_append]
        exact ih hnodup hx fun y' hy' => hother y' (List.mem_cons_of_mem _ hy')

/-- A sum over blocks is the sum of the blocks' sums. -/
theorem sum_map_flatMap (l : List α) (f : α → List β) (g : β → ℤ) :
    ((l.flatMap f).map g).sum = (l.map fun x => ((f x).map g).sum).sum := by
  induction l with
  | nil => rfl
  | cons x l ih =>
      rw [List.flatMap_cons, List.map_append, List.sum_append, ih, List.map_cons, List.sum_cons]

/-- Keys that are met once and are all there, as many as there are entries, are the keys of the
entries: no two entries share one. -/
theorem nodup_of_covers {κ : Type} {keys : List κ} {l : List α} {key : α → κ}
    (hnodup : keys.Nodup) (hsub : ∀ k ∈ keys, ∃ x ∈ l, key x = k)
    (hlen : l.length ≤ keys.length) :
    (l.map key).Nodup ∧ ∀ x ∈ l, key x ∈ keys := by
  have hsubset : keys ⊆ l.map key := by
    intro k hk
    obtain ⟨x, hx, rfl⟩ := hsub k hk
    exact List.mem_map_of_mem hx
  have hperm := (List.subperm_of_subset hnodup hsubset).perm_of_length_le (by rwa [List.length_map])
  refine ⟨hperm.nodup_iff.mp hnodup, ?_⟩
  intro x hx
  exact hperm.mem_iff.mpr (List.mem_map_of_mem hx)

/-- A window of a list is cut at the list's end. -/
theorem take_window (l : List α) (i n : ℕ) :
    (l.drop i).take (min (i + n) l.length - i) = (l.drop i).take n := by
  rw [List.take_eq_take_iff, List.length_drop]
  omega

/-- The blocks of length `m` of a list, one after the other. -/
theorem flatten_blocks (l : List α) (m n : ℕ) :
    ((List.range n).map fun k => (l.drop (k * m)).take m).flatten = l.take (n * m) := by
  induction n with
  | zero => rw [Nat.zero_mul, List.take_zero]; rfl
  | succ n ih =>
      rw [List.range_succ, List.map_append, List.flatten_append, ih, Nat.succ_mul,
        List.take_add]
      simp only [List.map_cons, List.map_nil, List.flatten_cons, List.flatten_nil,
        List.append_nil]

/-- An entry found by its index cuts the list there. -/
theorem split_of_getElem? {l : List α} {k : ℕ} {x : α} (h : l[k]? = some x) :
    ∃ l₁ l₂, l = l₁ ++ x :: l₂ ∧ l₁.length = k := by
  obtain ⟨hlt, hx⟩ := List.getElem?_eq_some_iff.mp h
  refine ⟨l.take k, l.drop (k + 1), ?_, ?_⟩
  · rw [← hx, ← List.drop_eq_getElem_cons hlt, List.take_append_drop]
  · rw [List.length_take, min_eq_left (le_of_lt hlt)]

/-- Changing the entry at the end of the first part. -/
theorem modify_length (l₁ l₂ : List α) (x : α) (f : α → α) :
    (l₁ ++ x :: l₂).modify l₁.length f = l₁ ++ f x :: l₂ := by
  induction l₁ with
  | nil => rfl
  | cons y l₁ ih => rw [List.cons_append, List.length_cons, List.modify_succ_cons, ih, List.cons_append]

end ListBlocks
