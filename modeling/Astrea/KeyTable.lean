/-
# Key tables and their weighted totals

A key table is a finite map read with `AList.lookup` and written with
`AList.insert`.  The total of a table under a weight adds the weight of every
entry; the one law everything else rests on is `totalOf_insert`, which says what
a single write does to a total.
-/
import Mathlib.Data.List.AList
import Mathlib.Algebra.BigOperators.Group.List.Basic
import Mathlib.Algebra.Order.BigOperators.Group.List
import Mathlib.Tactic.Ring

/-- A finite map from `κ` to `ν`. -/
abbrev KeyTable (κ ν : Type) : Type := AList fun _ : κ => ν

namespace KeyTable

variable {κ ν : Type}

/-- The weight of the entry under `k`, zero when the key is absent. -/
def weightAt (f : κ → ν → ℤ) (k : κ) : Option ν → ℤ
  | none => 0
  | some v => f k v

/-- The sum of the weights of all entries. -/
def totalOf (f : κ → ν → ℤ) (t : KeyTable κ ν) : ℤ :=
  (t.entries.map fun e => f e.1 e.2).sum

@[simp] theorem weightAt_none (f : κ → ν → ℤ) (k : κ) : weightAt f k none = 0 := rfl

@[simp] theorem weightAt_some (f : κ → ν → ℤ) (k : κ) (v : ν) :
    weightAt f k (some v) = f k v := rfl

@[simp] theorem totalOf_empty (f : κ → ν → ℤ) :
    totalOf f (∅ : KeyTable κ ν) = 0 := rfl

variable [DecidableEq κ]

/-- Erasing a key from a list of entries takes out the weight it had. -/
theorem sum_kerase (f : κ → ν → ℤ) (k : κ) (l : List (Sigma fun _ : κ => ν)) :
    ((l.kerase k).map fun e => f e.1 e.2).sum
      = (l.map fun e => f e.1 e.2).sum - weightAt f k (l.dlookup k) := by
  induction l with
  | nil => simp
  | cons e l ih =>
      obtain ⟨k', v⟩ := e
      by_cases h : k = k'
      · subst h
        have herase : List.kerase k (⟨k, v⟩ :: l) = l := List.kerase_cons_eq rfl
        rw [herase, List.dlookup_cons_eq]
        simp
      · rw [List.kerase_cons_ne h, List.dlookup_cons_ne _ _ h, List.map_cons,
          List.sum_cons, ih]
        simp only [List.map_cons, List.sum_cons]
        ring

/-- A write replaces the weight of the old entry by the weight of the new one. -/
theorem totalOf_insert (f : κ → ν → ℤ) (k : κ) (v : ν) (t : KeyTable κ ν) :
    totalOf f (t.insert k v) = totalOf f t - weightAt f k (t.lookup k) + f k v := by
  unfold totalOf AList.lookup
  rw [AList.entries_insert, List.map_cons, List.sum_cons, sum_kerase]
  ring

/-- A table finds each of its entries under its own key. -/
theorem lookup_of_mem_entries {t : KeyTable κ ν} {e : Sigma fun _ : κ => ν}
    (h : e ∈ t.entries) : t.lookup e.1 = some e.2 :=
  AList.mem_lookup_iff.mpr h

/-- A total of nonnegative weights is nonnegative. -/
theorem totalOf_nonneg {f : κ → ν → ℤ} {t : KeyTable κ ν}
    (h : ∀ k v, t.lookup k = some v → 0 ≤ f k v) : 0 ≤ totalOf f t := by
  apply List.sum_nonneg
  intro x hx
  obtain ⟨e, he, rfl⟩ := List.mem_map.mp hx
  exact h e.1 e.2 (lookup_of_mem_entries he)

/-- One entry weighs at most the total, when no weight is negative. -/
theorem weight_le_totalOf {f : κ → ν → ℤ} {t : KeyTable κ ν}
    (h : ∀ k v, t.lookup k = some v → 0 ≤ f k v) {k : κ} {v : ν}
    (hk : t.lookup k = some v) : f k v ≤ totalOf f t := by
  have hmem : (⟨k, v⟩ : Sigma fun _ : κ => ν) ∈ t.entries := AList.mem_lookup_iff.mp hk
  have hle := List.single_le_sum (l := t.entries.map fun e => f e.1 e.2) (by
    intro x hx
    obtain ⟨e, he, rfl⟩ := List.mem_map.mp hx
    exact h e.1 e.2 (lookup_of_mem_entries he)) (f k v)
    (List.mem_map.mpr ⟨⟨k, v⟩, hmem, rfl⟩)
  exact hle

/-- What a lookup finds after a write. -/
theorem lookup_insert_eq_some {t : KeyTable κ ν} {k k' : κ} {v v' : ν} :
    (t.insert k v).lookup k' = some v' ↔
      (k' = k ∧ v' = v) ∨ (k' ≠ k ∧ t.lookup k' = some v') := by
  by_cases h : k' = k
  · subst h
    simp [eq_comm]
  · simp [h]

/-- The entries that satisfy `p`. -/
def filter (p : κ → ν → Bool) (t : KeyTable κ ν) : KeyTable κ ν :=
  ⟨t.entries.filter fun e => p e.1 e.2, List.NodupKeys.sublist List.filter_sublist t.nodupKeys⟩

/-- A filtered table has the entries that pass. -/
theorem lookup_filter_eq_some {p : κ → ν → Bool} {t : KeyTable κ ν} {k : κ} {v : ν} :
    (t.filter p).lookup k = some v ↔ t.lookup k = some v ∧ p k v = true := by
  rw [← Option.mem_def, AList.mem_lookup_iff, ← Option.mem_def, AList.mem_lookup_iff]
  simp [filter]

/-! ## Row changes -/

/-- Erasing a key takes out the weight it had. -/
theorem totalOf_erase (f : κ → ν → ℤ) (k : κ) (t : KeyTable κ ν) :
    totalOf f (t.erase k) = totalOf f t - weightAt f k (t.lookup k) :=
  sum_kerase f k t.entries

/-- What a lookup finds after a key is erased. -/
theorem lookup_erase_eq_some {t : KeyTable κ ν} {k k' : κ} {v : ν} :
    (t.erase k).lookup k' = some v ↔ k' ≠ k ∧ t.lookup k' = some v := by
  by_cases h : k' = k
  · subst h
    simp
  · simp [h]

/-- The weight of a row, zero where there is none. -/
def weightOf (f : κ → ν → ℤ) : Option (κ × ν) → ℤ
  | none => 0
  | some e => f e.1 e.2

/-- The table without the row `old`, where there is one. -/
def without (t : KeyTable κ ν) : Option (κ × ν) → KeyTable κ ν
  | none => t
  | some e => t.erase e.1

/-- The table after the row `old` has become `new`: an insertion where there is no old row, a
deletion where there is no new one. -/
def replace (t : KeyTable κ ν) (old : Option (κ × ν)) : Option (κ × ν) → KeyTable κ ν
  | none => t.without old
  | some e => (t.without old).insert e.1 e.2

/-- The old row is in the table, and no other row has the key of the new one. -/
structure Replaceable (t : KeyTable κ ν) (old new : Option (κ × ν)) : Prop where
  stored : ∀ e ∈ old, t.lookup e.1 = some e.2
  free : ∀ e ∈ new, (t.without old).lookup e.1 = none

variable {t : KeyTable κ ν} {old new : Option (κ × ν)}

theorem lookup_without (h : ∀ e ∈ old, t.lookup e.1 = some e.2) {k : κ} {v : ν} :
    (t.without old).lookup k = some v ↔ old ≠ some (k, v) ∧ t.lookup k = some v := by
  cases old with
  | none => simp [without]
  | some e =>
      obtain ⟨k', v'⟩ := e
      have hstored := h _ rfl
      rw [without, lookup_erase_eq_some]
      constructor
      · rintro ⟨hne, hk⟩
        exact ⟨fun heq => hne (by cases heq; rfl), hk⟩
      · rintro ⟨hne, hk⟩
        refine ⟨?_, hk⟩
        rintro rfl
        rw [hk] at hstored
        exact hne (by rw [Option.some_inj.mp hstored])

/-- What a lookup finds after a row change. -/
theorem lookup_replace (h : Replaceable t old new) {k : κ} {v : ν} :
    (t.replace old new).lookup k = some v ↔
      new = some (k, v) ∨ old ≠ some (k, v) ∧ t.lookup k = some v := by
  cases new with
  | none =>
      rw [replace, lookup_without h.stored]
      simp
  | some e =>
      obtain ⟨k', v'⟩ := e
      have hfree := h.free _ rfl
      rw [replace, lookup_insert_eq_some, ← lookup_without h.stored]
      constructor
      · rintro (⟨rfl, rfl⟩ | ⟨-, hk⟩)
        · exact .inl rfl
        · exact .inr hk
      · rintro (heq | hk)
        · cases heq
          exact .inl ⟨rfl, rfl⟩
        · refine .inr ⟨?_, hk⟩
          rintro rfl
          rw [hfree] at hk
          exact nomatch hk

/-- A row change takes out the weight of the old row and adds that of the new one. -/
theorem totalOf_replace (f : κ → ν → ℤ) (h : Replaceable t old new) :
    totalOf f (t.replace old new) = totalOf f t - weightOf f old + weightOf f new := by
  have hwithout : totalOf f (t.without old) = totalOf f t - weightOf f old := by
    cases old with
    | none => rw [without, weightOf, sub_zero]
    | some e => rw [without, totalOf_erase, h.stored e rfl, weightAt_some, weightOf]
  cases new with
  | none => rw [replace, hwithout, weightOf, add_zero]
  | some e =>
      rw [replace, totalOf_insert, h.free e rfl, hwithout, weightAt_none, sub_zero, weightOf]

/-! ## Several insertions -/

/-- The table after the rows of a list have been inserted, one after the other. -/
def insertAll (t : KeyTable κ ν) : List (κ × ν) → KeyTable κ ν
  | [] => t
  | e :: l => insertAll (t.insert e.1 e.2) l

/-- Lists are inserted one after the other. -/
theorem insertAll_append (t : KeyTable κ ν) (l l' : List (κ × ν)) :
    t.insertAll (l ++ l') = (t.insertAll l).insertAll l' := by
  induction l generalizing t with
  | nil => rfl
  | cons e l ih => rw [List.cons_append, insertAll, insertAll, ih]

/-- New rows add their weights. -/
theorem totalOf_insertAll (f : κ → ν → ℤ) {l : List (κ × ν)} (hkeys : (l.map Prod.fst).Nodup)
    (hfree : ∀ e ∈ l, t.lookup e.1 = none) :
    totalOf f (t.insertAll l) = totalOf f t + (l.map fun e => f e.1 e.2).sum := by
  induction l generalizing t with
  | nil => rw [insertAll, List.map_nil, List.sum_nil, add_zero]
  | cons e l ih =>
      rw [List.map_cons, List.nodup_cons] at hkeys
      have hrest : ∀ e' ∈ l, (t.insert e.1 e.2).lookup e'.1 = none := by
        intro e' he'
        have hne : e'.1 ≠ e.1 := fun heq => hkeys.1 (heq ▸ List.mem_map_of_mem he')
        rw [AList.lookup_insert_ne hne]
        exact hfree e' (List.mem_cons_of_mem _ he')
      rw [insertAll, ih hkeys.2 hrest, totalOf_insert, hfree e List.mem_cons_self, weightAt_none,
        List.map_cons, List.sum_cons]
      ring

end KeyTable
