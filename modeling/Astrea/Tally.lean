/-
# Totals by key

A tally adds up the amounts of a list of entries under their keys and remembers the order in
which the keys were first seen.  Its keys are those of the list, each once, in that order
(`mem_order`, `order_pairwise`); the total of a key is the sum of its amounts (`total_ofList`).
-/
import Astrea.KeyTable
import Mathlib.Data.List.Induction

/-- The keys seen so far, in order of first appearance, and the total of each. -/
structure Tally (κ M : Type) where
  order : List κ
  totals : KeyTable κ M

namespace Tally

variable {κ M : Type} [DecidableEq κ] [Add M] [Zero M]

/-- Add `m` to the total of `k`, which is zero when `k` is new. -/
def add (t : Tally κ M) (k : κ) (m : M) : Tally κ M where
  order := if (t.totals.lookup k).isSome then t.order else t.order ++ [k]
  totals := t.totals.insert k ((t.totals.lookup k).getD 0 + m)

/-- The tally of a list of entries. -/
def ofList (l : List (κ × M)) : Tally κ M := l.foldl (fun t e => t.add e.1 e.2) ⟨[], ∅⟩

theorem ofList_concat (l : List (κ × M)) (e : κ × M) :
    ofList (l ++ [e]) = (ofList l).add e.1 e.2 := by
  rw [ofList, List.foldl_append, List.foldl_cons, List.foldl_nil, ← ofList]

/-! ## The order of the keys -/

/-- A key has a total once it has been seen. -/
theorem isSome_lookup_ofList (l : List (κ × M)) (k : κ) :
    ((ofList l).totals.lookup k).isSome = true ↔ k ∈ l.map Prod.fst := by
  induction l using List.reverseRecOn with
  | nil => exact ⟨nofun, nofun⟩
  | append_singleton l e ih =>
      rw [ofList_concat, add, List.map_append, List.mem_append, List.map_singleton,
        List.mem_singleton]
      by_cases h : k = e.1
      · rw [h, AList.lookup_insert]
        exact ⟨fun _ => .inr rfl, fun _ => rfl⟩
      · rw [AList.lookup_insert_ne h, ih, or_iff_left h]

theorem order_concat (l : List (κ × M)) (e : κ × M) :
    (ofList (l ++ [e])).order
      = if e.1 ∈ l.map Prod.fst then (ofList l).order else (ofList l).order ++ [e.1] := by
  rw [ofList_concat, add]
  simp only [isSome_lookup_ofList]

/-- The keys of a tally are the keys of its list. -/
theorem mem_order {l : List (κ × M)} {k : κ} : k ∈ (ofList l).order ↔ k ∈ l.map Prod.fst := by
  induction l using List.reverseRecOn with
  | nil => exact ⟨nofun, nofun⟩
  | append_singleton l e ih =>
      rw [order_concat, List.map_append, List.mem_append, List.map_singleton, List.mem_singleton]
      split
      · rename_i hseen
        rw [ih, or_iff_left_of_imp]
        rintro rfl
        exact hseen
      · rw [List.mem_append, List.mem_singleton, ih]

/-- The keys of a tally stand in the order in which they first appear, each once. -/
theorem order_pairwise [BEq κ] [LawfulBEq κ] (l : List (κ × M)) :
    (ofList l).order.Pairwise fun a b =>
      (l.map Prod.fst).idxOf a < (l.map Prod.fst).idxOf b := by
  induction l using List.reverseRecOn with
  | nil => exact List.Pairwise.nil
  | append_singleton l e ih =>
      have hold : ∀ k ∈ (ofList l).order,
          ((l ++ [e]).map Prod.fst).idxOf k = (l.map Prod.fst).idxOf k := by
        intro k hk
        rw [List.map_append, List.idxOf_append_of_mem (mem_order.mp hk)]
      have hkept : (ofList l).order.Pairwise fun a b =>
          ((l ++ [e]).map Prod.fst).idxOf a < ((l ++ [e]).map Prod.fst).idxOf b := by
        refine ih.imp_of_mem fun ha hb hlt => ?_
        rwa [hold _ ha, hold _ hb]
      rw [order_concat]
      split
      · exact hkept
      · rename_i hnew
        refine List.pairwise_append.mpr ⟨hkept, List.pairwise_singleton _ _, ?_⟩
        intro a ha b hb
        rw [List.mem_singleton.mp hb, hold a ha, List.map_append, List.map_singleton,
          List.idxOf_append_of_notMem hnew, List.idxOf_cons_self, Nat.add_zero]
        exact List.idxOf_lt_length_of_mem (mem_order.mp ha)

/-! ## The totals -/

/-- The sum of the amounts under `k`. -/
def totalAt (k : κ) (l : List (κ × M)) : M := ((l.filter fun e => e.1 = k).map Prod.snd).sum

variable [@Std.Associative M (· + ·)] [@Std.LawfulIdentity M (· + ·) 0]

theorem totalAt_concat (k : κ) (l : List (κ × M)) (e : κ × M) :
    totalAt k (l ++ [e]) = if e.1 = k then totalAt k l + e.2 else totalAt k l := by
  rw [totalAt, List.filter_append, List.map_append]
  by_cases h : e.1 = k
  · rw [if_pos h, List.filter_cons_of_pos (by simpa using h), List.filter_nil, List.map_cons,
      List.map_nil, List.sum_append, List.sum_singleton, totalAt]
  · rw [if_neg h, List.filter_cons_of_neg (by simpa using h), List.filter_nil, List.map_nil,
      List.append_nil, totalAt]

/-- The total of a key is the sum of the amounts under it. -/
theorem total_ofList (l : List (κ × M)) (k : κ) :
    ((ofList l).totals.lookup k).getD 0 = totalAt k l := by
  induction l using List.reverseRecOn with
  | nil => rfl
  | append_singleton l e ih =>
      rw [ofList_concat, add, totalAt_concat]
      by_cases h : k = e.1
      · subst h
        rw [AList.lookup_insert, Option.getD_some, if_pos rfl, ih]
      · rw [AList.lookup_insert_ne h, if_neg (Ne.symm h), ih]

end Tally
