/-
# Replacing entries by key

Some entries of a list are replaced in their places (`InPlaces`).  Putting new entries in, one
after the other and each in the place of the first entry of its key, leaves the last new entry of
a key in the place of the first old one (`replaceAll_cons`).  Here is when that replaces exactly
the entries of a kind (`inPlaces_replaceAll`, `InPlaces.first`), when every new entry is used once
(`perm_replaceAll`), and when each of them suits the entry it replaces (`forall₂_replaceAll`).
With distinct keys all this is obvious (`replaceAll_of_nodup`).
-/
import Mathlib.Data.List.Perm.Basic
import Mathlib.Data.List.Nodup
import Mathlib.Data.List.Forall2

namespace KeyedReplace

/-! ## Replacing in places -/

section Places

variable {α : Type}

/-- `l'` is `l` with the entries that satisfy `p` replaced: `old` are those entries and `new` the
ones that stand in their places, both in the order of the places. -/
inductive InPlaces (p : α → Prop) : List α → List α → List α → List α → Prop
  | nil : InPlaces p [] [] [] []
  | keep {e : α} {l old new l' : List α} (hp : ¬ p e) (h : InPlaces p l old new l') :
      InPlaces p (e :: l) old new (e :: l')
  | put {e s : α} {l old new l' : List α} (hp : p e) (h : InPlaces p l old new l') :
      InPlaces p (e :: l) (e :: old) (s :: new) (s :: l')

variable {p : α → Prop} {l old new l' : List α}

/-- The entries that are replaced are those that satisfy `p`. -/
theorem InPlaces.old_eq [DecidablePred p] (h : InPlaces p l old new l') :
    old = l.filter fun e => p e := by
  induction h with
  | nil => rfl
  | keep hp _ ih => rw [List.filter_cons_of_neg (by simpa using hp), ih]
  | put hp _ ih => rw [List.filter_cons_of_pos (by simpa using hp), ih]

/-- The two lists determine what stands in the places. -/
theorem InPlaces.unique {old₂ new₂ : List α} (h : InPlaces p l old new l')
    (h₂ : InPlaces p l old₂ new₂ l') : new = new₂ := by
  induction h generalizing old₂ new₂ with
  | nil =>
      cases h₂
      rfl
  | keep hp _ ih =>
      cases h₂ with
      | keep _ h₂ => exact ih h₂
      | put hp' _ => exact absurd hp' hp
  | put hp _ ih =>
      cases h₂ with
      | keep hp' _ => exact absurd hp hp'
      | put _ h₂ => rw [ih h₂]

end Places

/-! ## Replacing the first entry of a key -/

variable {α κ : Type} [DecidableEq κ] (key : α → κ)

/-- The first entry of a key. -/
def firstOf (l : List α) (k : κ) : Option α := l.find? fun e => key e = k

/-- The last entry of a key. -/
def lastOf (l : List α) (k : κ) : Option α := l.reverse.find? fun e => key e = k

/-- Put `s` in the place of the first entry of its key. -/
def replaceFirst (s : α) : List α → List α
  | [] => []
  | e :: l => if key e = key s then s :: l else e :: replaceFirst s l

/-- Put some entries in, one after the other. -/
def replaceAll (l : List α) (used : List α) : List α :=
  used.foldl (fun l s => replaceFirst key s l) l

variable {key}

theorem map_replaceFirst (s : α) (l : List α) : (replaceFirst key s l).map key = l.map key := by
  induction l with
  | nil => rfl
  | cons e l ih =>
      rw [replaceFirst]
      split
      · rename_i h
        rw [List.map_cons, List.map_cons, h]
      · rw [List.map_cons, ih, List.map_cons]

/-- Replacing leaves the keys. -/
theorem map_replaceAll (l used : List α) : (replaceAll key l used).map key = l.map key := by
  induction used generalizing l with
  | nil => rfl
  | cons s used ih => rw [replaceAll, List.foldl_cons, ← replaceAll, ih, map_replaceFirst]

theorem firstOf_cons (e : α) (l : List α) (k : κ) :
    firstOf key (e :: l) k = if key e = k then some e else firstOf key l k := by
  rw [firstOf]
  split
  · rename_i h
    rw [List.find?_cons_of_pos (by simpa using h)]
  · rename_i h
    rw [List.find?_cons_of_neg (by simpa using h), firstOf]

theorem lastOf_cons (e : α) (l : List α) (k : κ) :
    lastOf key (e :: l) k = (lastOf key l k).or (if key e = k then some e else none) := by
  rw [lastOf, List.reverse_cons, List.find?_append, lastOf]
  congr 1
  split
  · rename_i h
    rw [List.find?_cons_of_pos (by simpa using h)]
  · rename_i h
    rw [List.find?_cons_of_neg (by simpa using h), List.find?_nil]

theorem key_of_firstOf {l : List α} {k : κ} {e : α} (h : firstOf key l k = some e) :
    key e = k := by
  have hfound := List.find?_some h
  exact of_decide_eq_true hfound

theorem key_of_lastOf {l : List α} {k : κ} {e : α} (h : lastOf key l k = some e) : key e = k := by
  have hfound := List.find?_some h
  exact of_decide_eq_true hfound

theorem mem_of_lastOf {l : List α} {k : κ} {e : α} (h : lastOf key l k = some e) : e ∈ l :=
  List.mem_reverse.mp (List.mem_of_find?_eq_some h)

/-- A key that occurs has a last entry. -/
theorem lastOf_ne_none (key : α → κ) {l : List α} {e : α} (h : e ∈ l) :
    lastOf key l (key e) ≠ none := by
  intro hnone
  exact List.find?_eq_none.mp hnone e (List.mem_reverse.mpr h) (decide_eq_true rfl)

/-- The first entry of a key is the first among the entries of its kind. -/
theorem firstOf_filter {p : α → Prop} [DecidablePred p] {l : List α} {k : κ} {e : α}
    (h : firstOf key l k = some e) (hp : p e) : firstOf key (l.filter fun e => p e) k = some e := by
  induction l with
  | nil => cases h
  | cons x l ih =>
      rw [firstOf_cons] at h
      split at h
      · rename_i hk
        cases h
        rw [List.filter_cons_of_pos (by simpa using hp), firstOf_cons, if_pos hk]
      · rename_i hk
        rw [List.filter_cons]
        split
        · rw [firstOf_cons, if_neg hk, ih h]
        · exact ih h

/-- A key that occurs has a first entry. -/
theorem exists_firstOf (key : α → κ) {l : List α} {e : α} (h : e ∈ l) :
    ∃ e', firstOf key l (key e) = some e' := by
  refine Option.ne_none_iff_exists'.mp fun hnone => ?_
  exact List.find?_eq_none.mp hnone e h (decide_eq_true rfl)

/-- The last entries once one key has been left out. -/
theorem lastOf_filter (l : List α) (k₀ k : κ) :
    lastOf key (l.filter fun e => key e ≠ k₀) k = if k = k₀ then none else lastOf key l k := by
  induction l with
  | nil => exact (ite_self _).symm
  | cons e l ih =>
      rw [lastOf_cons]
      by_cases he : key e = k₀
      · rw [List.filter_cons_of_neg (by simpa using he), ih]
        split
        · rfl
        · rename_i hk
          rw [if_neg fun h => hk (h.symm.trans he), Option.or_none]
      · rw [List.filter_cons_of_pos (by simpa using he), lastOf_cons, ih]
        split
        · rename_i hk
          rw [if_neg fun h => he (h.trans hk)]
          rfl
        · rfl

/-- The first place of a key gets the last new entry of the key, and what else there is of that
key stays. -/
theorem replaceAll_cons (e : α) (l used : List α) :
    replaceAll key (e :: l) used = (lastOf key used (key e)).getD e ::
      replaceAll key l (used.filter fun s => key s ≠ key e) := by
  induction used generalizing e l with
  | nil => rfl
  | cons s used ih =>
      rw [replaceAll, List.foldl_cons, ← replaceAll, replaceFirst, lastOf_cons]
      by_cases h : key e = key s
      · rw [if_pos h, ih, List.filter_cons_of_neg (by simpa using h.symm), if_pos h.symm, h]
        cases lastOf key used (key s) <;> rfl
      · rw [if_neg h, ih, List.filter_cons_of_pos (by simpa using Ne.symm h), if_neg (Ne.symm h),
          Option.or_none]
        rfl

/-- The entry that ends up in a place has the key of the place. -/
theorem key_getD_lastOf (key : α → κ) (used : List α) (e : α) :
    key ((lastOf key used (key e)).getD e) = key e := by
  cases h : lastOf key used (key e) with
  | none => rfl
  | some s => exact key_of_lastOf h

/-- The first entry of a key is the last one that was put in, if any. -/
theorem firstOf_replaceAll {l used : List α} {k : κ} (hk : k ∈ l.map key) :
    firstOf key (replaceAll key l used) k = (lastOf key used k).or (firstOf key l k) := by
  induction l generalizing used with
  | nil => cases hk
  | cons e l ih =>
      rw [replaceAll_cons, firstOf_cons, firstOf_cons, key_getD_lastOf key]
      by_cases h : key e = k
      · rw [if_pos h, if_pos h, h]
        cases lastOf key used k <;> rfl
      · rw [List.map_cons, List.mem_cons] at hk
        rw [if_neg h, if_neg h, ih (hk.resolve_left (Ne.symm h)), lastOf_filter,
          if_neg (Ne.symm h)]

theorem length_replaceAll (key : α → κ) (l used : List α) :
    (replaceAll key l used).length = l.length := by
  rw [← List.length_map key, map_replaceAll, List.length_map]

/-! ## Replacing the entries of a kind -/

section Kind

variable {p : α → Prop}

/-- Where the first entries of the keys are all of a kind, these are the ones replaced. -/
theorem inPlaces_replaceAll [DecidablePred p] {l used : List α}
    (h : ∀ s ∈ used, ∀ e, firstOf key l (key s) = some e → p e) :
    InPlaces p l (l.filter fun e => p e) (replaceAll key (l.filter fun e => p e) used)
      (replaceAll key l used) := by
  induction l generalizing used with
  | nil =>
      have hnil : ∀ used : List α, replaceAll key [] used = [] := fun used =>
        List.eq_nil_of_length_eq_zero (length_replaceAll key [] used)
      rw [List.filter_nil, hnil]
      exact .nil
  | cons e l ih =>
      have hrest : ∀ s ∈ used.filter fun s => key s ≠ key e, ∀ e', firstOf key l (key s) = some e' →
          p e' := by
        intro s hs e' he'
        obtain ⟨hmem, hne⟩ := List.mem_filter.mp hs
        refine h s hmem e' ?_
        rw [firstOf_cons, if_neg fun heq => of_decide_eq_true hne heq.symm]
        exact he'
      by_cases hp : p e
      · rw [List.filter_cons_of_pos (by simpa using hp), replaceAll_cons, replaceAll_cons]
        exact .put hp (ih hrest)
      · -- no new entry has the key of this one
        have hother : ∀ s ∈ used, key s ≠ key e := by
          intro s hs heq
          refine hp (h s hs e ?_)
          rw [firstOf_cons, if_pos heq.symm]
        have hall : (used.filter fun s => key s ≠ key e) = used :=
          List.filter_eq_self.mpr fun s hs => decide_eq_true (hother s hs)
        have hnone : lastOf key used (key e) = none :=
          List.find?_eq_none.mpr fun s hs => by simpa using hother s (List.mem_reverse.mp hs)
        rw [hall] at hrest
        rw [List.filter_cons_of_neg (by simpa using hp), replaceAll_cons, hall, hnone]
        exact .keep hp (ih hrest)

/-- A new entry in a place, of a key that no entry was put in for, stood there before. -/
theorem InPlaces.of_other_key {l old new used : List α}
    (h : InPlaces p l old new (replaceAll key l used)) {s : α} (hs : s ∈ new)
    (hother : ∀ t ∈ used, key t ≠ key s) : p s := by
  induction l generalizing old new used with
  | nil =>
      generalize replaceAll key [] used = l' at h
      cases h
      cases hs
  | cons e l ih =>
      rw [replaceAll_cons] at h
      have hrest : ∀ t ∈ used.filter fun t => key t ≠ key e, key t ≠ key s :=
        fun t ht => hother t (List.mem_filter.mp ht).1
      cases h' : lastOf key used (key e) with
      | none =>
          rw [h', Option.getD_none] at h
          cases h with
          | keep _ h => exact ih h hs hrest
          | put hp h =>
              rcases List.mem_cons.mp hs with rfl | hs
              · exact hp
              · exact ih h hs hrest
      | some t =>
          rw [h', Option.getD_some] at h
          have hkey := hother t (mem_of_lastOf h')
          cases h with
          | keep _ h => exact ih h hs hrest
          | put _ h =>
              rcases List.mem_cons.mp hs with rfl | hs
              · exact absurd rfl hkey
              · exact ih h hs hrest

/-- Where the entries of a kind are the ones replaced and every new entry is used, the first
entries of the keys are of that kind. -/
theorem InPlaces.first {l old new used : List α}
    (h : InPlaces p l old new (replaceAll key l used)) (hused : ∀ s ∈ used, s ∈ new) {s e : α}
    (hs : s ∈ used) (he : firstOf key l (key s) = some e) : p e := by
  induction l generalizing old new used with
  | nil => cases he
  | cons x l ih =>
      rw [replaceAll_cons] at h
      generalize hx : (lastOf key used (key x)).getD x = x' at h
      rw [firstOf_cons] at he
      by_cases hkey : key x = key s
      · rw [if_pos hkey] at he
        cases he
        cases h with
        | put hp _ => exact hp
        | keep _ h =>
            -- the last entry of the key was put in here and stands in a place behind it
            cases hlast : lastOf key used (key e) with
            | none => exact absurd hlast (hkey ▸ lastOf_ne_none key hs)
            | some t =>
                rw [hlast, Option.getD_some] at hx
                subst hx
                refine h.of_other_key (hused t (mem_of_lastOf hlast)) fun u hu => ?_
                exact of_decide_eq_true (List.mem_filter.mp hu).2
      · rw [if_neg hkey] at he
        have hmem : s ∈ used.filter fun t => key t ≠ key x :=
          List.mem_filter.mpr ⟨hs, decide_eq_true (Ne.symm hkey)⟩
        cases h with
        | keep _ h => exact ih h (fun u hu => hused u (List.mem_filter.mp hu).1) hmem he
        | put _ h =>
            refine ih h (fun u hu => ?_) hmem he
            obtain ⟨hu, hne⟩ := List.mem_filter.mp hu
            rcases List.mem_cons.mp (hused u hu) with rfl | hnew
            · -- what was put in here has this key
              refine absurd ?_ (of_decide_eq_true hne)
              rw [← hx, key_getD_lastOf key]
            · exact hnew

end Kind

/-- With one entry of the key at most, that one is replaced. -/
theorem replaceFirst_eq_map {s : α} {l : List α}
    (hl : l.Pairwise fun a b => key a = key b → key a ≠ key s) :
    replaceFirst key s l = l.map fun e => if key e = key s then s else e := by
  induction l with
  | nil => rfl
  | cons e l ih =>
      rw [List.pairwise_cons] at hl
      rw [replaceFirst, List.map_cons]
      split
      · rename_i h
        have hrest : ∀ e' ∈ l, (if key e' = key s then s else e') = id e' := by
          intro e' he'
          exact if_neg fun hk => hl.1 e' he' (h.trans hk.symm) h
        rw [List.map_congr_left hrest, List.map_id]
      · rw [ih hl.2]

/-- With distinct keys, each entry is replaced by the one of its key, if any. -/
theorem replaceAll_of_nodup {l used : List α} (hused : (used.map key).Nodup)
    (hl : l.Pairwise fun a b => key a = key b → ∀ s ∈ used, key a ≠ key s) :
    replaceAll key l used = l.map fun e => (used.find? fun s => key s = key e).getD e := by
  induction used generalizing l with
  | nil => exact (List.map_id l).symm
  | cons s used ih =>
      rw [List.map_cons, List.nodup_cons] at hused
      have hfirst : l.Pairwise fun a b => key a = key b → key a ≠ key s :=
        hl.imp fun h hab => h hab s List.mem_cons_self
      have hkeys : (replaceFirst key s l).Pairwise fun a b =>
          key a = key b → ∀ t ∈ used, key a ≠ key t := by
        have hold : (l.map key).Pairwise fun a b => a = b → ∀ t ∈ used, a ≠ key t :=
          List.pairwise_map.mpr (hl.imp fun h hab t ht => h hab t (List.mem_cons_of_mem _ ht))
        rw [← map_replaceFirst s l] at hold
        exact List.pairwise_map.mp hold
      rw [replaceAll, List.foldl_cons, ← replaceAll, ih hused.2 hkeys, replaceFirst_eq_map hfirst,
        List.map_map]
      refine List.map_congr_left fun e _ => ?_
      rw [Function.comp_apply]
      by_cases h : key e = key s
      · have hnone : (used.find? fun t => key t = key s) = none := by
          rw [List.find?_eq_none]
          intro t ht hk
          exact hused.1 (of_decide_eq_true hk ▸ List.mem_map_of_mem ht)
        rw [if_pos h, hnone, List.find?_cons_of_pos (by simpa using h.symm)]
        rfl
      · rw [if_neg h, List.find?_cons_of_neg (by simpa using Ne.symm h)]

/-! ## Counting -/

variable [DecidableEq α]

/-- How often `a` stands in `l` behind the first entry of its key. -/
def behindFirst (key : α → κ) (l : List α) (a : α) : ℕ :=
  ((l.dropWhile fun e => key e ≠ key a).tail).count a

theorem behindFirst_cons (e : α) (l : List α) (a : α) :
    behindFirst key (e :: l) a = if key e = key a then l.count a else behindFirst key l a := by
  rw [behindFirst]
  split
  · rename_i h
    rw [List.dropWhile_cons_of_neg (by simpa using h), List.tail_cons]
  · rename_i h
    rw [List.dropWhile_cons_of_pos (by simpa using h), behindFirst]

/-- Entries of other keys are kept. -/
theorem count_replaceFirst {s a : α} (hne : key s ≠ key a) (l : List α) :
    (replaceFirst key s l).count a = l.count a := by
  induction l with
  | nil => rfl
  | cons e l ih =>
      rw [replaceFirst]
      split
      · rename_i h
        rw [List.count_cons_of_ne fun heq => hne (congrArg key heq),
          List.count_cons_of_ne fun heq => hne (h.symm.trans (congrArg key heq))]
      · rw [List.count_cons, List.count_cons, ih]

/-- Nothing changes behind the first entry of a key. -/
theorem behindFirst_replaceFirst (s : α) (l : List α) (a : α) :
    behindFirst key (replaceFirst key s l) a = behindFirst key l a := by
  induction l with
  | nil => rfl
  | cons e l ih =>
      rw [replaceFirst]
      split
      · rename_i h
        rw [behindFirst_cons, behindFirst_cons, h]
      · rename_i h
        rw [behindFirst_cons, behindFirst_cons, ih]
        by_cases he : key e = key a
        · -- the entry is put in behind, in the place of one of another key
          have hne : key s ≠ key a := fun hs => h (he.trans hs.symm)
          rw [if_pos he, if_pos he, count_replaceFirst hne]
        · rw [if_neg he, if_neg he]

/-- Only first entries are replaced, so what stands behind them stays. -/
theorem behindFirst_replaceAll (l used : List α) (a : α) :
    behindFirst key (replaceAll key l used) a = behindFirst key l a := by
  induction used generalizing l with
  | nil => rfl
  | cons s used ih =>
      rw [replaceAll, List.foldl_cons, ← replaceAll, ih, behindFirst_replaceFirst]

/-- The first entry of a key, and those behind it. -/
theorem count_eq (key : α → κ) (l : List α) (a : α) :
    l.count a = behindFirst key l a + if firstOf key l (key a) = some a then 1 else 0 := by
  induction l with
  | nil => rfl
  | cons e l ih =>
      rw [behindFirst_cons, firstOf_cons]
      by_cases he : key e = key a
      · rw [if_pos he, if_pos he, List.count_cons]
        simp only [beq_iff_eq, Option.some_inj]
      · rw [if_neg he, if_neg he, List.count_cons_of_ne fun heq => he (congrArg key heq), ih]

/-- The new entries are all used, each as often as it was given, exactly when each of them that
is not the last of its key already stands behind the first entry of its key, as often. -/
theorem perm_replaceAll {l used : List α} (hlength : l.length = used.length)
    (hused : ∀ s ∈ used, key s ∈ l.map key) :
    (replaceAll key l used).Perm used ↔
      ∀ s ∈ used, behindFirst key used.reverse s ≤ behindFirst key l s := by
  have hcount : ∀ s ∈ used, (used.count s ≤ (replaceAll key l used).count s ↔
      behindFirst key used.reverse s ≤ behindFirst key l s) := by
    intro s hs
    have hlast : firstOf key (replaceAll key l used) (key s)
        = firstOf key used.reverse (key s) := by
      rw [firstOf_replaceAll (hused s hs)]
      exact Option.or_of_isSome (Option.isSome_iff_ne_none.mpr (lastOf_ne_none key hs))
    rw [← List.count_reverse, count_eq key used.reverse, count_eq key (replaceAll key l used),
      hlast, behindFirst_replaceAll]
    exact Nat.add_le_add_iff_right
  rw [← length_replaceAll key l used] at hlength
  constructor
  · intro hperm s hs
    exact (hcount s hs).mp (Nat.le_of_eq (hperm.count_eq s).symm)
  · intro hbehind
    have hsub : used.Subperm (replaceAll key l used) :=
      List.subperm_ext_iff.mpr fun s hs => (hcount s hs).mpr (hbehind s hs)
    exact (hsub.perm_of_length_le (Nat.le_of_eq hlength)).symm

/-- Each entry suits the one it replaces exactly when the last new entry of a key suits the first
old one, and those that stay suit themselves. -/
theorem forall₂_replaceAll {R : α → α → Prop} {l used : List α} :
    List.Forall₂ R (replaceAll key l used) l ↔
      (∀ k s e, lastOf key used k = some s → firstOf key l k = some e → R s e) ∧
        ∀ e ∈ l, 0 < behindFirst key l e ∨ lastOf key used (key e) = none → R e e := by
  induction l generalizing used with
  | nil =>
      have hnil : replaceAll key [] used = [] :=
        List.eq_nil_of_length_eq_zero (length_replaceAll key [] used)
      rw [hnil]
      exact ⟨fun _ => ⟨nofun, nofun⟩, fun _ => .nil⟩
  | cons x l ih =>
      rw [replaceAll_cons, List.forall₂_cons, ih]
      constructor
      · rintro ⟨hx, hlast, hself⟩
        refine ⟨fun k s e hs he => ?_, fun e he hstays => ?_⟩
        · rw [firstOf_cons] at he
          split at he
          · rename_i hk
            cases he
            rw [hk, hs] at hx
            exact hx
          · rename_i hk
            exact hlast k s e (by rw [lastOf_filter, if_neg (Ne.symm hk), hs]) he
        · by_cases hmem : e ∈ l
          · -- what stays behind the first place of its key is among the rest
            refine hself e hmem ?_
            rw [lastOf_filter]
            rw [behindFirst_cons] at hstays
            split at hstays
            · rename_i hk
              exact .inr (if_pos hk.symm)
            · rename_i hk
              rwa [if_neg (Ne.symm hk)]
          · obtain rfl := (List.mem_cons.mp he).resolve_right hmem
            rw [behindFirst_cons, if_pos rfl, List.count_eq_zero_of_not_mem hmem] at hstays
            rw [hstays.resolve_left (Nat.lt_irrefl 0)] at hx
            exact hx
      · rintro ⟨hlast, hself⟩
        refine ⟨?_, fun k s e hs he => ?_, fun e he hstays => ?_⟩
        · cases hs : lastOf key used (key x) with
          | none => exact hself x List.mem_cons_self (.inr hs)
          | some s => exact hlast _ s x hs (by rw [firstOf_cons, if_pos rfl])
        · rw [lastOf_filter, Option.ite_none_left_eq_some] at hs
          exact hlast k s e hs.2 (by rw [firstOf_cons, if_neg (Ne.symm hs.1), he])
        · refine hself e (List.mem_cons_of_mem _ he) ?_
          rw [behindFirst_cons]
          rw [lastOf_filter] at hstays
          split
          · exact .inl (List.count_pos_iff.mpr he)
          · rename_i hk
            rwa [if_neg (Ne.symm hk)] at hstays

end KeyedReplace
