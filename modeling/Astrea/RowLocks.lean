/-
# Transactions under row locks

A transaction is a sequence of statements.  A statement first locks the row it finds, if it
finds one, waiting while another transaction holds it; then it writes, and what it has read
decides how the transaction goes on.  Its writes are its own until it commits, and its locks
stay until it ends.

A locking discipline says which row a call may lock next, given those it holds.  Programs
are checked against it once (`Txn.Keeps`), and every state of every run is then orderly
(`Step.orderly`): each transaction has locked its rows in an allowed order, wants only an
allowed one next, and no row has two holders.  A measure that grows along every wait in the
middle of a chain of waits excludes a deadlock (`not_deadlocked`).
-/
import Astrea.KeyTable
import Astrea.LabelledRun
import Mathlib.Logic.Relation
import Mathlib.Order.Basic

namespace RowLocks

variable {σ ρ ε κ : Type}

/-! ## Transactions -/

/-- What is left of a transaction: `row` is the row a statement locks in what the transaction
sees, `write` its effect. -/
inductive Txn (σ ρ ε : Type) where
  | commit
  | rollback (e : ε)
  | stmt (row : σ → Option ρ) (write : σ → σ) (next : σ → Txn σ ρ ε)

/-- The outcome of a transaction that nothing interrupts. -/
def Txn.alone (s : σ) : Txn σ ρ ε → Except ε σ
  | .commit => .ok s
  | .rollback e => .error e
  | .stmt _ write next => (next s).alone (write s)

/-- A transaction under way: the call it carries out, its writes so far, the rows it holds,
newest first, and what is left of it. -/
structure Live (σ ρ ε κ : Type) where
  call : κ
  pending : σ → σ
  held : List ρ
  rest : Txn σ ρ ε

/-- What is committed, and the transactions under way. -/
structure State (σ ρ ε κ : Type) where
  store : σ
  live : KeyTable ℕ (Live σ ρ ε κ)

namespace State

/-- No other transaction holds the row. -/
def Free (s : State σ ρ ε κ) (t : ℕ) (r : ρ) : Prop :=
  ∀ e ∈ s.live.entries, e.1 ≠ t → r ∉ e.2.held

instance [DecidableEq ρ] (s : State σ ρ ε κ) (t : ℕ) (r : ρ) : Decidable (s.Free t r) :=
  inferInstanceAs (Decidable (∀ e ∈ s.live.entries, _))

/-- The row the next statement of a transaction locks. -/
def wants (s : State σ ρ ε κ) (t : ℕ) : Option ρ :=
  match s.live.lookup t with
  | some ⟨_, pending, _, .stmt row _ _⟩ => row (pending s.store)
  | _ => none

/-- Transaction `t` waits for a row that `u` holds. -/
def Waits (s : State σ ρ ε κ) (t u : ℕ) : Prop :=
  u ≠ t ∧ ∃ r ∈ s.wants t, ∃ l ∈ s.live.lookup u, r ∈ l.held

instance [DecidableEq ρ] (s : State σ ρ ε κ) (t u : ℕ) : Decidable (s.Waits t u) :=
  inferInstanceAs (Decidable (u ≠ t ∧ _))

/-- Transactions wait for each other in a circle. -/
def Deadlocked (s : State σ ρ ε κ) : Prop := ∃ t, Relation.TransGen s.Waits t t

end State

/-! ## Steps -/

/-- What happens: a transaction begins, its next statement runs, it ends, or it is aborted. -/
inductive Label (κ : Type) where
  | begin (t : ℕ) (call : κ)
  | advance (t : ℕ)
  | finish (t : ℕ)
  | abort (t : ℕ)

namespace State

/-- The state once a transaction has come to `l`. -/
def setLive (s : State σ ρ ε κ) (t : ℕ) (l : Live σ ρ ε κ) : State σ ρ ε κ :=
  { s with live := s.live.insert t l }

/-- The state once a transaction is gone. -/
def dropLive (s : State σ ρ ε κ) (t : ℕ) : State σ ρ ε κ := { s with live := s.live.erase t }

end State

/-- One step of the database. -/
inductive Step (prog : κ → Txn σ ρ ε) : State σ ρ ε κ → Label κ → State σ ρ ε κ → Prop
  | begin {s : State σ ρ ε κ} {t : ℕ} {call : κ} (new : s.live.lookup t = none) :
      Step prog s (.begin t call) (s.setLive t ⟨call, id, [], prog call⟩)
  | advance {s : State σ ρ ε κ} {t : ℕ} {call : κ} {pending : σ → σ} {held : List ρ}
      {row : σ → Option ρ} {write : σ → σ} {next : σ → Txn σ ρ ε}
      (live : s.live.lookup t = some ⟨call, pending, held, .stmt row write next⟩)
      (free : ∀ r ∈ row (pending s.store), s.Free t r) :
      Step prog s (.advance t) (s.setLive t ⟨call, write ∘ pending,
        (row (pending s.store)).toList ++ held, next (pending s.store)⟩)
  | commit {s : State σ ρ ε κ} {t : ℕ} {call : κ} {pending : σ → σ} {held : List ρ}
      (live : s.live.lookup t = some ⟨call, pending, held, .commit⟩) :
      Step prog s (.finish t) ⟨pending s.store, s.live.erase t⟩
  | rollback {s : State σ ρ ε κ} {t : ℕ} {call : κ} {pending : σ → σ} {held : List ρ} {e : ε}
      (live : s.live.lookup t = some ⟨call, pending, held, .rollback e⟩) :
      Step prog s (.finish t) (s.dropLive t)
  | abort {s : State σ ρ ε κ} {t : ℕ} {l : Live σ ρ ε κ} (live : s.live.lookup t = some l) :
      Step prog s (.abort t) (s.dropLive t)

/-- The step a label asks for, when it is possible. -/
def move [DecidableEq ρ] (prog : κ → Txn σ ρ ε) (s : State σ ρ ε κ) : Label κ → Option (State σ ρ ε κ)
  | .begin t call =>
      match s.live.lookup t with
      | none => some (s.setLive t ⟨call, id, [], prog call⟩)
      | some _ => none
  | .advance t =>
      match s.live.lookup t with
      | some ⟨call, pending, held, .stmt row write next⟩ =>
          if ∀ r ∈ row (pending s.store), s.Free t r then
            some (s.setLive t ⟨call, write ∘ pending,
              (row (pending s.store)).toList ++ held, next (pending s.store)⟩)
          else none
      | _ => none
  | .finish t =>
      match s.live.lookup t with
      | some ⟨_, pending, _, .commit⟩ => some ⟨pending s.store, s.live.erase t⟩
      | some ⟨_, _, _, .rollback _⟩ => some (s.dropLive t)
      | _ => none
  | .abort t =>
      match s.live.lookup t with
      | some _ => some (s.dropLive t)
      | none => none

variable {prog : κ → Txn σ ρ ε} {s s' : State σ ρ ε κ} {l : Label κ}

theorem Step.of_move [DecidableEq ρ] (h : move prog s l = some s') : Step prog s l s' := by
  cases l with
  | begin t call =>
      simp only [move] at h
      split at h
      · rename_i hnew
        cases h
        exact .begin hnew
      · exact nomatch h
  | advance t =>
      simp only [move] at h
      split at h
      · rename_i hlive
        rw [Option.ite_none_right_eq_some] at h
        obtain ⟨hfree, h⟩ := h
        cases h
        exact .advance hlive hfree
      · exact nomatch h
  | finish t =>
      simp only [move] at h
      split at h
      · rename_i hlive
        cases h
        exact .commit hlive
      · rename_i hlive
        cases h
        exact .rollback hlive
      · exact nomatch h
  | abort t =>
      simp only [move] at h
      split at h
      · rename_i hlive
        cases h
        exact .abort hlive
      · exact nomatch h

/-- The transactions after one has come to `l`. -/
theorem State.lookup_setLive_eq_some {t u : ℕ} {l m : Live σ ρ ε κ} :
    (s.setLive t l).live.lookup u = some m ↔
      (u = t ∧ m = l) ∨ (u ≠ t ∧ s.live.lookup u = some m) :=
  KeyTable.lookup_insert_eq_some

/-- The transactions after one is gone. -/
theorem State.lookup_erase_eq_some {t u : ℕ} {m : Live σ ρ ε κ} :
    (s.live.erase t).lookup u = some m ↔ u ≠ t ∧ s.live.lookup u = some m := by
  by_cases h : u = t
  · subst h
    simp
  · simp [h]

/-- A row that is free for a transaction is not held by another. -/
theorem State.Free.not_mem {t u : ℕ} {r : ρ} {m : Live σ ρ ε κ} (h : s.Free t r)
    (hu : s.live.lookup u = some m) (hne : u ≠ t) : r ∉ m.held :=
  h ⟨u, m⟩ (AList.mem_lookup_iff.mp hu) hne

/-! ## Locking disciplines -/

section Discipline

variable {view : σ → Prop} {allowed : κ → List ρ → ρ → Prop} {call : κ}

/-- The program locks rows in an allowed order and leaves the store fit to be seen, where
`acc` is what it has written and `held` what it has locked so far. -/
def Txn.Keeps (view : σ → Prop) (allowed : List ρ → ρ → Prop) :
    List ρ → (σ → σ) → Txn σ ρ ε → Prop
  | _, acc, .commit => ∀ s, view s → view (acc s)
  | _, _, .rollback _ => True
  | held, acc, .stmt row write next => ∀ s, view s → (∀ r ∈ row (acc s), allowed held r) ∧
      Txn.Keeps view allowed ((row (acc s)).toList ++ held) (write ∘ acc) (next (acc s))

/-- Rows that have been locked in an allowed order, newest first. -/
inductive Built (allowed : List ρ → ρ → Prop) : List ρ → Prop
  | nil : Built allowed []
  | cons {r : ρ} {held : List ρ} (ok : allowed held r) (built : Built allowed held) :
      Built allowed (r :: held)

theorem Built.append {allowed : List ρ → ρ → Prop} {o : Option ρ} {held : List ρ}
    (h : Built allowed held) (ho : ∀ r ∈ o, allowed held r) :
    Built allowed (o.toList ++ held) := by
  cases o with
  | none => exact h
  | some r => exact .cons (ho r rfl) h

/-- What holds in every reachable state: the store is fit to be seen, every transaction
follows the discipline, and no row has two holders. -/
structure Orderly (view : σ → Prop) (allowed : κ → List ρ → ρ → Prop)
    (s : State σ ρ ε κ) : Prop where
  seen : view s.store
  built : ∀ t l, s.live.lookup t = some l → Built (allowed l.call) l.held
  keeps : ∀ t l, s.live.lookup t = some l →
    Txn.Keeps view (allowed l.call) l.held l.pending l.rest
  exclusive : ∀ t u l m, s.live.lookup t = some l → s.live.lookup u = some m → u ≠ t →
    ∀ r ∈ l.held, r ∉ m.held

theorem Orderly.empty {db : σ} (h : view db) :
    Orderly view allowed (⟨db, ∅⟩ : State σ ρ ε κ) where
  seen := h
  built _ _ hl := nomatch hl
  keeps _ _ hl := nomatch hl
  exclusive _ _ _ _ hl := nomatch hl

/-- A transaction comes to `l`, which follows the discipline and holds only free rows besides
those it held. -/
theorem Orderly.setLive {t : ℕ} {l : Live σ ρ ε κ} (h : Orderly view allowed s)
    (hbuilt : Built (allowed l.call) l.held)
    (hkeeps : Txn.Keeps view (allowed l.call) l.held l.pending l.rest)
    (hfree : ∀ u m, s.live.lookup u = some m → u ≠ t → ∀ r ∈ l.held, r ∉ m.held) :
    Orderly view allowed (s.setLive t l) := by
  refine ⟨h.seen, ?_, ?_, ?_⟩
  · intro u m hu
    rcases State.lookup_setLive_eq_some.mp hu with ⟨-, rfl⟩ | ⟨-, hu⟩
    · exact hbuilt
    · exact h.built u m hu
  · intro u m hu
    rcases State.lookup_setLive_eq_some.mp hu with ⟨-, rfl⟩ | ⟨-, hu⟩
    · exact hkeeps
    · exact h.keeps u m hu
  · intro u v m n hu hv hne r hr
    rcases State.lookup_setLive_eq_some.mp hu with ⟨rfl, rfl⟩ | ⟨hut, hold⟩
    · rcases State.lookup_setLive_eq_some.mp hv with ⟨rfl, -⟩ | ⟨-, hv⟩
      · exact absurd rfl hne
      · exact hfree v n hv hne r hr
    · rcases State.lookup_setLive_eq_some.mp hv with ⟨rfl, rfl⟩ | ⟨-, hv⟩
      · exact fun hr' => hfree u m hold hut r hr' hr
      · exact h.exclusive u v m n hold hv hne r hr

/-- A transaction is gone, and the store it leaves is fit to be seen. -/
theorem Orderly.drop {t : ℕ} {db : σ} (h : Orderly view allowed s) (hdb : view db) :
    Orderly view allowed ⟨db, s.live.erase t⟩ := by
  refine ⟨hdb, ?_, ?_, ?_⟩
  · intro u m hu
    exact h.built u m (State.lookup_erase_eq_some.mp hu).2
  · intro u m hu
    exact h.keeps u m (State.lookup_erase_eq_some.mp hu).2
  · intro u v m n hu hv
    exact h.exclusive u v m n (State.lookup_erase_eq_some.mp hu).2
      (State.lookup_erase_eq_some.mp hv).2

/-- The calls that a step begins are fit. -/
def Label.Fit (fit : κ → Prop) : Label κ → Prop
  | .begin _ call => fit call
  | _ => True

instance {fit : κ → Prop} [DecidablePred fit] : (l : Label κ) → Decidable (l.Fit fit)
  | .begin _ call => inferInstanceAs (Decidable (fit call))
  | .advance _ => isTrue True.intro
  | .finish _ => isTrue True.intro
  | .abort _ => isTrue True.intro

/-- Every step keeps the transactions in order, when the programs of fit calls follow the
discipline. -/
theorem Step.orderly {fit : κ → Prop}
    (hprog : ∀ call, fit call → (prog call).Keeps view (allowed call) [] id)
    (hs : Orderly view allowed s) (hl : l.Fit fit) (h : Step prog s l s') :
    Orderly view allowed s' := by
  cases h with
  | begin new => exact hs.setLive .nil (hprog _ hl) fun _ _ _ _ _ hr => nomatch hr
  | advance live free =>
      obtain ⟨hallowed, hnext⟩ := hs.keeps _ _ live s.store hs.seen
      refine hs.setLive ((hs.built _ _ live).append hallowed) hnext ?_
      intro u m hu hne r hr
      rcases List.mem_append.mp hr with hr | hr
      · exact (free r (Option.mem_toList.mp hr)).not_mem hu hne
      · exact hs.exclusive _ u _ m live hu hne r hr
  | commit live => exact hs.drop (hs.keeps _ _ live s.store hs.seen)
  | rollback live => exact hs.drop hs.seen
  | abort live => exact hs.drop hs.seen

/-- A row that a transaction wants is one it may lock. -/
theorem Orderly.wants_allowed {t : ℕ} {r : ρ} (hs : Orderly view allowed s)
    (h : s.wants t = some r) :
    ∃ l, s.live.lookup t = some l ∧ allowed l.call l.held r := by
  unfold State.wants at h
  split at h
  · rename_i hlive
    exact ⟨_, hlive, (hs.keeps _ _ hlive s.store hs.seen).1 r h⟩
  · exact nomatch h

end Discipline

/-! ## Calls kept apart -/

section Apart

variable {clash : κ → κ → Prop}

/-- When a transaction takes its first lock, no transaction whose call clashes with its own
holds one. -/
def State.Apart (clash : κ → κ → Prop) (s : State σ ρ ε κ) : Label κ → Prop
  | .advance t => ∀ l ∈ s.live.lookup t, l.held = [] → s.wants t ≠ none →
      ∀ e ∈ s.live.entries, e.2.held ≠ [] → ¬ clash l.call e.2.call
  | _ => True

instance [DecidableRel clash] (s : State σ ρ ε κ) : (l : Label κ) → Decidable (s.Apart clash l)
  | .begin .. => isTrue True.intro
  | .advance t => inferInstanceAs (Decidable (∀ l ∈ s.live.lookup t, _))
  | .finish _ => isTrue True.intro
  | .abort _ => isTrue True.intro

/-- No two transactions that hold locks clash. -/
def KeptApart (clash : κ → κ → Prop) (s : State σ ρ ε κ) : Prop :=
  ∀ t u l m, s.live.lookup t = some l → s.live.lookup u = some m → u ≠ t →
    l.held ≠ [] → m.held ≠ [] → ¬ clash l.call m.call

theorem KeptApart.drop {t : ℕ} {db : σ} (h : KeptApart clash s) :
    KeptApart clash ⟨db, s.live.erase t⟩ := by
  intro u v m n hu hv
  exact h u v m n (State.lookup_erase_eq_some.mp hu).2 (State.lookup_erase_eq_some.mp hv).2

/-- A transaction comes to `l`, which clashes with no other that holds locks. -/
theorem KeptApart.setLive {t : ℕ} {l : Live σ ρ ε κ} (hsymm : ∀ c c', clash c c' → clash c' c)
    (h : KeptApart clash s)
    (hl : l.held ≠ [] → ∀ u m, s.live.lookup u = some m → u ≠ t → m.held ≠ [] →
      ¬ clash l.call m.call) : KeptApart clash (s.setLive t l) := by
  intro u v m n hu hv hne hheld hheld'
  rcases State.lookup_setLive_eq_some.mp hu with ⟨rfl, rfl⟩ | ⟨hut, hold⟩
  · rcases State.lookup_setLive_eq_some.mp hv with ⟨rfl, -⟩ | ⟨-, hv⟩
    · exact absurd rfl hne
    · exact hl hheld v n hv hne hheld'
  · rcases State.lookup_setLive_eq_some.mp hv with ⟨rfl, rfl⟩ | ⟨-, hv⟩
    · exact fun hc => hl hheld' u m hold hut hheld (hsymm _ _ hc)
    · exact h u v m n hold hv hne hheld hheld'

/-- Steps that are apart keep apart all transactions that hold locks. -/
theorem Step.keptApart (hsymm : ∀ c c', clash c c' → clash c' c) (hs : KeptApart clash s)
    (hl : s.Apart clash l) (h : Step prog s l s') : KeptApart clash s' := by
  cases h with
  | begin new => exact hs.setLive hsymm fun hheld => absurd rfl hheld
  | @advance t call pending held row write next live free =>
      refine hs.setLive hsymm fun hheld u m hu hne hm => ?_
      by_cases hempty : held = []
      · refine hl _ live hempty ?_ ⟨u, m⟩ (AList.mem_lookup_iff.mp hu) hm
        intro hnone
        simp only [State.wants, live] at hnone
        simp [hempty, hnone] at hheld
      · exact hs t u ⟨call, pending, held, .stmt row write next⟩ m live hu hne hempty hm
  | commit live => exact hs.drop
  | rollback live => exact hs.drop
  | abort live => exact hs.drop

end Apart

/-! ## Deadlocks -/

/-- A measure that grows along every wait that has one before it and one after it excludes
a deadlock. -/
theorem not_deadlocked {α : Type} [Preorder α] {φ : ℕ → α}
    (h : ∀ w t u v, s.Waits w t → s.Waits t u → s.Waits u v → φ t < φ u) :
    ¬ s.Deadlocked := by
  -- a path of waits with one before it and one after it climbs
  have hpath : ∀ t u, Relation.TransGen s.Waits t u → (∃ w, s.Waits w t) →
      (∃ v, s.Waits u v) → φ t < φ u := by
    intro t u hpath
    induction hpath with
    | single hwait => exact fun ⟨w, hw⟩ ⟨v, hv⟩ => h w _ _ v hw hwait hv
    | tail hpath hwait ih =>
        rintro hbefore ⟨v, hv⟩
        obtain ⟨x, -, hx⟩ := Relation.TransGen.tail'_iff.mp hpath
        exact lt_trans (ih hbefore ⟨_, hwait⟩) (h x _ _ v hx hwait hv)
  rintro ⟨t, hcycle⟩
  obtain ⟨w, -, hw⟩ := Relation.TransGen.tail'_iff.mp hcycle
  obtain ⟨v, hv, -⟩ := Relation.TransGen.head'_iff.mp hcycle
  exact lt_irrefl _ (hpath t t hcycle ⟨w, hw⟩ ⟨v, hv⟩)

end RowLocks
