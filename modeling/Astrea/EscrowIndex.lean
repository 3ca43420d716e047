/-
# The index of events

Every organizer has a count and, below it, one index entry per created event.  The two are
separate storage keys that only creation writes; what they say after a run is the list of the
ids the organizer created, in order, and the reads answer that list and its slices.
-/
import Astrea.EscrowDisposition
import Astrea.ListBlocks

open Guard KeyTable ListBlocks

namespace Escrow

variable {own : Address}

/-- The id a transition creates for an organizer. -/
def createdBy (admin : Address) (t : Transition State (Label own)) : Option EventId :=
  match t.label with
  | .call _ call =>
      call.creation?.bind fun c => if c.admin = admin then some c.eventId else none
  | _ => none

/-- The ids an organizer created in a run, in order. -/
def createdIds (admin : Address) (tr : List (Transition State (Label own))) : List EventId :=
  tr.filterMap (createdBy admin)

/-- The count and the index of an organizer hold the list `ids`, without repetition, and it
lists the organizer's stored events. -/
structure Indexed (admin : Address) (s : State) (ids : List EventId) : Prop where
  count : (getEventsByAdminCount s admin).toNat = ids.length
  entry : ∀ k (h : k < ids.length), s.eventIndex.lookup (admin, UInt32.ofNat k) = some ids[k]
  nodup : ids.Nodup
  lists : ∀ i, i ∈ ids ↔ ∃ e, s.event.lookup i = some e ∧ e.admin = admin

/-! ## What writes the index -/

theorem checkedSucc_eq_some {count next : UInt32} (h : checkedSucc count = some next) :
    next.toNat = count.toNat + 1 := by
  unfold checkedSucc at h
  split at h
  · rename_i hlt
    rw [← Option.some_inj.mp h, UInt32.toNat_add]
    have hone : UInt32.toNat 1 = 1 := rfl
    omega
  · exact nomatch h

/-- What a successful creation writes: the event under a fresh id, the next count, and the
index entry at the old count. -/
theorem exec_creation {env : Env own} {s s' : State} {call : Call} {c : Creation}
    (hc : call.creation? = some c) (h : exec env s call = .ok s') :
    s.event.lookup c.eventId = none ∧ ∃ next e, e.admin = c.admin ∧
      checkedSucc (getEventsByAdminCount s c.admin) = some next ∧
      s'.event = s.event.insert c.eventId e ∧
      s'.eventsCount = s.eventsCount.insert c.admin next ∧
      s'.eventIndex
        = s.eventIndex.insert (c.admin, getEventsByAdminCount s c.admin) c.eventId := by
  cases call with
  | createEvent admin judge resolver token reward eventId =>
      obtain rfl := Option.some_inj.mp hc
      obtain ⟨⟨t, i⟩, hcreate, ht⟩ := bind_eq_ok.mp h
      obtain rfl := pure_eq_ok.mp ht
      obtain ⟨-, -, -, -, -, hnew, w, balance, r, next, -, -, -, -, -, hnext, rfl, -⟩ :=
        createEventInternal_eq_ok.mp hcreate
      exact ⟨hnew, next, _, rfl, hnext, rfl, rfl, rfl⟩
  | createEventWithDeadline admin judge resolver token reward eventId deadline =>
      obtain rfl := Option.some_inj.mp hc
      obtain ⟨⟨t, i⟩, hcreate, ht⟩ := bind_eq_ok.mp h
      obtain rfl := pure_eq_ok.mp ht
      obtain ⟨-, -, -, -, -, hnew, w, balance, r, next, -, -, -, -, -, hnext, rfl, -⟩ :=
        createEventInternal_eq_ok.mp hcreate
      exact ⟨hnew, next, _, rfl, hnext, rfl, rfl, rfl⟩
  | _ => exact nomatch hc

/-- Every other call leaves counts and index. -/
theorem Effect.index_eq {env : Env own} {s s' : State} {call : Call}
    (h : Effect env s call s') (hc : call.creation? = none) :
    s'.eventsCount = s.eventsCount ∧ s'.eventIndex = s.eventIndex := by
  cases h with
  | create call_eq => exact nomatch hc.symm.trans call_eq
  | _ => exact ⟨rfl, rfl⟩

/-- Every other call leaves the stored ids and their organizers. -/
theorem exec_keeps_owners {env : Env own} {s s' : State} {call : Call}
    (h : exec env s call = .ok s') (hc : call.creation? = none) (i : EventId)
    (admin : Address) : (∃ e, s'.event.lookup i = some e ∧ e.admin = admin) ↔
      ∃ e, s.event.lookup i = some e ∧ e.admin = admin := by
  have hmove := (exec_effect h).eventMove i
  cases he : s.event.lookup i with
  | some e =>
      obtain ⟨e', he', hterms, -⟩ := (Step.call h).follows he
      rw [he']
      simp only [Option.some_inj, exists_eq_left', hterms.1]
  | none =>
      rw [he] at hmove
      generalize s'.event.lookup i = o at hmove
      cases hmove with
      | untouched => rfl
      | create call_eq => exact nomatch hc.symm.trans call_eq

/-! ## The index along a run -/

theorem Indexed.of_eq {admin : Address} {s s' : State} {ids : List EventId}
    (h : Indexed admin s ids) (hcount : s'.eventsCount = s.eventsCount)
    (hindex : s'.eventIndex = s.eventIndex)
    (howners : ∀ i, (∃ e, s'.event.lookup i = some e ∧ e.admin = admin) ↔
      ∃ e, s.event.lookup i = some e ∧ e.admin = admin) : Indexed admin s' ids := by
  refine ⟨?_, ?_, h.nodup, ?_⟩
  · rw [getEventsByAdminCount, hcount]
    exact h.count
  · rw [hindex]
    exact h.entry
  · intro i
    rw [howners]
    exact h.lists i

/-- The organizer's own creation appends its id. -/
theorem Indexed.append {s s' : State} {c : Creation} {ids : List EventId} {next : UInt32}
    {e : Event} (h : Indexed c.admin s ids) (hfresh : s.event.lookup c.eventId = none)
    (hadm : e.admin = c.admin)
    (hnext : checkedSucc (getEventsByAdminCount s c.admin) = some next)
    (hevent : s'.event = s.event.insert c.eventId e)
    (hcount : s'.eventsCount = s.eventsCount.insert c.admin next)
    (hindex : s'.eventIndex
      = s.eventIndex.insert (c.admin, getEventsByAdminCount s c.admin) c.eventId) :
    Indexed c.admin s' (ids ++ [c.eventId]) := by
  -- an id in the list has an event, and the new id has none
  have hnew : c.eventId ∉ ids := by
    intro hmem
    obtain ⟨e', he', -⟩ := (h.lists _).mp hmem
    exact nomatch hfresh.symm.trans he'
  have hlast : UInt32.ofNat ids.length = getEventsByAdminCount s c.admin := by
    rw [← h.count, UInt32.ofNat_toNat]
  have hlt : ids.length < 4294967296 := by
    rw [← h.count]
    exact UInt32.toNat_lt _
  refine ⟨?_, ?_, ?_, ?_⟩
  · rw [getEventsByAdminCount, hcount, AList.lookup_insert, Option.getD_some,
      checkedSucc_eq_some hnext, h.count, List.length_append, List.length_singleton]
  · intro k hk
    rw [List.length_append, List.length_singleton] at hk
    rw [hindex]
    by_cases hend : k = ids.length
    · subst hend
      rw [hlast, AList.lookup_insert, List.getElem_concat_length rfl]
    · -- the entries below the old count stay
      have hne : (c.admin, UInt32.ofNat k) ≠ (c.admin, getEventsByAdminCount s c.admin) := by
        intro heq
        have htoNat := congrArg UInt32.toNat ((Prod.mk.inj heq).2.trans hlast.symm)
        have hkt : k < UInt32.size := by
          show k < 4294967296
          omega
        rw [UInt32.toNat_ofNat_of_lt' hkt, UInt32.toNat_ofNat_of_lt' hlt] at htoNat
        exact hend htoNat
      rw [AList.lookup_insert_ne hne, h.entry k (by omega), List.getElem_append_left]
  · rw [List.nodup_append]
    refine ⟨h.nodup, List.nodup_singleton _, ?_⟩
    intro i hi j hj
    rw [List.mem_singleton.mp hj]
    rintro rfl
    exact hnew hi
  · intro i
    rw [List.mem_append, List.mem_singleton, h.lists, hevent]
    by_cases hi : i = c.eventId
    · subst hi
      simp only [or_true, AList.lookup_insert, Option.some_inj, exists_eq_left', hadm]
    · rw [AList.lookup_insert_ne hi]
      simp only [hi, or_false]

/-- Another organizer's creation changes neither. -/
theorem Indexed.of_other {admin : Address} {s s' : State} {c : Creation} {ids : List EventId}
    {next : UInt32} {e : Event} (h : Indexed admin s ids) (hne : c.admin ≠ admin)
    (hfresh : s.event.lookup c.eventId = none) (hadm : e.admin = c.admin)
    (hevent : s'.event = s.event.insert c.eventId e)
    (hcount : s'.eventsCount = s.eventsCount.insert c.admin next)
    (hindex : s'.eventIndex
      = s.eventIndex.insert (c.admin, getEventsByAdminCount s c.admin) c.eventId) :
    Indexed admin s' ids := by
  refine ⟨?_, ?_, h.nodup, ?_⟩
  · rw [getEventsByAdminCount, hcount, AList.lookup_insert_ne hne.symm]
    exact h.count
  · intro k hk
    rw [hindex, AList.lookup_insert_ne fun heq => hne (Prod.mk.inj heq).1.symm]
    exact h.entry k hk
  · intro i
    rw [h.lists, hevent]
    by_cases hi : i = c.eventId
    · subst hi
      simp only [AList.lookup_insert, Option.some_inj, exists_eq_left', hadm, hne, hfresh,
        reduceCtorEq, false_and, exists_false]
    · rw [AList.lookup_insert_ne hi]

/-- The index of an organizer after a run is the list of the ids the organizer created. -/
theorem EscrowRun.indexed {b : Balances} {tr : List (Transition State (Label own))}
    {s : State} (hr : EscrowRun own b tr s) (admin : Address) :
    Indexed admin s (createdIds admin tr) := by
  refine hr.history (H := fun tr s => Indexed admin s (createdIds admin tr)) ?_ ?_
  · refine ⟨rfl, ?_, List.nodup_nil, ?_⟩
    · intro k hk
      exact absurd hk (Nat.not_lt_zero k)
    · intro i
      constructor
      · intro hmem
        exact nomatch hmem
      · rintro ⟨e, he, -⟩
        exact nomatch he
  · intro tr s l s' _ hH hstep
    have happend : createdIds admin (tr ++ [⟨s, l, s'⟩])
        = createdIds admin tr ++ (createdBy admin ⟨s, l, s'⟩).toList := by
      rw [createdIds, List.filterMap_append, createdIds]
      congr 1
    rw [happend]
    cases hstep with
    | @call _ env call ok =>
        cases hc : call.creation? with
        | none =>
            have hnone : createdBy admin (⟨s, .call env call, s'⟩ : Transition State (Label own))
                = none := by simp only [createdBy, hc, Option.bind_none]
            obtain ⟨hcount, hindex⟩ := (exec_effect ok).index_eq hc
            rw [hnone, Option.toList_none, List.append_nil]
            exact hH.of_eq hcount hindex fun i => exec_keeps_owners ok hc i admin
        | some c =>
            obtain ⟨hfresh, next, e, hadm, hnext, hevent, hcount, hindex⟩ := exec_creation hc ok
            by_cases hmine : c.admin = admin
            · subst hmine
              have hthis : createdBy c.admin
                  (⟨s, .call env call, s'⟩ : Transition State (Label own)) = some c.eventId := by
                simp only [createdBy, hc, Option.bind_some, if_true]
              rw [hthis]
              exact hH.append hfresh hadm hnext hevent hcount hindex
            · have hnone : createdBy admin
                  (⟨s, .call env call, s'⟩ : Transition State (Label own)) = none := by
                simp only [createdBy, hc, Option.bind_some, hmine, if_false]
              rw [hnone, Option.toList_none, List.append_nil]
              exact hH.of_other hmine hfresh hadm hevent hcount hindex
    | reverted error =>
        exact (List.append_nil _).symm ▸ hH
    | ledger grows =>
        exact (List.append_nil _).symm ▸ hH.of_eq rfl rfl fun i => Iff.rfl

/-! ## The reads -/

/-- Reading `n` entries from position `i` on answers that stretch of the list. -/
theorem Indexed.readIndex {admin : Address} {s : State} {ids : List EventId}
    (h : Indexed admin s ids) {i n : ℕ} (hle : i + n ≤ ids.length) :
    readIndex s admin i n = .ok ((ids.drop i).take n) := by
  induction n generalizing i with
  | zero => rw [List.take_zero]; rfl
  | succ n ih =>
      have hi : i < ids.length := by omega
      have hrest := ih (i := i + 1) (by omega)
      rw [Escrow.readIndex, h.entry i hi, hrest, List.drop_eq_getElem_cons hi, List.take_succ_cons]
      rfl

/-- The full read answers the whole list. -/
theorem Indexed.getEventsByAdmin {admin : Address} {s : State} {ids : List EventId}
    (h : Indexed admin s ids) : getEventsByAdmin s admin = .ok ids := by
  rw [Escrow.getEventsByAdmin, h.count, h.readIndex (by omega), List.drop_zero,
    List.take_length]

/-- A page answers its slice, also past the end and where the end does not fit a `u32`. -/
theorem Indexed.getEventsByAdminPage {admin : Address} {s : State} {ids : List EventId}
    (h : Indexed admin s ids) (offset limit : UInt32) :
    getEventsByAdminPage s admin offset limit
      = .ok ((ids.drop offset.toNat).take limit.toNat) := by
  have hlt : ids.length < 4294967296 := by
    rw [← h.count]
    exact UInt32.toNat_lt _
  -- saturation does not show: the count is below the largest `u32`
  have hstop : (if min (offset.toNat + limit.toNat) 4294967295 < ids.length
      then min (offset.toNat + limit.toNat) 4294967295 else ids.length)
        = min (offset.toNat + limit.toNat) ids.length := by
    split <;> omega
  simp only [Escrow.getEventsByAdminPage, h.count, hstop]
  by_cases hend : offset.toNat ≤ ids.length
  · rw [h.readIndex (by omega), take_window]
  · have hzero : min (offset.toNat + limit.toNat) ids.length - offset.toNat = 0 := by omega
    rw [hzero, List.drop_eq_nil_of_le (by omega), List.take_nil]
    rfl

/-- The index of every organizer is sound after every run: the entries below the count are
the ids the organizer created, in creation order, without repetition, and are exactly the
stored events of the organizer.  So the full read never traps and answers them, every page
answers its slice, and the pages at the multiples of a positive limit, as far as these are
`u32`s, add up to the full read once they reach the count. -/
theorem event_index_integrity {b : Balances} {tr : List (Transition State (Label own))}
    {s : State} (hr : EscrowRun own b tr s) (admin : Address) :
    Indexed admin s (createdIds admin tr) ∧
    getEventsByAdmin s admin = .ok (createdIds admin tr) ∧
    (∀ offset limit, getEventsByAdminPage s admin offset limit
      = .ok (((createdIds admin tr).take
        (min (offset.toNat + limit.toNat) (getEventsByAdminCount s admin).toNat)).drop
          offset.toNat)) ∧
    (∀ (limit : UInt32) n, 0 < limit.toNat → (∀ k < n, k * limit.toNat < 4294967296) →
      (getEventsByAdminCount s admin).toNat ≤ n * limit.toNat →
      ∃ pages, (List.range n).mapM (fun k => getEventsByAdminPage s admin
          (UInt32.ofNat (k * limit.toNat)) limit) = .ok pages ∧
        getEventsByAdmin s admin = .ok pages.flatten) := by
  have hindexed := hr.indexed admin
  refine ⟨hindexed, hindexed.getEventsByAdmin, ?_, ?_⟩
  · intro offset limit
    rw [hindexed.getEventsByAdminPage, hindexed.count, List.drop_take, take_window]
  · intro limit n hpos hfit hreach
    have hpage : ∀ k ∈ List.range n, getEventsByAdminPage s admin
        (UInt32.ofNat (k * limit.toNat)) limit
          = .ok (((createdIds admin tr).drop (k * limit.toNat)).take limit.toNat) := by
      intro k hk
      rw [hindexed.getEventsByAdminPage,
        UInt32.toNat_ofNat_of_lt' (hfit k (List.mem_range.mp hk))]
    refine ⟨_, mapM_eq_ok hpage, ?_⟩
    rw [flatten_blocks, List.take_of_length_le (hindexed.count ▸ hreach)]
    exact hindexed.getEventsByAdmin

/-- Two events of one organizer, with another one's in between. -/
def Sample.indexScript : List (Env Sample.escrow × Call) :=
  [(Sample.env 1 [Sample.organizer], .depositFunds Sample.organizer Sample.token (.ofNat 1000)),
   (Sample.env 2 [Sample.organizer], .createEvent Sample.organizer Sample.judge
     (some Sample.resolver) Sample.token (.ofNat 100) 9),
   (Sample.env 3 [Sample.organizer], .createEvent Sample.organizer Sample.judge
     (some Sample.resolver) Sample.token (.ofNat 100) 4),
   (Sample.env 4 [Sample.organizer], .createEvent Sample.organizer Sample.judge
     (some Sample.resolver) Sample.token (.ofNat 100) 7)]

def Sample.indexed : State :=
  okOf (play (genesis Sample.balances) Sample.indexScript) (by decide +kernel)

/-- The index of the sample organizer, in full and by a page whose end overflows. -/
theorem event_index_integrity_sample : ∃ tr,
    EscrowRun Sample.escrow Sample.balances tr Sample.indexed ∧
    getEventsByAdmin Sample.indexed Sample.organizer = .ok (createdIds Sample.organizer tr) ∧
    createdIds Sample.organizer tr = [9, 4, 7] ∧
    getEventsByAdminPage Sample.indexed Sample.organizer 1 4294967295 = .ok [4, 7] := by
  have hrun := play_run (okOf_eq (r := play (genesis Sample.balances) Sample.indexScript)
    (by decide +kernel))
  have h := event_index_integrity hrun Sample.organizer
  have hids : createdIds Sample.organizer (playTrace (genesis Sample.balances)
      Sample.indexScript) = [9, 4, 7] := by decide +kernel
  refine ⟨_, hrun, h.2.1, hids, ?_⟩
  refine (h.2.2.1 1 4294967295).trans ?_
  rw [hids]
  decide +kernel

end Escrow
