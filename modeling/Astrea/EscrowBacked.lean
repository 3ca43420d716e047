/-
# What a live event backs

Creation demands a positive reward, an emergency withdraw may take all of it, and going live
does not look at it again.  So whether every live event backs a prize is decided by the
rewards at the moments events go live: nothing changes the reward of a started event.
-/
import Astrea.EscrowOnce

namespace Escrow

variable {own : Address}

/-- The event has gone live. -/
def Started (e : Event) : Prop := e.state = .inProgress ∨ e.state = .ended

instance (e : Event) : Decidable (Started e) := inferInstanceAs (Decidable (_ ∨ _))

/-- Every event that has gone live has a positive reward. -/
def Backed (s : State) : Prop :=
  ∀ i e, s.event.lookup i = some e → Started e → 0 < e.reward.val

/-- The transition, if it starts an event, starts one whose reward is positive at that
moment. -/
def StartsBacked (t : Transition State (Label own)) : Prop :=
  match t.label with
  | .call _ (.setEventInProgress _ i _) => ∀ e, t.pre.event.lookup i = some e → 0 < e.reward.val
  | _ => True

/-- A call leaves a started event either as an event that was started before, or as the one it
started. -/
theorem EventMove.of_started {env : Env own} {s s' : State} {i : EventId} {call : Call}
    {o : Option Event} {e' : Event} (h : EventMove env s s' i call o (some e'))
    (hst : Started e') : ∃ e, o = some e ∧ e'.reward = e.reward ∧
      (Started e ∨ ∃ admin d, call = .setEventInProgress admin i d) := by
  cases h with
  | untouched h => exact ⟨e', rfl, rfl, .inl hst⟩
  | @goLive e d auth state_eq future => exact ⟨e, rfl, rfl, .inr ⟨_, _, rfl⟩⟩
  | @release e winners auth state_eq => exact ⟨e, rfl, rfl, .inl (.inl state_eq)⟩
  | @resolve e winners d auth state_eq => exact ⟨e, rfl, rfl, .inl (.inl state_eq)⟩
  | @emergency e amount reward auth resolver_auth pos state_eq =>
      have hlaunched : Started e := hst
      unfold Started at hlaunched
      rcases state_eq with h | h <;> rw [h] at hlaunched <;> exact absurd hlaunched (by decide)
  | _ => exact absurd hst (by simp [Started, Creation.event])

/-- A step that starts only backed events keeps every live event backed. -/
theorem Step.backed {s s' : State} {l : Label own} (h : Step own s l s')
    (hstarts : StartsBacked ⟨s, l, s'⟩) (hs : Backed s) : Backed s' := by
  intro i e' he' hst
  cases h with
  | @call _ env call ok =>
      have hmove := (exec_effect ok).eventMove i
      rw [he'] at hmove
      obtain ⟨e, he, hreward, hbefore | ⟨admin, d, rfl⟩⟩ := hmove.of_started hst
      · rw [hreward]
        exact hs i e he hbefore
      · rw [hreward]
        exact hstarts e he
  | reverted error => exact hs i e' he' hst
  | ledger grows => exact hs i e' he' hst

/-- A step after which every live event is backed started only backed events. -/
theorem Step.startsBacked {s s' : State} {l : Label own} (h : Step own s l s')
    (hs' : Backed s') : StartsBacked ⟨s, l, s'⟩ := by
  cases h with
  | @call _ env call ok =>
      cases call with
      | setEventInProgress admin i d =>
          intro e he
          obtain ⟨e₀, he₀, -, hpost⟩ := ((exec_effect ok).eventMove i).of_setEventInProgress
          obtain rfl := Option.some_inj.mp (he.symm.trans he₀)
          have hlive := hs' i _ hpost
          exact hlive (.inl rfl)
      | _ => trivial
  | reverted error => trivial
  | ledger grows => trivial

/-- What is backed after a step was backed before it. -/
theorem Step.backed_before {s s' : State} {l : Label own} (h : Step own s l s')
    (hs' : Backed s') : Backed s := by
  intro i e he hst
  obtain ⟨e', he', hst', -, hreward⟩ := h.started he hst
  rw [← hreward]
  exact hs' i e' he' hst'

/-- A run starts only backed events exactly when every live event of its last state is
backed. -/
theorem EscrowRun.backed_iff {b : Balances} {tr : List (Transition State (Label own))}
    {s : State} (hr : EscrowRun own b tr s) : (∀ t ∈ tr, StartsBacked t) ↔ Backed s := by
  refine hr.history (H := fun tr s => (∀ t ∈ tr, StartsBacked t) ↔ Backed s) ?_ ?_
  · constructor
    · intro _ i e he
      exact nomatch he
    · intro _ t ht
      exact nomatch ht
  · intro tr s l s' _ hH hstep
    constructor
    · intro hall
      refine hstep.backed (hall _ (List.mem_append_right _ (List.mem_singleton_self _))) ?_
      exact hH.mp fun t ht => hall t (List.mem_append_left _ ht)
    · intro hs' t ht
      rcases List.mem_append.mp ht with ht | ht
      · exact hH.mpr (hstep.backed_before hs') t ht
      · rw [List.mem_singleton.mp ht]
        exact hstep.startsBacked hs'

/-- The winners list of a payout call. -/
def Call.winners? : Call → Option (List Winner)
  | .releaseReward _ _ winners | .resolveDispute _ _ winners => some winners
  | _ => none

/-- A split of a positive reward names somebody. -/
theorem ValidSplit.exists_paid {winners : List Winner} {reward : ℤ}
    (h : ValidSplit winners reward) (hpos : 0 < reward) : ∃ w ∈ winners, 0 < w.amount.val := by
  cases winners with
  | nil =>
      rw [← h.total] at hpos
      exact absurd hpos (lt_irrefl 0)
  | cons w rest => exact ⟨w, List.mem_cons_self, h.positive w List.mem_cons_self⟩

/-- A payout from a state whose live events are backed pays somebody. -/
theorem exec_pays {env : Env own} {s s' : State} {call : Call} {winners : List Winner}
    (h : exec env s call = .ok s') (hw : call.winners? = some winners) (hs : Backed s) :
    ∃ w ∈ winners, 0 < w.amount.val := by
  cases call with
  | releaseReward judge i ws =>
      obtain rfl := Option.some_inj.mp hw
      obtain ⟨-, e, he, -, -, hst, hv, -, -⟩ := releaseReward_eq_ok.mp h
      exact hv.exists_paid (hs i e he (.inl hst))
  | resolveDispute resolver i ws =>
      obtain rfl := Option.some_inj.mp hw
      obtain ⟨-, e, d, he, -, -, hst, -, -, hv, -, -⟩ := resolveDispute_eq_ok.mp h
      exact hv.exists_paid (hs i e he (.inl hst))
  | _ => exact nomatch hw

/-- In every run, all events that have gone live have a positive reward if and only if every
go-live of the run found a positive reward; and then every payout call that succeeds in the
state reached pays at least one winner a positive amount. -/
theorem live_event_backed {b : Balances} {tr : List (Transition State (Label own))} {s : State}
    (hr : EscrowRun own b tr s) :
    ((∀ t ∈ tr, StartsBacked t) ↔ Backed s) ∧
    ((∀ t ∈ tr, StartsBacked t) → ∀ (env : Env own) call winners s',
      call.winners? = some winners → exec env s call = .ok s' →
      ∃ w ∈ winners, 0 < w.amount.val) := by
  refine ⟨hr.backed_iff, ?_⟩
  intro hstarts env call winners s' hw h
  exact exec_pays h hw (hr.backed_iff.mp hstarts)

/-- The run of the sample event starts it backed. -/
theorem live_event_backed_live : ∃ tr, EscrowRun Sample.escrow Sample.balances tr Sample.live ∧
    (∀ t ∈ tr, StartsBacked t) ∧
    ∃ w ∈ [Winner.mk 1 (.ofNat 600) Sample.winner], 0 < w.amount.val := by
  have hrun := play_run Sample.play_live
  have h := live_event_backed hrun
  -- the only event of the state is the sample event
  have hbacked : Backed Sample.live := by
    have hone : Sample.live.event.entries = [⟨7, Sample.liveEvent⟩] := by decide +kernel
    intro i e he _
    have hmem : (⟨i, e⟩ : Sigma fun _ : EventId => Event) ∈ Sample.live.event.entries :=
      AList.mem_lookup_iff.mp he
    rw [hone, List.mem_singleton] at hmem
    cases hmem
    decide
  have hrelease := okOf_eq (r := exec (Sample.env 6 [Sample.judge]) Sample.live Sample.release)
    (by decide +kernel)
  exact ⟨_, hrun, h.1.mpr hbacked, h.2 (h.1.mpr hbacked) _ _ _ _ rfl hrelease⟩

/-- The sample event is emptied by an emergency withdraw and goes live all the same. -/
def Sample.emptyScript : List (Env Sample.escrow × Call) :=
  [(Sample.env 1 [Sample.organizer], .depositFunds Sample.organizer Sample.token (.ofNat 1000)),
   (Sample.env 2 [Sample.organizer], .createEvent Sample.organizer Sample.judge
     (some Sample.resolver) Sample.token (.ofNat 600) 7),
   (Sample.env 3 [Sample.organizer, Sample.resolver],
     .emergencyWithdraw Sample.organizer Sample.resolver 7 (.ofNat 600)),
   (Sample.env 4 [Sample.organizer], .setEventInProgress Sample.organizer 7 100)]

def Sample.empty : State :=
  okOf (play (genesis Sample.balances) Sample.emptyScript) (by decide +kernel)

/-- A live event with nothing behind it, which the judge closes by paying nobody. -/
theorem live_event_unbacked : Reachable Sample.escrow Sample.empty ∧
    Sample.empty.event.lookup 7 = some { Sample.liveEvent with reward := .ofNat 0 } ∧
    ¬ Backed Sample.empty ∧
    ∃ s', exec (Sample.env 5 [Sample.judge]) Sample.empty (.releaseReward Sample.judge 7 [])
      = .ok s' := by
  have hlook : Sample.empty.event.lookup 7 = some { Sample.liveEvent with reward := .ofNat 0 } := by
    decide +kernel
  refine ⟨⟨_, _, Sample.balances_nonneg, play_run (okOf_eq _)⟩, hlook, ?_, ?_⟩
  · intro hbacked
    exact absurd (hbacked 7 _ hlook (.inl rfl)) (by decide)
  · exact ⟨_, okOf_eq (by decide +kernel)⟩

end Escrow
