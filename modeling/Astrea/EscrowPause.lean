/-
# What a pause stops

While the contract or one organizer is paused, the only call that still changes what is kept
is the expiry of an event past its deadline, which credits the reserve to the event's own
organizer.  Every other fund-moving call checks the pause of the organizer it acts for, also
when a judge or a resolver makes it (`exec_owner`).
-/
import Astrea.EscrowIsolation
import Astrea.EscrowRefund

open KeyTable

namespace Escrow

variable {own : Address}

/-- The whole contract is paused. -/
def GloballyPaused (s : State) : Prop := isPaused s = true

/-- One organizer is paused. -/
def AdminPaused (s : State) (admin : Address) : Prop := isAdminPaused s admin = true

/-- An event past its deadline is cancelled and its reserve credited to its organizer, and
nothing else changes. -/
structure Expires (env : Env own) (i : EventId) (e : Event) (s s' : State) : Prop where
  event_eq : s.event.lookup i = some e
  state_eq : PreLaunch e.state
  passed : ∃ d, e.deadline = some d ∧ d ≤ env.timestamp
  event : s'.event = s.event.insert i { e with state := .cancelled }
  wallet : ∃ w balance, s.wallet.lookup e.admin = some w ∧
    balance.val = w.balance.val + e.reward.val ∧
    s'.wallet = s.wallet.insert e.admin { w with balance := balance }
  eventsCount : s'.eventsCount = s.eventsCount
  eventIndex : s'.eventIndex = s.eventIndex
  balances : s'.balances = s.balances

/-- What a step does while the contract is paused: nothing, an expiry, or a movement of
tokens outside the contract's entry points, which takes none from the contract. -/
inductive PausedMove (s : State) : Label own → State → Prop
  | same {l : Label own} {s' : State} (h : SameFunds s s') : PausedMove s l s'
  | expiry {env : Env own} {i : EventId} {e : Event} {s' : State} (h : Expires env i e s s') :
      PausedMove s (.call env (.expireEvent i)) s'
  | outside {b : Balances} (grows : ∀ token, s.balances token own ≤ b token own) :
      PausedMove s .ledger (s.setBalances b)

/-- What a step does to one organizer's wallet, events and index while that organizer is
paused: nothing, or an expiry of one of the events. -/
inductive AdminPausedMove (admin : Address) (s : State) : Label own → State → Prop
  | same {l : Label own} {s' : State} (h : SameFor admin s s') : AdminPausedMove admin s l s'
  | expiry {env : Env own} {i : EventId} {e : Event} {s' : State} (h : Expires env i e s s')
      (admin_eq : e.admin = admin) : AdminPausedMove admin s (.call env (.expireEvent i)) s'

theorem not_notPaused_of_global {s : State} (h : GloballyPaused s) (admin : Address) :
    ¬ NotPaused s.gov admin := by
  rintro ⟨hp, -⟩
  exact absurd (hp.symm.trans h) (by decide)

theorem not_notPaused_of_admin {s : State} {admin : Address} (h : AdminPaused s admin) :
    ¬ NotPaused s.gov admin := by
  rintro ⟨-, hp⟩
  exact absurd (hp.symm.trans h) (by decide)

/-- Expiry is the effect of the expiring call. -/
theorem exec_expires {env : Env own} {s s' : State} {i : EventId}
    (h : exec env s (.expireEvent i) = .ok s') : ∃ e, Expires env i e s s' := by
  obtain ⟨e, d, w, b, he, hst, hd, hle, hw, hb, rfl⟩ := expireEvent_eq_ok.mp h
  exact ⟨e, he, hst, ⟨d, hd, hle⟩, rfl, ⟨w, b, hw, hb, rfl⟩, rfl, rfl, rfl⟩

/-- A call made while the contract is paused. -/
theorem exec_paused {env : Env own} {s s' : State} {call : Call}
    (h : exec env s call = .ok s') (hp : GloballyPaused s) : PausedMove s (.call env call) s' := by
  cases hfunds : call.movesFunds with
  | false => exact .same (exec_quiet h hfunds)
  | true =>
      by_cases hexpiry : ∃ i, call = .expireEvent i
      · obtain ⟨i, rfl⟩ := hexpiry
        obtain ⟨e, he⟩ := exec_expires h
        exact .expiry he
      · obtain ⟨admin, hunpaused, -⟩ := exec_owner h hfunds
        refine absurd (hunpaused ?_) (not_notPaused_of_global hp admin)
        exact fun i heq => hexpiry ⟨i, heq⟩

/-- A call made while an organizer is paused. -/
theorem exec_adminPaused {env : Env own} {s s' : State} {call : Call} {admin : Address}
    (h : exec env s call = .ok s') (hp : AdminPaused s admin) :
    AdminPausedMove admin s (.call env call) s' := by
  by_cases hconcerns : Concerns s call admin
  · cases hfunds : call.movesFunds with
    | false => exact .same ((exec_quiet h hfunds).sameFor admin)
    | true =>
        obtain ⟨owner, hunpaused, hone⟩ := exec_owner h hfunds
        obtain rfl := hone admin hconcerns
        by_cases hexpiry : ∃ i, call = .expireEvent i
        · obtain ⟨i, rfl⟩ := hexpiry
          obtain ⟨e, he⟩ := exec_expires h
          exact .expiry he (hone e.admin (.inr ⟨i, e, rfl, he.event_eq, rfl⟩))
        · refine absurd (hunpaused ?_) (not_notPaused_of_admin hp)
          exact fun i heq => hexpiry ⟨i, heq⟩
  · exact .same ((exec_effect h).keeps_others hconcerns)

/-- Under the global pause nothing moves but what is listed. -/
theorem Step.paused {s s' : State} {l : Label own} (h : Step own s l s')
    (hp : GloballyPaused s) : PausedMove s l s' := by
  cases h with
  | call ok => exact exec_paused ok hp
  | reverted error => exact .same ⟨rfl, rfl, rfl, rfl, rfl⟩
  | ledger grows => exact .outside grows

/-- Under an organizer's pause the same holds of its events and wallet. -/
theorem Step.adminPaused {s s' : State} {l : Label own} {admin : Address}
    (h : Step own s l s') (hp : AdminPaused s admin) : AdminPausedMove admin s l s' := by
  cases h with
  | call ok => exact exec_adminPaused ok hp
  | reverted error => exact .same (.refl s)
  | ledger grows => exact .same ((SameFor.refl s).setBalances _)

/-- The governance entry points. -/
def Call.isGovernance : Call → Bool
  | .initializeEmergencyAdmin _ | .initializeDefaultResolver _ _ | .getDefaultResolver
  | .setPaused _ _ | .setAdminPaused _ _ _ | .isPaused | .isAdminPaused _
  | .setTokenWhitelistEnabled _ _ | .setTokenAllowed _ _ _ | .isTokenAllowed _
  | .initializeTreasury _ _ | .getTreasury | .setFeeBps _ _ | .getFeeBps => true
  | _ => false

theorem Call.movesFunds_of_governance {call : Call} (h : call.isGovernance = true) :
    call.movesFunds = false := by
  cases call <;> first | rfl | exact nomatch h

/-- A pause freezes what it covers.  Along every run, from any state on, each step taken while
the contract is paused changes no wallet, event, count, index entry or token balance of the
contract, except that an event past its deadline expires to its own organizer's credit (and
except for tokens sent to the contract from outside); each step taken while one organizer is
paused leaves that organizer's wallet, events, count and index, with the same exception; and
no governance call ever changes any of them. -/
theorem pause_frame {s s' : State} {tr : List (Transition State (Label own))}
    (hr : Run (Step own) s tr s') :
    (∀ t ∈ tr, GloballyPaused t.pre → PausedMove t.pre t.label t.post) ∧
    (∀ t ∈ tr, ∀ admin, AdminPaused t.pre admin →
      AdminPausedMove admin t.pre t.label t.post) ∧
    (∀ (env : Env own) s s' call, call.isGovernance = true → exec env s call = .ok s' →
      SameFunds s s') := by
  have hsteps := hr.forall_mem (I := fun _ => True) trivial fun _ _ _ _ _ => trivial
  refine ⟨?_, ?_, ?_⟩
  · intro t ht hp
    exact (hsteps t ht).2.paused hp
  · intro t ht admin hp
    exact (hsteps t ht).2.adminPaused hp
  · intro env s s' call hgov h
    exact exec_quiet h (Call.movesFunds_of_governance hgov)

/-- The waiting sample event on a contract that is then paused. -/
def Sample.pausedScript : List (Env Sample.escrow × Call) :=
  (Sample.env 1 [Sample.emergencyAdmin], .initializeEmergencyAdmin Sample.emergencyAdmin) ::
    Sample.waitingScript ++ [(Sample.env 4 [Sample.emergencyAdmin],
      .setPaused Sample.emergencyAdmin true), (Sample.env 4 [Sample.emergencyAdmin],
      .setAdminPaused Sample.emergencyAdmin Sample.organizer true)]

def Sample.paused : State :=
  okOf (play (genesis Sample.balances) Sample.pausedScript) (by decide +kernel)

/-- The paused sample event expires, and lifting the pause moves nothing. -/
theorem pause_frame_expiry :
    (∃ tr s', Run (Step Sample.escrow) Sample.paused tr s' ∧ tr.length = 1 ∧
      (∀ t ∈ tr, PausedMove t.pre t.label t.post) ∧
      getBalance s' Sample.organizer = .ofNat 1000) ∧
    ∃ s', exec (Sample.env 51 [Sample.emergencyAdmin]) Sample.paused
      (.setPaused Sample.emergencyAdmin false) = .ok s' ∧ SameFunds Sample.paused s' := by
  have hexpire := okOf_eq (r := exec (Sample.env 50 []) Sample.paused (.expireEvent 7))
    (by decide +kernel)
  have hlift := okOf_eq (r := exec (Sample.env 51 [Sample.emergencyAdmin]) Sample.paused
    (.setPaused Sample.emergencyAdmin false)) (by decide +kernel)
  have hrun := Run.single (Step.call hexpire)
  have h := pause_frame hrun
  refine ⟨⟨_, _, hrun, rfl, ?_, by decide +kernel⟩, _, hlift, h.2.2 _ _ _ _ rfl hlift⟩
  intro t ht
  refine h.1 t ht ?_
  rw [List.mem_singleton.mp ht]
  show isPaused Sample.paused = true
  decide +kernel

end Escrow
