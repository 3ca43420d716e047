/-
# Organizers apart from each other

All organizers share one contract and one balance per token.  A call acts for one
organizer, the one it names or the one whose event it is about, and leaves the wallet, the
events and the index of every other organizer as they were; and since the contract's balance
covers what it owes to all of them, each can withdraw its free balance whatever the others
did.
-/
import Astrea.EscrowExit

open Guard KeyTable

namespace Escrow

variable {own : Address}

/-- The `admin` argument of a call. -/
def Call.admin? : Call → Option Address
  | .depositFunds admin _ _ | .withdrawFunds admin _ | .getBalance admin | .hasWallet admin
  | .createEvent admin _ _ _ _ _ | .createEventWithDeadline admin _ _ _ _ _ _
  | .setEventWaitingForStart admin _ | .setEventInProgress admin _ _
  | .setEventCancelled admin _ | .emergencyWithdraw admin _ _ _
  | .releaseCompensation admin _ _ | .getEventsByAdmin admin | .getEventsByAdminPage admin _ _
  | .getEventsByAdminCount admin | .isAdminPaused admin => some admin
  | _ => none

/-- The call names the organizer as its `admin`, or acts on an event of the organizer. -/
def Concerns (s : State) (call : Call) (admin : Address) : Prop :=
  call.admin? = some admin ∨
    ∃ i e, call.writes? = some i ∧ s.event.lookup i = some e ∧ e.admin = admin

/-- What the contract keeps for one organizer is the same in both states. -/
structure SameFor (admin : Address) (s s' : State) : Prop where
  wallet : s'.wallet.lookup admin = s.wallet.lookup admin
  event : ∀ i e, e.admin = admin → (s'.event.lookup i = some e ↔ s.event.lookup i = some e)
  eventsCount : s'.eventsCount.lookup admin = s.eventsCount.lookup admin
  eventIndex : ∀ n, s'.eventIndex.lookup (admin, n) = s.eventIndex.lookup (admin, n)

namespace SameFor

variable {admin : Address} {s s' : State}

theorem refl (s : State) : SameFor admin s s := ⟨rfl, fun _ _ _ => Iff.rfl, rfl, fun _ => rfl⟩

/-- Balances and notifications belong to nobody. -/
theorem setBalances (h : SameFor admin s s') (b : Balances) :
    SameFor admin s (s'.setBalances b) := ⟨h.wallet, h.event, h.eventsCount, h.eventIndex⟩

theorem publish (h : SameFor admin s s') (n : ContractEvent) :
    SameFor admin s (s'.publish n) := ⟨h.wallet, h.event, h.eventsCount, h.eventIndex⟩

theorem governed (h : SameFor admin s s') (g : Governance) (ns : List ContractEvent) :
    SameFor admin s (governed s' g ns) := ⟨h.wallet, h.event, h.eventsCount, h.eventIndex⟩

/-- Another organizer's wallet is written. -/
theorem setWallet (h : SameFor admin s s') {a : Address} (ha : a ≠ admin) (w : AdminWallet) :
    SameFor admin s (s'.setWallet a w) := by
  refine ⟨?_, h.event, h.eventsCount, h.eventIndex⟩
  rw [State.setWallet_wallet, AList.lookup_insert_ne ha.symm]
  exact h.wallet

/-- An event of another organizer is written over one that is not this organizer's. -/
theorem setEvent (h : SameFor admin s s') {i : EventId} {e : Event}
    (hold : ∀ e', s.event.lookup i = some e' → e'.admin ≠ admin) (hnew : e.admin ≠ admin) :
    SameFor admin s (s'.setEvent i e) := by
  refine ⟨h.wallet, ?_, h.eventsCount, h.eventIndex⟩
  intro j e' hadm
  rw [State.setEvent_event, lookup_insert_eq_some, ← h.event j e' hadm]
  constructor
  · rintro (⟨-, rfl⟩ | ⟨-, hlook⟩)
    · exact absurd hadm hnew
    · exact hlook
  · intro hlook
    refine .inr ⟨?_, hlook⟩
    rintro rfl
    exact hold e' ((h.event j e' hadm).mp hlook) hadm

/-- An event of another organizer is updated. -/
theorem updateEvent (h : SameFor admin s s') {i : EventId} {e e' : Event}
    (he : s.event.lookup i = some e) (hadm : e.admin ≠ admin) (heq : e'.admin = e.admin) :
    SameFor admin s (s'.setEvent i e') := by
  refine h.setEvent ?_ (heq ▸ hadm)
  intro e'' he''
  rw [he] at he''
  rwa [← Option.some_inj.mp he'']

/-- Another organizer's index grows. -/
theorem appendIndex (h : SameFor admin s s') {a : Address} (ha : a ≠ admin)
    (count next : UInt32) (i : EventId) : SameFor admin s (s'.appendIndex a count next i) := by
  refine ⟨h.wallet, h.event, ?_, ?_⟩
  · rw [← h.eventsCount]
    exact AList.lookup_insert_ne ha.symm
  · intro n
    rw [← h.eventIndex n]
    exact AList.lookup_insert_ne fun heq => ha (Prod.mk.inj heq).1.symm

end SameFor

/-! ## A call acts for one organizer -/

theorem Call.admin?_of_creation {call : Call} {c : Creation} (h : call.creation? = some c) :
    call.admin? = some c.admin := by
  cases call <;> first | (obtain rfl := Option.some_inj.mp h; rfl) | exact nomatch h

/-- A call that does not concern an organizer changes nothing of that organizer's. -/
theorem Effect.keeps_others {env : Env own} {s s' : State} {call : Call} {admin : Address}
    (h : Effect env s call s') (hnot : ¬ Concerns s call admin) : SameFor admin s s' := by
  -- neither the organizer a call names nor the one of its event is this one
  have hname : ∀ a, call.admin? = some a → a ≠ admin := by
    rintro a ha rfl
    exact hnot (.inl ha)
  have hevent : ∀ i, call.writes? = some i →
      ∀ e, s.event.lookup i = some e → e.admin ≠ admin := by
    rintro i hi e he rfl
    exact hnot (.inr ⟨i, e, hi, he, rfl⟩)
  cases h with
  | deposit => exact ((SameFor.refl s).setBalances _).setWallet (hname _ rfl) _
  | withdraw => exact ((SameFor.refl s).setWallet (hname _ rfl) _).setBalances _
  | create call_eq =>
      have hadm := hname _ (Call.admin?_of_creation call_eq)
      have hold := hevent _ (Call.writes?_of_creation? call_eq)
      exact ((((SameFor.refl s).setWallet hadm _).setEvent hold hadm).appendIndex hadm _ _
        _).publish _
  | expire event_eq =>
      have hadm := hevent _ rfl _ event_eq
      exact (((SameFor.refl s).updateEvent event_eq hadm (by rfl)).setWallet hadm _).publish _
  | waiting auth event_eq =>
      have hadm := hevent _ rfl _ event_eq
      exact ((SameFor.refl s).updateEvent event_eq hadm (by rfl)).publish _
  | goLiveFree auth event_eq =>
      have hadm := hevent _ rfl _ event_eq
      exact ((SameFor.refl s).updateEvent event_eq hadm (by rfl)).publish _
  | goLiveCharged auth event_eq =>
      have hadm := hevent _ rfl _ event_eq
      refine ((SameFor.updateEvent ?_ event_eq hadm (by rfl)).publish _).publish _
      exact ((SameFor.refl s).setWallet (hname _ rfl) _).setBalances _
  | cancel auth event_eq =>
      have hadm := hevent _ rfl _ event_eq
      exact (((SameFor.refl s).updateEvent event_eq hadm (by rfl)).setWallet (hname _ rfl)
        _).publish _
  | emergency auth resolver_auth pos event_eq =>
      have hadm := hevent _ rfl _ event_eq
      exact (((SameFor.refl s).updateEvent event_eq hadm (by rfl)).setWallet (hname _ rfl)
        _).publish _
  | compensate auth event_eq =>
      have hadm := hevent _ rfl _ event_eq
      refine (SameFor.updateEvent ?_ event_eq hadm (by rfl)).publish _
      exact ((SameFor.refl s).setWallet (hname _ rfl) _).setBalances _
  | release auth event_eq =>
      have hadm := hevent _ rfl _ event_eq
      exact (((SameFor.refl s).updateEvent event_eq hadm (by rfl)).setBalances _).publish _
  | resolve auth event_eq =>
      have hadm := hevent _ rfl _ event_eq
      exact (((SameFor.refl s).updateEvent event_eq hadm (by rfl)).setBalances _).publish _
  | govern => exact (SameFor.refl s).governed _ _
  | read => exact .refl s

/-- A fund-moving call concerns one organizer only, who is not paused unless the call is an
expiry. -/
theorem exec_owner {env : Env own} {s s' : State} {call : Call}
    (h : exec env s call = .ok s') (hfunds : call.movesFunds = true) :
    ∃ admin, ((∀ i, call ≠ .expireEvent i) → NotPaused s.gov admin) ∧
      ∀ admin', Concerns s call admin' → admin' = admin := by
  -- a call that names its organizer: the event it writes, if any, is that organizer's
  have hnamed : ∀ {admin : Address}, call.admin? = some admin →
      (∀ i e, call.writes? = some i → s.event.lookup i = some e → e.admin = admin) →
      ∀ admin', Concerns s call admin' → admin' = admin := by
    rintro admin hname hevent admin' (hname' | ⟨i, e, hi, he, rfl⟩)
    · exact Option.some_inj.mp (hname'.symm.trans hname)
    · exact hevent i e hi he
  -- a call that names a judge, a resolver or nobody: the event's organizer
  have hunnamed : ∀ {i : EventId} {e : Event}, call.admin? = none → call.writes? = some i →
      s.event.lookup i = some e → ∀ admin', Concerns s call admin' → admin' = e.admin := by
    rintro i e hname hi he admin' (hname' | ⟨i', e', hi', he', rfl⟩)
    · exact nomatch hname.symm.trans hname'
    · obtain rfl := Option.some_inj.mp (hi.symm.trans hi')
      rw [Option.some_inj.mp (he.symm.trans he')]
  have hwrites : ∀ {i : EventId} {e : Event}, s.event.lookup i = some e →
      call.writes? = some i →
      ∀ i' e', call.writes? = some i' → s.event.lookup i' = some e' → e'.admin = e.admin := by
    intro i e he hi i' e' hi' he'
    obtain rfl := Option.some_inj.mp (hi.symm.trans hi')
    rw [Option.some_inj.mp (he.symm.trans he')]
  cases call with
  | depositFunds admin token amount =>
      obtain ⟨-, hp, -⟩ := depositFunds_eq_ok.mp h
      exact ⟨admin, fun _ => hp, hnamed rfl fun i e hi => nomatch hi⟩
  | withdrawFunds admin amount =>
      obtain ⟨-, hp, -⟩ := withdrawFunds_eq_ok.mp h
      exact ⟨admin, fun _ => hp, hnamed rfl fun i e hi => nomatch hi⟩
  | createEvent admin judge resolver token reward eventId =>
      obtain ⟨⟨t, i⟩, hc, -⟩ := bind_eq_ok.mp h
      obtain ⟨-, hp, -, -, -, hnew, -⟩ := createEventInternal_eq_ok.mp hc
      refine ⟨admin, fun _ => hp, hnamed rfl fun j e hj he => ?_⟩
      obtain rfl := Option.some_inj.mp hj
      exact nomatch hnew.symm.trans he
  | createEventWithDeadline admin judge resolver token reward eventId deadline =>
      obtain ⟨⟨t, i⟩, hc, -⟩ := bind_eq_ok.mp h
      obtain ⟨-, hp, -, -, -, hnew, -⟩ := createEventInternal_eq_ok.mp hc
      refine ⟨admin, fun _ => hp, hnamed rfl fun j e hj he => ?_⟩
      obtain rfl := Option.some_inj.mp hj
      exact nomatch hnew.symm.trans he
  | expireEvent eventId =>
      obtain ⟨e, d, w, b, he, -⟩ := expireEvent_eq_ok.mp h
      exact ⟨e.admin, fun hne => absurd rfl (hne eventId), hunnamed rfl rfl he⟩
  | setEventWaitingForStart admin eventId =>
      obtain ⟨-, hp, e, he, rfl, -⟩ := setEventWaitingForStart_eq_ok.mp h
      exact ⟨e.admin, fun _ => hp, hnamed rfl (hwrites he rfl)⟩
  | setEventInProgress admin eventId judgingDeadline =>
      obtain ⟨-, hp, e, fee, he, rfl, -⟩ := setEventInProgress_eq_ok.mp h
      exact ⟨e.admin, fun _ => hp, hnamed rfl (hwrites he rfl)⟩
  | setEventCancelled admin eventId =>
      obtain ⟨-, hp, e, w, b, he, rfl, -⟩ := setEventCancelled_eq_ok.mp h
      exact ⟨e.admin, fun _ => hp, hnamed rfl (hwrites he rfl)⟩
  | emergencyWithdraw admin resolver eventId amount =>
      obtain ⟨-, -, hp, -, e, r, w, b, he, rfl, -⟩ := emergencyWithdraw_eq_ok.mp h
      exact ⟨e.admin, fun _ => hp, hnamed rfl (hwrites he rfl)⟩
  | releaseCompensation admin eventId participants =>
      obtain ⟨-, hp, e, t, w, b, he, rfl, -⟩ := releaseCompensation_eq_ok.mp h
      exact ⟨e.admin, fun _ => hp, hnamed rfl (hwrites he rfl)⟩
  | releaseReward judge eventId winners =>
      obtain ⟨-, e, he, hp, -⟩ := releaseReward_eq_ok.mp h
      exact ⟨e.admin, fun _ => hp, hunnamed rfl rfl he⟩
  | resolveDispute resolver eventId winners =>
      obtain ⟨-, e, d, he, hp, -⟩ := resolveDispute_eq_ok.mp h
      exact ⟨e.admin, fun _ => hp, hunnamed rfl rfl he⟩
  | _ => exact nomatch hfunds

/-- The two states agree on every wallet, event, index entry and token balance. -/
structure SameFunds (s s' : State) : Prop where
  wallet : s'.wallet = s.wallet
  event : s'.event = s.event
  eventsCount : s'.eventsCount = s.eventsCount
  eventIndex : s'.eventIndex = s.eventIndex
  balances : s'.balances = s.balances

/-- The same funds are the same for everybody. -/
theorem SameFunds.sameFor {s s' : State} (h : SameFunds s s') (admin : Address) :
    SameFor admin s s' := by
  refine ⟨?_, ?_, ?_, ?_⟩
  · rw [h.wallet]
  · intro i e _
    rw [h.event]
  · rw [h.eventsCount]
  · intro n
    rw [h.eventIndex]

/-- Reads and governance move no funds. -/
theorem exec_quiet {env : Env own} {s s' : State} {call : Call}
    (h : exec env s call = .ok s') (hquiet : call.movesFunds = false) : SameFunds s s' := by
  have heffect := exec_effect h
  cases heffect with
  | create call_eq => exact nomatch (Call.creation?_of_quiet hquiet).symm.trans call_eq
  | govern => exact ⟨rfl, rfl, rfl, rfl, rfl⟩
  | read => exact ⟨rfl, rfl, rfl, rfl, rfl⟩
  | _ => exact nomatch hquiet

/-- A call that concerns one organizer leaves every other one's wallet, events and index. -/
theorem exec_isolates {env : Env own} {s s' : State} {call : Call} {a b : Address}
    (h : exec env s call = .ok s') (ha : Concerns s call a) (hne : a ≠ b) : SameFor b s s' := by
  cases hfunds : call.movesFunds with
  | false => exact (exec_quiet h hfunds).sameFor b
  | true =>
      obtain ⟨admin, -, hone⟩ := exec_owner h hfunds
      refine (exec_effect h).keeps_others ?_
      intro hb
      exact hne ((hone a ha).trans (hone b hb).symm)

/-! ## Each organizer can withdraw -/

/-- A withdrawal of any part of a free balance goes through and moves that amount from the
contract to the organizer. -/
theorem withdrawFunds_succeeds {s : State} (hs : Reachable own s) {admin : Address}
    {w : AdminWallet} (hw : s.wallet.lookup admin = some w) (hp : NotPaused s.gov admin)
    {env : Env own} (hauth : admin ∈ env.auths) {amount : I128} (hpos : 0 < amount.val)
    (hle : amount.val ≤ w.balance.val) (hdel : Delivers env w.token [(admin, amount)]) :
    ∃ s' balance, exec env s (.withdrawFunds admin amount) = .ok s' ∧
      s'.wallet.lookup admin = some { w with balance := balance } ∧
      balance.val = w.balance.val - amount.val ∧
      s'.balances = move s.balances w.token own admin amount.val := by
  have hcov := hs.balance_covered hw
  have hupper := w.balance.upper
  let balance : I128 := ⟨w.balance.val - amount.val, by omega, by omega⟩
  have hok : env.transferOk s.balances w.token own admin amount = true :=
    hdel s.balances _ List.mem_cons_self (by simp only; omega)
  exact ⟨_, balance, withdrawFunds_eq_ok.mpr ⟨hauth, hp, hpos, w, balance, hw, hle, rfl, hok, rfl⟩,
    AList.lookup_insert _, rfl, rfl⟩

/-- Two organizers never touch each other.  A successful call that names one organizer, or
acts on an event of it, leaves the other's wallet, events, count and index; and in every
reachable state the other, when not paused, can withdraw any part of its free balance, which
moves exactly that amount of its token to it, as long as the token delivers what the contract
holds. -/
theorem organizer_isolation {s : State} (hs : Reachable own s) {a b : Address} (hne : a ≠ b) :
    (∀ (env : Env own) call s', Concerns s call a → exec env s call = .ok s' →
      SameFor b s s') ∧
    (∀ w, s.wallet.lookup b = some w → NotPaused s.gov b →
      ∀ (env : Env own) (amount : I128), b ∈ env.auths → 0 < amount.val →
        amount.val ≤ w.balance.val → Delivers env w.token [(b, amount)] →
        ∃ s' balance, exec env s (.withdrawFunds b amount) = .ok s' ∧
          s'.wallet.lookup b = some { w with balance := balance } ∧
          balance.val = w.balance.val - amount.val ∧
          s'.balances w.token b = s.balances w.token b + amount.val ∧
          s'.balances w.token own = s.balances w.token own - amount.val ∧
          ∀ token x, token ≠ w.token ∨ x ≠ b ∧ x ≠ own →
            s'.balances token x = s.balances token x) := by
  refine ⟨fun env call s' hcall h => exec_isolates h hcall hne, ?_⟩
  intro w hw hp env amount hauth hpos hle hdel
  have hown : b ≠ own := fun h => env.noSelfAuth (h ▸ hauth)
  obtain ⟨s', balance, h, hwallet, hbalance, hmove⟩ :=
    withdrawFunds_succeeds hs hw hp hauth hpos hle hdel
  refine ⟨s', balance, h, hwallet, hbalance, ?_, ?_, ?_⟩
  · rw [hmove, move_dst hown]
  · rw [hmove, move_src, if_neg hown, add_zero]
  · intro token x hother
    rw [hmove]
    rcases hother with htoken | ⟨hb, ho⟩
    · exact move_other_token htoken
    · simp only [move, hb, ho, and_false, if_false, sub_zero, add_zero]

namespace Sample

/-- A second organizer, who has as many tokens as the first. -/
def rival : Address := .account 8

def rivalBalances : Balances := fun t a =>
  if t = token ∧ (a = organizer ∨ a = rival) then 10000 else 0

/-- Both organizers deposit, and the first creates an event. -/
def rivalScript : List (Env escrow × Call) :=
  [(env 1 [organizer], .depositFunds organizer token (.ofNat 1000)),
   (env 2 [rival], .depositFunds rival token (.ofNat 500)),
   (env 3 [organizer], .createEvent organizer judge (some resolver) token (.ofNat 600) 7)]

def rivals : State := okOf (play (genesis rivalBalances) rivalScript) (by decide +kernel)

theorem rivals_reachable : Reachable escrow rivals := by
  refine ⟨rivalBalances, _, ?_, play_run (okOf_eq _)⟩
  intro t
  have hne : ¬ (escrow = organizer ∨ escrow = rival) := by decide
  simp only [rivalBalances, hne, and_false, if_false, le_refl]

/-- The sample token delivers what the contract holds. -/
theorem env_delivers (timestamp : UInt64) (auths : List Address)
    (h : auths.contains escrow = false) (ps : List (Address × I128)) :
    Delivers (env timestamp auths h) token ps :=
  fun _ _ _ hle => decide_eq_true hle

end Sample

/-- The first sample organizer cancels its event, and the second withdraws all it has. -/
theorem organizer_isolation_rivals :
    (∃ s', exec (Sample.env 4 [Sample.organizer]) Sample.rivals
        (.setEventCancelled Sample.organizer 7) = .ok s' ∧
      SameFor Sample.rival Sample.rivals s') ∧
    ∃ s', exec (Sample.env 4 [Sample.rival]) Sample.rivals
        (.withdrawFunds Sample.rival (.ofNat 500)) = .ok s' ∧
      s'.balances Sample.token Sample.rival = 10000 := by
  have h := organizer_isolation Sample.rivals_reachable
    (show Sample.organizer ≠ Sample.rival by decide)
  have hcancel := okOf_eq (r := exec (Sample.env 4 [Sample.organizer]) Sample.rivals
    (.setEventCancelled Sample.organizer 7)) (by decide +kernel)
  refine ⟨⟨_, hcancel, h.1 _ _ _ (.inl rfl) hcancel⟩, ?_⟩
  obtain ⟨s', balance, hexec, -, -, hrival, -⟩ := h.2 ⟨Sample.token, .ofNat 500⟩
    (by decide +kernel) (by decide +kernel) (Sample.env 4 [Sample.rival]) (.ofNat 500) (by decide)
    (by decide) (by decide) (Sample.env_delivers _ _ _ _)
  refine ⟨s', hexec, hrival.trans ?_⟩
  decide +kernel

end Escrow
