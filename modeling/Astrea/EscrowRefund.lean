/-
# Refunds before the start

Until an event goes live its reserve can always go back to its organizer: by
cancellation, by an emergency withdraw the resolver co-signs, and by expiry once a
deadline has passed.  Each of them credits the organizer's wallet, so none may meet a
missing wallet or a balance that leaves the `i128` range.  Both follow from custody: the
wallet exists and is kept in the event's token, and what it holds together with the reserve
lies in the contract's own balance.
-/
import Astrea.EscrowExit

namespace Escrow

variable {own : Address}

/-- `i128::MAX`: the most an honest token, whose supply fits an `i128`, can have credited
to one holder. -/
def maxI128 : ℤ := 170141183460469231731687303715884105727

/-- A credit that the contract's own balance covers does not overflow. -/
theorem exists_credit {balance : I128} {amount covered : ℤ} (hamount : 0 ≤ amount)
    (hle : balance.val + amount ≤ covered) (hfits : covered ≤ maxI128) :
    ∃ credited : I128, credited.val = balance.val + amount := by
  have hlower := balance.lower
  unfold maxI128 at hfits
  exact ⟨⟨balance.val + amount, by omega, by omega⟩, rfl⟩

/-- The refund leaves the record `e'` for the event, changes no other record, and credits the
organizer with the amount; no token moves. -/
structure Refunds (s s' : State) (i : EventId) (e' : Event) (amount : ℤ) : Prop where
  event_eq : s'.event = s.event.insert i e'
  credited : Credits s s' e'.admin amount

section Refund

variable {s : State} {i : EventId} {e : Event}

/-- The wallet of a reserved event's organizer, and the room it has for the reserve. -/
theorem Reachable.refund_fits (hs : Reachable own s) (he : s.event.lookup i = some e)
    (hst : Held e.state) : ∃ w, s.wallet.lookup e.admin = some w ∧ w.token = e.token ∧
      w.balance.val + e.reward.val ≤ s.balances e.token own := by
  obtain ⟨w, hw, htok⟩ := hs.booked.token_eq i e he
  refine ⟨w, hw, htok, ?_⟩
  have hfree := hs.booked.balance_le_free hw
  have hreserved := hs.booked.reward_le_reserved he hst
  have howed := hs.liabilities_le e.token
  rw [htok] at hfree
  omega

/-- The organizer's cancellation goes through and refunds the reserve. -/
theorem setEventCancelled_succeeds (hs : Reachable own s) (he : s.event.lookup i = some e)
    (hst : PreLaunch e.state) (hfits : s.balances e.token own ≤ maxI128) {env : Env own}
    (hauth : e.admin ∈ env.auths) (hp : NotPaused s.gov e.admin) :
    ∃ s', exec env s (.setEventCancelled e.admin i) = .ok s' ∧
      Refunds s s' i { e with state := .cancelled } e.reward.val := by
  obtain ⟨w, hw, -, hcov⟩ := hs.refund_fits he hst.held
  obtain ⟨balance, hb⟩ := exists_credit (hs.booked.reward_nonneg i e he) hcov hfits
  refine ⟨_, setEventCancelled_eq_ok.mpr ⟨hauth, hp, e, w, balance, he, rfl, hst, hw, hb, rfl⟩, ?_⟩
  exact ⟨rfl, gain_update hw hb rfl, rfl⟩

/-- An emergency withdraw of any part of the reserve goes through and refunds that part. -/
theorem emergencyWithdraw_succeeds (hs : Reachable own s) (he : s.event.lookup i = some e)
    (hst : PreLaunch e.state) (hfits : s.balances e.token own ≤ maxI128) {env : Env own}
    (hauth : e.admin ∈ env.auths) (hres : e.resolver ∈ env.auths)
    (hp : NotPaused s.gov e.admin) {amount : I128} (hpos : 0 < amount.val)
    (hle : amount.val ≤ e.reward.val) :
    ∃ s' reward, exec env s (.emergencyWithdraw e.admin e.resolver i amount) = .ok s' ∧
      reward.val = e.reward.val - amount.val ∧
      Refunds s s' i { e with reward := reward } amount.val := by
  obtain ⟨w, hw, -, hcov⟩ := hs.refund_fits he hst.held
  obtain ⟨balance, hb⟩ := exists_credit (le_of_lt hpos)
    (le_trans (by omega : w.balance.val + amount.val ≤ _) hcov) hfits
  have hupper := e.reward.upper
  -- what stays reserved lies between zero and the old reserve
  let reward : I128 := ⟨e.reward.val - amount.val, by omega, by omega⟩
  refine ⟨_, reward, emergencyWithdraw_eq_ok.mpr ⟨hauth, hres, hp, hpos, e, reward, w, balance,
    he, rfl, rfl, hst, hle, rfl, hw, hb, rfl⟩, rfl, ?_⟩
  exact ⟨rfl, gain_update hw hb rfl, rfl⟩

/-- Anyone's expiry of an event past its deadline goes through and refunds the reserve. -/
theorem expireEvent_succeeds (hs : Reachable own s) (he : s.event.lookup i = some e)
    (hst : PreLaunch e.state) (hfits : s.balances e.token own ≤ maxI128) {env : Env own}
    {d : UInt64} (hd : e.deadline = some d) (hpassed : d ≤ env.timestamp) :
    ∃ s', exec env s (.expireEvent i) = .ok s' ∧
      Refunds s s' i { e with state := .cancelled } e.reward.val := by
  obtain ⟨w, hw, -, hcov⟩ := hs.refund_fits he hst.held
  obtain ⟨balance, hb⟩ := exists_credit (hs.booked.reward_nonneg i e he) hcov hfits
  refine ⟨_, expireEvent_eq_ok.mpr ⟨e, d, w, balance, he, hst, hd, hpassed, hw, hb, rfl⟩, ?_⟩
  exact ⟨rfl, gain_update hw hb rfl, rfl⟩

end Refund

/-- In every reachable state an event that has not gone live is refundable: its organizer
has a wallet in the event's token, and the organizer's cancellation, the co-signed emergency
withdraw of any part of the reserve and, past the deadline, anyone's expiry all succeed and
credit the organizer with what they free, as long as the token has not credited the contract
with more than an `i128`. -/
theorem prelaunch_refundable {s : State} {i : EventId} {e : Event} (hs : Reachable own s)
    (he : s.event.lookup i = some e) (hst : PreLaunch e.state)
    (hsupply : s.balances e.token own ≤ maxI128) :
    (∃ w, s.wallet.lookup e.admin = some w ∧ w.token = e.token) ∧
    (∀ env : Env own, e.admin ∈ env.auths → NotPaused s.gov e.admin →
      ∃ s', exec env s (.setEventCancelled e.admin i) = .ok s' ∧
        Refunds s s' i { e with state := .cancelled } e.reward.val) ∧
    (∀ (env : Env own) (amount : I128), e.admin ∈ env.auths → e.resolver ∈ env.auths →
      NotPaused s.gov e.admin → 0 < amount.val → amount.val ≤ e.reward.val →
      ∃ s' reward, exec env s (.emergencyWithdraw e.admin e.resolver i amount) = .ok s' ∧
        reward.val = e.reward.val - amount.val ∧
        Refunds s s' i { e with reward := reward } amount.val) ∧
    (∀ (env : Env own) d, e.deadline = some d → d ≤ env.timestamp →
      ∃ s', exec env s (.expireEvent i) = .ok s' ∧
        Refunds s s' i { e with state := .cancelled } e.reward.val) := by
  refine ⟨hs.booked.token_eq i e he, ?_, ?_, ?_⟩
  · intro env hauth hp
    exact setEventCancelled_succeeds hs he hst hsupply hauth hp
  · intro env amount hauth hres hp hpos hle
    exact emergencyWithdraw_succeeds hs he hst hsupply hauth hres hp hpos hle
  · intro env d hd hpassed
    exact expireEvent_succeeds hs he hst hsupply hd hpassed

/-- A deposit and a waiting event of reward 600 with a deadline at time 50. -/
def Sample.waitingScript : List (Env Sample.escrow × Call) :=
  [(Sample.env 1 [Sample.organizer], .depositFunds Sample.organizer Sample.token (.ofNat 1000)),
   (Sample.env 2 [Sample.organizer], .createEventWithDeadline Sample.organizer Sample.judge
     (some Sample.resolver) Sample.token (.ofNat 600) 7 50),
   (Sample.env 3 [Sample.organizer], .setEventWaitingForStart Sample.organizer 7)]

def Sample.waiting : State :=
  okOf (play (genesis Sample.balances) Sample.waitingScript) (by decide +kernel)

/-- The sample event while it waits. -/
def Sample.waitingEvent : Event :=
  { Sample.liveEvent with state := .waitingForStart, deadline := some 50, judgingDeadline := none }

theorem Sample.waiting_reachable : Reachable Sample.escrow Sample.waiting :=
  ⟨Sample.balances, _, Sample.balances_nonneg, play_run (okOf_eq _)⟩

/-- The waiting sample event is refundable. -/
theorem prelaunch_refundable_waiting :
    (∃ s', exec (Sample.env 4 [Sample.organizer]) Sample.waiting
      (.setEventCancelled Sample.organizer 7) = .ok s' ∧
      Refunds Sample.waiting s' 7 { Sample.waitingEvent with state := .cancelled } 600) ∧
    (∃ s' reward, exec (Sample.env 4 [Sample.organizer, Sample.resolver]) Sample.waiting
      (.emergencyWithdraw Sample.organizer Sample.resolver 7 (.ofNat 250)) = .ok s' ∧
      reward.val = 350 ∧ Refunds Sample.waiting s' 7
        { Sample.waitingEvent with reward := reward } 250) ∧
    (∃ s', exec (Sample.env 50 []) Sample.waiting (.expireEvent 7) = .ok s' ∧
      Refunds Sample.waiting s' 7 { Sample.waitingEvent with state := .cancelled } 600) := by
  have h := prelaunch_refundable (e := Sample.waitingEvent) Sample.waiting_reachable
    (show Sample.waiting.event.lookup 7 = some Sample.waitingEvent by decide +kernel)
    (by decide) (by decide +kernel)
  have hp : NotPaused Sample.waiting.gov Sample.organizer := by decide +kernel
  refine ⟨h.2.1 _ (by decide) hp, ?_, ?_⟩
  · exact h.2.2.1 _ (.ofNat 250) (by decide) (by decide) hp (by decide) (by decide)
  · exact h.2.2.2 _ 50 rfl (by decide)

end Escrow
