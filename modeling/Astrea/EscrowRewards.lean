/-
# Payouts

The ways a reserved reward leaves the contract: the judge's release, the resolver's
dispute resolution, and the compensation an organizer pays after a cancellation.
-/
import Astrea.EscrowAccess

open Guard BoundedInt

namespace Escrow

variable {own : Address}

/-- The largest winners list of one release. -/
def maxWinners : ℕ := 25

/-- The payments a winners list stands for. -/
def winnerPayments (winners : List Winner) : List (Address × I128) :=
  winners.map fun w => (w.address, w.amount)

/-- The payments a participants list stands for. -/
def participantPayments (participants : List Participants) : List (Address × I128) :=
  participants.map fun p => (p.address, p.amountCompensation)

/-- `iter().map(amount).sum()`. -/
def sumPayments (ps : List (Address × I128)) : Except Trap I128 :=
  expect (sumFrom (I128.ofNat 0) (ps.map Prod.snd)) .overflow

def validateAndSumWinners (winners : List Winner) (expectedTotal : I128) :
    Except Trap I128 := do
  ensure (winners.length ≤ maxWinners) (.panicked "Too many winners in a single release")
  ensure (∀ w ∈ winners, 0 < w.amount.val)
    (.panicked "Winner amount must be greater than zero")
  let totalDistributed ← sumPayments (winnerPayments winners)
  ensure (totalDistributed = expectedTotal)
    (.panicked "Distributed amount does not match the locked reward")
  return totalDistributed

def transferToWinners (env : Env own) (s : State) (token : Address)
    (winners : List Winner) : Except Trap State :=
  payAll env s token (winnerPayments winners)

def releaseCompensation (env : Env own) (s : State) (admin : Address) (eventId : EventId)
    (participants : List Participants) : Except Trap State := do
  requireAuth env admin
  assertNotPaused s.gov admin
  let event ← expect (s.event.lookup eventId) (.panicked "Event does not exist")
  ensure (event.admin = admin) (.panicked "Only admin can release the compensation")
  ensure (event.state = .cancelled) (.panicked "Event is not cancelled")
  ensure (participants ≠ []) (.panicked "No participants provided")
  ensure (∀ p ∈ participants, 0 < p.amountCompensation.val)
    (.panicked "Compensation must be greater than zero")
  let total ← sumPayments (participantPayments participants)
  -- paid out of the free balance, in the wallet's token
  let wallet ← expect (s.wallet.lookup admin) (.panicked "Admin has no wallet registered")
  ensure (total.val ≤ wallet.balance.val)
    (.panicked "Insufficient wallet balance to cover compensation")
  let balance ← expect (wallet.balance.sub total) .overflow
  let s := s.setWallet admin { wallet with balance := balance }
  let s ← payAll env s wallet.token (participantPayments participants)
  let s := s.setEvent eventId { event with state := .compensated }
  return s.publish (.compensationReleased eventId admin total)

def releaseReward (env : Env own) (s : State) (judge : Address) (eventId : EventId)
    (winners : List Winner) : Except Trap State := do
  requireAuth env judge
  let event ← expect (s.event.lookup eventId) (.panicked "Event does not exist")
  -- the pause of the organizer, not of the judge who calls
  assertNotPaused s.gov event.admin
  ensure (event.judge = judge) (.panicked "Only the event's judge can release rewards")
  ensure (event.state = .inProgress) (.panicked "Event is not ready to release rewards")
  let totalDistributed ← validateAndSumWinners winners event.reward
  let s := s.setEvent eventId { event with state := .ended }
  let s ← transferToWinners env s event.token winners
  return s.publish (.rewardReleased eventId event.admin totalDistributed)

def resolveDispute (env : Env own) (s : State) (resolver : Address) (eventId : EventId)
    (winners : List Winner) : Except Trap State := do
  requireAuth env resolver
  let event ← expect (s.event.lookup eventId) (.panicked "Event does not exist")
  assertNotPaused s.gov event.admin
  ensure (event.resolver = resolver)
    (.panicked "Only the event's resolver can resolve a dispute")
  ensure (event.state = .inProgress) (.panicked "Event is not ready to resolve a dispute")
  let judgingDeadline ← expect event.judgingDeadline
    (.panicked "Event has no judging deadline configured")
  ensure (judgingDeadline ≤ env.timestamp) (.panicked "Judging deadline has not passed yet")
  let totalDistributed ← validateAndSumWinners winners event.reward
  let s := s.setEvent eventId { event with state := .ended }
  let s ← transferToWinners env s event.token winners
  return s.publish (.disputeResolved eventId resolver totalDistributed)

/-! ## When the calls succeed -/

/-- What makes a winners list acceptable for a reward: short enough, every amount
positive, and amounts adding up to the reward as integers. -/
structure ValidSplit (winners : List Winner) (reward : ℤ) : Prop where
  short : winners.length ≤ maxWinners
  positive : ∀ w ∈ winners, 0 < w.amount.val
  total : totalPaid (winnerPayments winners) = reward

/-- The state after a payout, up to the notification: the event is over and the list
is paid out of the contract's balance. -/
def paidOut (own : Address) (s : State) (eventId : EventId) (event : Event)
    (winners : List Winner) : State :=
  (s.setEvent eventId { event with state := .ended }).setBalances
    (moveAll s.balances event.token own (winnerPayments winners))

/-- The trapping sum of positive payments is their exact sum. -/
theorem sumPayments_eq_ok {ps : List (Address × I128)} {total : I128}
    (hpos : ∀ p ∈ ps, 0 < p.2.val) :
    sumPayments ps = .ok total ↔ total.val = totalPaid ps := by
  have hsum : exactSum (ps.map Prod.snd) = totalPaid ps := by
    rw [exactSum, totalPaid, List.map_map]
    rfl
  have hzero : (I128.ofNat 0).val = 0 := rfl
  rw [sumPayments, expect_eq_ok]
  constructor
  · intro h
    rw [sumFrom_exact h, hsum, hzero, zero_add]
  · intro h
    apply sumFrom_of_exact
    · intro x hx
      obtain ⟨p, hp, rfl⟩ := List.mem_map.mp hx
      exact le_of_lt (hpos p hp)
    · rw [h, hsum, hzero, zero_add]

/-- Positive shares are positive payments. -/
theorem winnerPayments_pos {winners : List Winner} (h : ∀ w ∈ winners, 0 < w.amount.val) :
    ∀ p ∈ winnerPayments winners, 0 < p.2.val := by
  intro p hp
  obtain ⟨w, hw, rfl⟩ := List.mem_map.mp hp
  exact h w hw

/-- The same for compensations. -/
theorem participantPayments_pos {participants : List Participants}
    (h : ∀ p ∈ participants, 0 < p.amountCompensation.val) :
    ∀ p ∈ participantPayments participants, 0 < p.2.val := by
  intro p hp
  obtain ⟨w, hw, rfl⟩ := List.mem_map.mp hp
  exact h w hw

/-- Both payout paths accept exactly the valid splits of the reward. -/
theorem validateAndSumWinners_eq_ok {winners : List Winner} {expected total : I128} :
    validateAndSumWinners winners expected = .ok total ↔
      ValidSplit winners expected.val ∧ total = expected := by
  simp only [validateAndSumWinners, bind_eq_ok, ensure_eq_ok, exists_const, pure_eq_ok]
  constructor
  · rintro ⟨hlen, hpos, t, ht, rfl, rfl⟩
    have htot := (sumPayments_eq_ok (winnerPayments_pos hpos)).mp ht
    exact ⟨⟨hlen, hpos, htot.symm⟩, rfl⟩
  · rintro ⟨hv, rfl⟩
    have ht := (sumPayments_eq_ok (winnerPayments_pos hv.positive)).mpr hv.total.symm
    exact ⟨hv.short, hv.positive, total, ht, rfl, rfl⟩

/-- A compensation needs the organizer of a cancelled event, and is paid out of its wallet. -/
theorem releaseCompensation_eq_ok {env : Env own} {s s' : State} {admin : Address}
    {eventId : EventId} {participants : List Participants} :
    releaseCompensation env s admin eventId participants = .ok s' ↔
      admin ∈ env.auths ∧ NotPaused s.gov admin ∧
      ∃ (event : Event) (total : I128) (wallet : AdminWallet) (balance : I128),
        s.event.lookup eventId = some event ∧
        event.admin = admin ∧ event.state = .cancelled ∧ participants ≠ [] ∧
        (∀ p ∈ participants, 0 < p.amountCompensation.val) ∧
        total.val = totalPaid (participantPayments participants) ∧
        s.wallet.lookup admin = some wallet ∧ total.val ≤ wallet.balance.val ∧
        balance.val = wallet.balance.val - total.val ∧
        Payable env s.balances wallet.token (participantPayments participants) ∧
        s' = (((s.setWallet admin { wallet with balance := balance }).setBalances
          (moveAll s.balances wallet.token own (participantPayments participants))).setEvent
            eventId { event with state := .compensated }).publish
              (.compensationReleased eventId admin total) := by
  simp only [releaseCompensation, bind_eq_ok, requireAuth_eq_ok, assertNotPaused_eq_ok,
    ensure_eq_ok, exists_const, expect_eq_ok, BoundedInt.sub_eq_some, payAll_eq_ok,
    State.setWallet_balances, pure_eq_ok]
  constructor
  · rintro ⟨ha, hp, e, he, hadm, hst, hne, hpos, t, ht, w, hw, hle, b, hb, _, ⟨hpay, rfl⟩, rfl⟩
    have htot := (sumPayments_eq_ok (participantPayments_pos hpos)).mp ht
    exact ⟨ha, hp, e, t, w, b, he, hadm, hst, hne, hpos, htot, hw, hle, hb, hpay, rfl⟩
  · rintro ⟨ha, hp, e, t, w, b, he, hadm, hst, hne, hpos, htot, hw, hle, hb, hpay, rfl⟩
    have ht := (sumPayments_eq_ok (participantPayments_pos hpos)).mpr htot
    exact ⟨ha, hp, e, he, hadm, hst, hne, hpos, t, ht, w, hw, hle, b, hb, _, ⟨hpay, rfl⟩, rfl⟩

/-- A release needs the recorded judge, a live event and a list that splits its reward. -/
theorem releaseReward_eq_ok {env : Env own} {s s' : State} {judge : Address}
    {eventId : EventId} {winners : List Winner} :
    releaseReward env s judge eventId winners = .ok s' ↔
      judge ∈ env.auths ∧ ∃ event : Event, s.event.lookup eventId = some event ∧
        NotPaused s.gov event.admin ∧ event.judge = judge ∧ event.state = .inProgress ∧
        ValidSplit winners event.reward.val ∧
        Payable env s.balances event.token (winnerPayments winners) ∧
        s' = (paidOut own s eventId event winners).publish
          (.rewardReleased eventId event.admin event.reward) := by
  simp only [releaseReward, transferToWinners, bind_eq_ok, requireAuth_eq_ok,
    assertNotPaused_eq_ok, ensure_eq_ok, exists_const, expect_eq_ok,
    validateAndSumWinners_eq_ok, payAll_eq_ok, State.setEvent_balances, pure_eq_ok]
  constructor
  · rintro ⟨ha, e, he, hp, hj, hst, t, ⟨hv, rfl⟩, _, ⟨hpay, rfl⟩, rfl⟩
    exact ⟨ha, e, he, hp, hj, hst, hv, hpay, rfl⟩
  · rintro ⟨ha, e, he, hp, hj, hst, hv, hpay, rfl⟩
    exact ⟨ha, e, he, hp, hj, hst, _, ⟨hv, rfl⟩, _, ⟨hpay, rfl⟩, rfl⟩

/-- The recorded resolver can do the same once the judging deadline is over. -/
theorem resolveDispute_eq_ok {env : Env own} {s s' : State} {resolver : Address}
    {eventId : EventId} {winners : List Winner} :
    resolveDispute env s resolver eventId winners = .ok s' ↔
      resolver ∈ env.auths ∧ ∃ (event : Event) (judgingDeadline : UInt64),
        s.event.lookup eventId = some event ∧ NotPaused s.gov event.admin ∧
        event.resolver = resolver ∧ event.state = .inProgress ∧
        event.judgingDeadline = some judgingDeadline ∧ judgingDeadline ≤ env.timestamp ∧
        ValidSplit winners event.reward.val ∧
        Payable env s.balances event.token (winnerPayments winners) ∧
        s' = (paidOut own s eventId event winners).publish
          (.disputeResolved eventId resolver event.reward) := by
  simp only [resolveDispute, transferToWinners, bind_eq_ok, requireAuth_eq_ok,
    assertNotPaused_eq_ok, ensure_eq_ok, exists_const, expect_eq_ok,
    validateAndSumWinners_eq_ok, payAll_eq_ok, State.setEvent_balances, pure_eq_ok]
  constructor
  · rintro ⟨ha, e, he, hp, hr, hst, d, hd, hle, t, ⟨hv, rfl⟩, _, ⟨hpay, rfl⟩, rfl⟩
    exact ⟨ha, e, d, he, hp, hr, hst, hd, hle, hv, hpay, rfl⟩
  · rintro ⟨ha, e, d, he, hp, hr, hst, hd, hle, hv, hpay, rfl⟩
    exact ⟨ha, e, he, hp, hr, hst, d, hd, hle, _, ⟨hv, rfl⟩, _, ⟨hpay, rfl⟩, rfl⟩

end Escrow
