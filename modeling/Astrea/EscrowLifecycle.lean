/-
# The event state machine

Creation, the transitions before and into a live event, the ways an event unwinds
before it starts, and the index reads.  Each entry point is followed by the lemma
that lists its guards and the state it leaves.
-/
import Astrea.EscrowAccess

open Guard

namespace Escrow

variable {own : Address}

/-- The gate shared by expiry, cancellation, the emergency withdraw and go-live. -/
def PreLaunch (st : EventState) : Prop := st = .created ∨ st = .waitingForStart

instance (st : EventState) : Decidable (PreLaunch st) := inferInstanceAs (Decidable (_ ∨ _))

/-- The states in which an event's reward is reserved. -/
def Held (st : EventState) : Prop := st = .created ∨ st = .waitingForStart ∨ st = .inProgress

instance (st : EventState) : Decidable (Held st) := inferInstanceAs (Decidable (_ ∨ _))

theorem PreLaunch.held {st : EventState} (h : PreLaunch st) : Held st := by
  rcases h with h | h
  · exact .inl h
  · exact .inr (.inl h)

/-- The `u32` that counts an organizer's events, which traps on overflow. -/
def checkedSucc (count : UInt32) : Option UInt32 :=
  if count.toNat + 1 < 4294967296 then some (count + 1) else none

/-! ## Creation -/

/-- A deadline, if one is given, lies in the future. -/
def assertFutureDeadline (env : Env own) : Option UInt64 → Except Trap Unit
  | some d => ensure (env.timestamp < d) (.panicked "Deadline must be in the future")
  | none => .ok ()

/-- `resolver.unwrap_or_else(|| get_default_resolver(&env))`. -/
def resolverOrDefault (g : Governance) : Option Address → Except Trap Address
  | some r => .ok r
  | none => getDefaultResolver g

def createEventInternal (env : Env own) (s : State) (admin judge : Address)
    (resolver : Option Address) (token : Address) (reward : I128) (eventId : EventId)
    (deadline : Option UInt64) : Except Trap (State × EventId) := do
  requireAuth env admin
  assertNotPaused s.gov admin
  assertTokenAllowed s.gov token
  ensure (0 < reward.val) (.panicked "Reward must be greater than zero")
  assertFutureDeadline env deadline
  ensure (s.event.lookup eventId = none) (.panicked "Event already exists")
  let wallet ← expect (s.wallet.lookup admin)
    (.panicked "Admin must deposit funds before the event")
  ensure (wallet.token = token)
    (.panicked "Admin wallet token doesn't match the event's token")
  ensure (reward.val ≤ wallet.balance.val)
    (.panicked "Insufficient balance in wallet to create event")
  let balance ← expect (wallet.balance.sub reward) .overflow
  let s := s.setWallet admin { wallet with balance := balance }
  let resolver ← resolverOrDefault s.gov resolver
  let event : Event := {
    admin := admin, judge := judge, token := token, resolver := resolver, reward := reward,
    state := .created, deadline := deadline, judgingDeadline := none }
  let s := s.setEvent eventId event
  -- the new entry stands at the old count
  let count := (s.eventsCount.lookup admin).getD 0
  let next ← expect (checkedSucc count) .overflow
  let s := s.appendIndex admin count next eventId
  return (s.publish (.eventCreated eventId admin event.reward), eventId)

def createEvent (env : Env own) (s : State) (admin judge : Address)
    (resolver : Option Address) (token : Address) (reward : I128) (eventId : EventId) :
    Except Trap (State × EventId) :=
  createEventInternal env s admin judge resolver token reward eventId none

def createEventWithDeadline (env : Env own) (s : State) (admin judge : Address)
    (resolver : Option Address) (token : Address) (reward : I128) (eventId : EventId)
    (deadline : UInt64) : Except Trap (State × EventId) :=
  createEventInternal env s admin judge resolver token reward eventId (some deadline)

/-- The resolver a new event gets: the one named, else the default. -/
def effectiveResolver (g : Governance) : Option Address → Option Address
  | some r => some r
  | none => g.defaultResolver

/-- A deadline, if there is one, is later than the ledger. -/
theorem assertFutureDeadline_eq_ok {env : Env own} {deadline : Option UInt64} {u : Unit} :
    assertFutureDeadline env deadline = .ok u ↔ ∀ d, deadline = some d → env.timestamp < d := by
  cases deadline with
  | none =>
      constructor
      · intro _ d hd
        exact nomatch hd
      · intro _
        rfl
  | some d => simp only [assertFutureDeadline, ensure_eq_ok, Option.some_inj, forall_eq']

theorem resolverOrDefault_eq_ok {g : Governance} {resolver : Option Address} {r : Address} :
    resolverOrDefault g resolver = .ok r ↔ effectiveResolver g resolver = some r := by
  cases resolver with
  | none => exact expect_eq_ok
  | some r' => simp only [resolverOrDefault, effectiveResolver, Except.ok.injEq, Option.some_inj]

/-- Creation checks the signature, the pause, the token, the amount, the deadline and the id, and
moves the reward from the wallet into the record. -/
theorem createEventInternal_eq_ok {env : Env own} {s s' : State} {admin judge : Address}
    {resolver : Option Address} {token : Address} {reward : I128} {eventId i : EventId}
    {deadline : Option UInt64} :
    createEventInternal env s admin judge resolver token reward eventId deadline
        = .ok (s', i) ↔
      admin ∈ env.auths ∧ NotPaused s.gov admin ∧ isTokenAllowed s.gov token = true ∧
      0 < reward.val ∧ (∀ d, deadline = some d → env.timestamp < d) ∧ s.event.lookup eventId = none ∧
      ∃ wallet balance r next, s.wallet.lookup admin = some wallet ∧ wallet.token = token ∧
        reward.val ≤ wallet.balance.val ∧ balance.val = wallet.balance.val - reward.val ∧
        effectiveResolver s.gov resolver = some r ∧
        checkedSucc ((s.eventsCount.lookup admin).getD 0) = some next ∧
        s' = (((s.setWallet admin { wallet with balance := balance }).setEvent eventId
          { admin := admin, judge := judge, token := token, resolver := r, reward := reward,
            state := .created, deadline := deadline, judgingDeadline := none }).appendIndex
          admin ((s.eventsCount.lookup admin).getD 0) next eventId).publish
            (.eventCreated eventId admin reward) ∧
        i = eventId := by
  simp only [createEventInternal, bind_eq_ok, requireAuth_eq_ok, assertNotPaused_eq_ok,
    assertTokenAllowed_eq_ok, assertFutureDeadline_eq_ok, ensure_eq_ok, exists_const,
    expect_eq_ok, BoundedInt.sub_eq_some, State.setWallet_gov,
    resolverOrDefault_eq_ok, pure_eq_ok, Prod.mk.injEq]
  constructor
  · rintro ⟨ha, hp, ht, hpos, hd, hnew, w, hw, htok, hle, b, hb, r, hr, n, hn, rfl, rfl⟩
    exact ⟨ha, hp, ht, hpos, hd, hnew, w, b, r, n, hw, htok, hle, hb, hr, hn, rfl, rfl⟩
  · rintro ⟨ha, hp, ht, hpos, hd, hnew, w, b, r, n, hw, htok, hle, hb, hr, hn, rfl, rfl⟩
    exact ⟨ha, hp, ht, hpos, hd, hnew, w, hw, htok, hle, b, hb, r, hr, n, hn, rfl, rfl⟩

/-! ## Unwinding before the start -/

def expireEvent (env : Env own) (s : State) (eventId : EventId) : Except Trap State := do
  let event ← expect (s.event.lookup eventId) (.panicked "Event does not exist")
  ensure (PreLaunch event.state) (.panicked "Event cannot be expired in its current state")
  let deadline ← expect event.deadline (.panicked "Event has no deadline configured")
  ensure (deadline ≤ env.timestamp) (.panicked "Event deadline has not passed yet")
  -- the reserve stays on the record and is credited to the wallet
  let event := { event with state := .cancelled }
  let s := s.setEvent eventId event
  let wallet ← expect (s.wallet.lookup event.admin)
    (.panicked "Admin has no wallet registered")
  let balance ← expect (wallet.balance.add event.reward) .overflow
  let s := s.setWallet event.admin { wallet with balance := balance }
  return s.publish (.eventExpired eventId event.admin event.reward)

def setEventCancelled (env : Env own) (s : State) (admin : Address) (eventId : EventId) :
    Except Trap State := do
  requireAuth env admin
  assertNotPaused s.gov admin
  let event ← expect (s.event.lookup eventId) (.panicked "Event does not exist")
  ensure (event.admin = admin) (.panicked "Only the event admin can cancel the event")
  ensure (PreLaunch event.state) (.panicked "Event cannot be cancelled in its current state")
  let event := { event with state := .cancelled }
  let s := s.setEvent eventId event
  let wallet ← expect (s.wallet.lookup admin) (.panicked "Admin has no wallet registered")
  let balance ← expect (wallet.balance.add event.reward) .overflow
  let s := s.setWallet admin { wallet with balance := balance }
  return s.publish (.eventCancelled eventId admin event.reward)

def emergencyWithdraw (env : Env own) (s : State) (admin resolver : Address)
    (eventId : EventId) (amount : I128) : Except Trap State := do
  requireAuth env admin
  requireAuth env resolver
  assertNotPaused s.gov admin
  ensure (0 < amount.val) (.panicked "Amount must be greater than zero")
  let event ← expect (s.event.lookup eventId) (.panicked "Event does not exist")
  ensure (event.admin = admin)
    (.panicked "Only the event's admin can request an emergency withdraw")
  ensure (event.resolver = resolver)
    (.panicked "Only the event's resolver can approve an emergency withdraw")
  ensure (PreLaunch event.state)
    (.panicked "Emergency withdraw is only allowed before the event starts")
  ensure (amount.val ≤ event.reward.val)
    (.panicked "Amount exceeds the event's reserved reward")
  let reward ← expect (event.reward.sub amount) .overflow
  let s := s.setEvent eventId { event with reward := reward }
  let wallet ← expect (s.wallet.lookup admin) (.panicked "Admin has no wallet registered")
  let balance ← expect (wallet.balance.add amount) .overflow
  let s := s.setWallet admin { wallet with balance := balance }
  return s.publish (.emergencyWithdrawal eventId admin resolver amount)

/-- Anyone may expire an event once its own deadline is over; the reward goes back to the recorded
organizer's wallet. -/
theorem expireEvent_eq_ok {env : Env own} {s s' : State} {eventId : EventId} :
    expireEvent env s eventId = .ok s' ↔
      ∃ event deadline wallet balance, s.event.lookup eventId = some event ∧
        PreLaunch event.state ∧ event.deadline = some deadline ∧ deadline ≤ env.timestamp ∧
        s.wallet.lookup event.admin = some wallet ∧
        balance.val = wallet.balance.val + event.reward.val ∧
        s' = ((s.setEvent eventId { event with state := .cancelled }).setWallet event.admin
          { wallet with balance := balance }).publish
            (.eventExpired eventId event.admin event.reward) := by
  simp only [expireEvent, bind_eq_ok, ensure_eq_ok, exists_const, expect_eq_ok,
    BoundedInt.add_eq_some, State.setEvent_wallet, pure_eq_ok]
  constructor
  · rintro ⟨e, he, hst, d, hd, hle, w, hw, b, hb, rfl⟩
    exact ⟨e, d, w, b, he, hst, hd, hle, hw, hb, rfl⟩
  · rintro ⟨e, d, w, b, he, hst, hd, hle, hw, hb, rfl⟩
    exact ⟨e, he, hst, d, hd, hle, w, hw, b, hb, rfl⟩

/-- A cancellation needs the organizer and an event before its launch; the reward goes back to the
wallet. -/
theorem setEventCancelled_eq_ok {env : Env own} {s s' : State} {admin : Address}
    {eventId : EventId} :
    setEventCancelled env s admin eventId = .ok s' ↔
      admin ∈ env.auths ∧ NotPaused s.gov admin ∧
      ∃ event wallet balance, s.event.lookup eventId = some event ∧ event.admin = admin ∧
        PreLaunch event.state ∧ s.wallet.lookup admin = some wallet ∧
        balance.val = wallet.balance.val + event.reward.val ∧
        s' = ((s.setEvent eventId { event with state := .cancelled }).setWallet admin
          { wallet with balance := balance }).publish
            (.eventCancelled eventId admin event.reward) := by
  simp only [setEventCancelled, bind_eq_ok, requireAuth_eq_ok, assertNotPaused_eq_ok,
    ensure_eq_ok, exists_const, expect_eq_ok, BoundedInt.add_eq_some,
    State.setEvent_wallet, pure_eq_ok]
  constructor
  · rintro ⟨ha, hp, e, he, hadm, hst, w, hw, b, hb, rfl⟩
    exact ⟨ha, hp, e, w, b, he, hadm, hst, hw, hb, rfl⟩
  · rintro ⟨ha, hp, e, w, b, he, hadm, hst, hw, hb, rfl⟩
    exact ⟨ha, hp, e, he, hadm, hst, w, hw, b, hb, rfl⟩

/-- An emergency withdrawal needs organizer and resolver, and moves part of the reward to the
wallet. -/
theorem emergencyWithdraw_eq_ok {env : Env own} {s s' : State} {admin resolver : Address}
    {eventId : EventId} {amount : I128} :
    emergencyWithdraw env s admin resolver eventId amount = .ok s' ↔
      admin ∈ env.auths ∧ resolver ∈ env.auths ∧ NotPaused s.gov admin ∧ 0 < amount.val ∧
      ∃ event reward wallet balance, s.event.lookup eventId = some event ∧
        event.admin = admin ∧ event.resolver = resolver ∧ PreLaunch event.state ∧
        amount.val ≤ event.reward.val ∧ reward.val = event.reward.val - amount.val ∧
        s.wallet.lookup admin = some wallet ∧
        balance.val = wallet.balance.val + amount.val ∧
        s' = ((s.setEvent eventId { event with reward := reward }).setWallet admin
          { wallet with balance := balance }).publish
            (.emergencyWithdrawal eventId admin resolver amount) := by
  simp only [emergencyWithdraw, bind_eq_ok, requireAuth_eq_ok, assertNotPaused_eq_ok,
    ensure_eq_ok, exists_const, expect_eq_ok, BoundedInt.add_eq_some,
    BoundedInt.sub_eq_some, State.setEvent_wallet, pure_eq_ok]
  constructor
  · rintro ⟨ha, hr, hp, hpos, e, he, hadm, hres, hst, hle, r, hrw, w, hw, b, hb, rfl⟩
    exact ⟨ha, hr, hp, hpos, e, r, w, b, he, hadm, hres, hst, hle, hrw, hw, hb, rfl⟩
  · rintro ⟨ha, hr, hp, hpos, e, r, w, b, he, hadm, hres, hst, hle, hrw, hw, hb, rfl⟩
    exact ⟨ha, hr, hp, hpos, e, he, hadm, hres, hst, hle, r, hrw, w, hw, b, hb, rfl⟩

/-! ## Toward a live event -/

def setEventWaitingForStart (env : Env own) (s : State) (admin : Address)
    (eventId : EventId) : Except Trap State := do
  requireAuth env admin
  assertNotPaused s.gov admin
  let event ← expect (s.event.lookup eventId) (.panicked "Event does not exist")
  ensure (event.admin = admin) (.panicked "Only the event admin can update the event")
  ensure (event.state = .created)
    (.panicked "Event must be in Created state to wait for start")
  let s := s.setEvent eventId { event with state := .waitingForStart }
  return s.publish (.eventWaitingForStart eventId admin)

/-- `event.reward * i128::from(fee_bps) / 10_000`. -/
def goLiveFee (reward : I128) (feeBps : UInt32) : Except Trap I128 := do
  let product ← expect (reward.mul (I128.ofUInt32 feeBps)) .overflow
  expect (product.tdiv 10000) .overflow

/-- The charge made when a fee is due: it comes out of the organizer's free balance
and goes to the treasury. -/
def chargeGoLiveFee (env : Env own) (s : State) (admin token : Address) (fee : I128) :
    Except Trap (State × Address) := do
  let treasury ← getTreasury s.gov
  let wallet ← expect (s.wallet.lookup admin) (.panicked "Admin has no wallet registered")
  ensure (fee.val ≤ wallet.balance.val)
    (.panicked "Insufficient balance to cover the go-live fee")
  let balance ← expect (wallet.balance.sub fee) .overflow
  let s := s.setWallet admin { wallet with balance := balance }
  let s ← transfer env s token own treasury fee
  return (s, treasury)

def setEventInProgress (env : Env own) (s : State) (admin : Address) (eventId : EventId)
    (judgingDeadline : UInt64) : Except Trap State := do
  requireAuth env admin
  assertNotPaused s.gov admin
  let event ← expect (s.event.lookup eventId) (.panicked "Event does not exist")
  ensure (event.admin = admin) (.panicked "Only the event admin can start the event")
  ensure (PreLaunch event.state)
    (.panicked "Event must be in Created or WaitingForStart state to start")
  ensure (env.timestamp < judgingDeadline)
    (.panicked "Judging deadline must be in the future")
  let feeBps := getFeeBps s.gov
  let fee ← goLiveFee event.reward feeBps
  let live : Event := { event with state := .inProgress, judgingDeadline := some judgingDeadline }
  -- a fee that rounds to zero asks for neither a wallet nor a treasury
  if 0 < fee.val then
    let (s, treasury) ← chargeGoLiveFee env s admin event.token fee
    let s := (s.setEvent eventId live).publish (.eventStarted eventId admin)
    return s.publish (.feeCharged eventId admin treasury fee)
  else
    return (s.setEvent eventId live).publish (.eventStarted eventId admin)

def quoteGoLiveFee (s : State) (eventId : EventId) : Except Trap I128 := do
  let event ← expect (s.event.lookup eventId) (.panicked "Event does not exist")
  goLiveFee event.reward (getFeeBps s.gov)

/-- Only a created event can wait for its start, and nothing but its state changes. -/
theorem setEventWaitingForStart_eq_ok {env : Env own} {s s' : State} {admin : Address}
    {eventId : EventId} :
    setEventWaitingForStart env s admin eventId = .ok s' ↔
      admin ∈ env.auths ∧ NotPaused s.gov admin ∧
      ∃ event, s.event.lookup eventId = some event ∧ event.admin = admin ∧
        event.state = .created ∧
        s' = (s.setEvent eventId { event with state := .waitingForStart }).publish
          (.eventWaitingForStart eventId admin) := by
  simp only [setEventWaitingForStart, bind_eq_ok, requireAuth_eq_ok, assertNotPaused_eq_ok,
    ensure_eq_ok, exists_const, expect_eq_ok, pure_eq_ok]
  constructor
  · rintro ⟨ha, hp, e, he, hadm, hst, rfl⟩
    exact ⟨ha, hp, e, he, hadm, hst, rfl⟩
  · rintro ⟨ha, hp, e, he, hadm, hst, rfl⟩
    exact ⟨ha, hp, e, he, hadm, hst, rfl⟩

/-- The fee is the rate's share of the reward, rounded toward zero, where the product fits. -/
theorem goLiveFee_eq_ok {reward fee : I128} {feeBps : UInt32} :
    goLiveFee reward feeBps = .ok fee ↔
      ∃ product : I128, product.val = reward.val * feeBps.toNat ∧
        fee.val = product.val.tdiv 10000 := by
  simp only [goLiveFee, bind_eq_ok, expect_eq_ok, BoundedInt.mul_eq_some,
    BoundedInt.tdiv_eq_some (show (10000 : ℤ) ≠ 0 by decide), I128.ofUInt32_val]

/-- The fee is paid to the treasury out of the organizer's wallet. -/
theorem chargeGoLiveFee_eq_ok {env : Env own} {s s' : State} {admin token t : Address}
    {fee : I128} :
    chargeGoLiveFee env s admin token fee = .ok (s', t) ↔
      s.gov.treasury = some t ∧ ∃ wallet balance, s.wallet.lookup admin = some wallet ∧
        fee.val ≤ wallet.balance.val ∧ balance.val = wallet.balance.val - fee.val ∧
        env.transferOk s.balances token own t fee = true ∧
        s' = (s.setWallet admin { wallet with balance := balance }).setBalances
          (move s.balances token own t fee.val) := by
  simp only [chargeGoLiveFee, getTreasury, bind_eq_ok, expect_eq_ok, ensure_eq_ok,
    exists_const, BoundedInt.sub_eq_some, transfer_eq_ok, State.setWallet_balances,
    pure_eq_ok, Prod.mk.injEq]
  constructor
  · rintro ⟨t', ht, w, hw, hle, b, hb, s₁, ⟨hok, rfl⟩, rfl, rfl⟩
    exact ⟨ht, w, b, hw, hle, hb, hok, rfl⟩
  · rintro ⟨ht, w, b, hw, hle, hb, hok, rfl⟩
    exact ⟨t, ht, w, hw, hle, b, hb, _, ⟨hok, rfl⟩, rfl, rfl⟩

/-- Going live needs the organizer, an event before its launch and a judging deadline in the future;
a fee above zero is charged on the way. -/
theorem setEventInProgress_eq_ok {env : Env own} {s s' : State} {admin : Address}
    {eventId : EventId} {judgingDeadline : UInt64} :
    setEventInProgress env s admin eventId judgingDeadline = .ok s' ↔
      admin ∈ env.auths ∧ NotPaused s.gov admin ∧
      ∃ event fee, s.event.lookup eventId = some event ∧ event.admin = admin ∧
        PreLaunch event.state ∧ env.timestamp < judgingDeadline ∧
        goLiveFee event.reward (getFeeBps s.gov) = .ok fee ∧
        ((¬ 0 < fee.val ∧
          s' = (s.setEvent eventId { event with
            state := .inProgress, judgingDeadline := some judgingDeadline }).publish
              (.eventStarted eventId admin)) ∨
        (0 < fee.val ∧ ∃ t treasury,
          chargeGoLiveFee env s admin event.token fee = .ok (t, treasury) ∧
          s' = ((t.setEvent eventId { event with
            state := .inProgress, judgingDeadline := some judgingDeadline }).publish
              (.eventStarted eventId admin)).publish
                (.feeCharged eventId admin treasury fee))) := by
  simp only [setEventInProgress, bind_eq_ok, requireAuth_eq_ok, assertNotPaused_eq_ok,
    ensure_eq_ok, exists_const, expect_eq_ok]
  constructor
  · rintro ⟨ha, hp, e, he, hadm, hst, hd, fee, hfee, h⟩
    refine ⟨ha, hp, e, fee, he, hadm, hst, hd, hfee, ?_⟩
    by_cases hpos : 0 < fee.val
    · rw [if_pos hpos, bind_eq_ok] at h
      obtain ⟨⟨t, treasury⟩, hc, h⟩ := h
      exact .inr ⟨hpos, t, treasury, hc, (pure_eq_ok.mp h).symm⟩
    · rw [if_neg hpos] at h
      exact .inl ⟨hpos, (pure_eq_ok.mp h).symm⟩
  · rintro ⟨ha, hp, e, fee, he, hadm, hst, hd, hfee, h⟩
    refine ⟨ha, hp, e, he, hadm, hst, hd, fee, hfee, ?_⟩
    rcases h with ⟨hpos, rfl⟩ | ⟨hpos, t, treasury, hc, rfl⟩
    · rw [if_neg hpos]
      rfl
    · rw [if_pos hpos, bind_eq_ok]
      exact ⟨(t, treasury), hc, rfl⟩

/-! ## Reads -/

/-- Read `n` index entries from position `i` on. -/
def readIndex (s : State) (admin : Address) (i : ℕ) : ℕ → Except Trap (List EventId)
  | 0 => .ok []
  | n + 1 => do
      let id ← expect (s.eventIndex.lookup (admin, UInt32.ofNat i))
        (.panicked "called Option::unwrap() on a None value")
      let rest ← readIndex s admin (i + 1) n
      return id :: rest

def getEventsByAdminCount (s : State) (admin : Address) : UInt32 :=
  (s.eventsCount.lookup admin).getD 0

def getEventsByAdmin (s : State) (admin : Address) : Except Trap (List EventId) :=
  readIndex s admin 0 (getEventsByAdminCount s admin).toNat

def getEventsByAdminPage (s : State) (admin : Address) (offset limit : UInt32) :
    Except Trap (List EventId) :=
  let count := (getEventsByAdminCount s admin).toNat
  -- `saturating_add` stays at the largest `u32`
  let requestedEnd := min (offset.toNat + limit.toNat) 4294967295
  let stop := if requestedEnd < count then requestedEnd else count
  readIndex s admin offset.toNat (stop - offset.toNat)

def getEvent (s : State) (eventId : EventId) : Except Trap Event :=
  expect (s.event.lookup eventId) (.panicked "Event does not exist")

end Escrow
