/-
# The contract's interface and its effects

The exported entry points as one call type, their dispatch, and the inversion of a
successful call: `Effect` lists, entry point by entry point, every guard that held and
the exact state that is left.  All results about the contract start from `exec_effect`
and never unfold an entry point.
-/
import Astrea.EscrowWallet
import Astrea.EscrowLifecycle
import Astrea.EscrowRewards
import Astrea.EscrowGovernance

open Guard

namespace Escrow

/-- A call of one exported entry point with its arguments. -/
inductive Call where
  | depositFunds (admin token : Address) (amount : I128)
  | withdrawFunds (admin : Address) (amount : I128)
  | getBalance (admin : Address)
  | hasWallet (admin : Address)
  | createEvent (admin judge : Address) (resolver : Option Address) (token : Address)
      (reward : I128) (eventId : EventId)
  | createEventWithDeadline (admin judge : Address) (resolver : Option Address)
      (token : Address) (reward : I128) (eventId : EventId) (deadline : UInt64)
  | expireEvent (eventId : EventId)
  | setEventWaitingForStart (admin : Address) (eventId : EventId)
  | setEventInProgress (admin : Address) (eventId : EventId) (judgingDeadline : UInt64)
  | quoteGoLiveFee (eventId : EventId)
  | setEventCancelled (admin : Address) (eventId : EventId)
  | emergencyWithdraw (admin resolver : Address) (eventId : EventId) (amount : I128)
  | releaseCompensation (admin : Address) (eventId : EventId) (participants : List Participants)
  | releaseReward (judge : Address) (eventId : EventId) (winners : List Winner)
  | resolveDispute (resolver : Address) (eventId : EventId) (winners : List Winner)
  | getEventsByAdmin (admin : Address)
  | getEventsByAdminPage (admin : Address) (offset limit : UInt32)
  | getEventsByAdminCount (admin : Address)
  | getEvent (eventId : EventId)
  | initializeEmergencyAdmin (emergencyAdmin : Address)
  | initializeDefaultResolver (caller defaultResolver : Address)
  | getDefaultResolver
  | setPaused (caller : Address) (paused : Bool)
  | setAdminPaused (caller targetAdmin : Address) (paused : Bool)
  | isPaused
  | isAdminPaused (admin : Address)
  | setTokenWhitelistEnabled (caller : Address) (enabled : Bool)
  | setTokenAllowed (caller token : Address) (allowed : Bool)
  | isTokenAllowed (token : Address)
  | initializeTreasury (caller treasury : Address)
  | getTreasury
  | setFeeBps (caller : Address) (feeBps : UInt32)
  | getFeeBps
  deriving DecidableEq

variable {own : Address}

/-- Run a read-only entry point: it may trap, and it writes nothing. -/
def readOnly {α : Type} (s : State) (r : Except Trap α) : Except Trap State := do
  let _ ← r
  return s

/-- Run a call.  A trap carries no state: the host reverts what the call wrote. -/
def exec (env : Env own) (s : State) : Call → Except Trap State
  | .depositFunds admin token amount => depositFunds env s admin token amount
  | .withdrawFunds admin amount => withdrawFunds env s admin amount
  | .getBalance admin => readOnly s (.ok (getBalance s admin))
  | .hasWallet admin => readOnly s (.ok (hasWallet s admin))
  | .createEvent admin judge resolver token reward eventId => do
      let (s, _) ← createEvent env s admin judge resolver token reward eventId
      return s
  | .createEventWithDeadline admin judge resolver token reward eventId deadline => do
      let (s, _) ← createEventWithDeadline env s admin judge resolver token reward eventId deadline
      return s
  | .expireEvent eventId => expireEvent env s eventId
  | .setEventWaitingForStart admin eventId => setEventWaitingForStart env s admin eventId
  | .setEventInProgress admin eventId judgingDeadline =>
      setEventInProgress env s admin eventId judgingDeadline
  | .quoteGoLiveFee eventId => readOnly s (quoteGoLiveFee s eventId)
  | .setEventCancelled admin eventId => setEventCancelled env s admin eventId
  | .emergencyWithdraw admin resolver eventId amount =>
      emergencyWithdraw env s admin resolver eventId amount
  | .releaseCompensation admin eventId participants =>
      releaseCompensation env s admin eventId participants
  | .releaseReward judge eventId winners => releaseReward env s judge eventId winners
  | .resolveDispute resolver eventId winners => resolveDispute env s resolver eventId winners
  | .getEventsByAdmin admin => readOnly s (getEventsByAdmin s admin)
  | .getEventsByAdminPage admin offset limit =>
      readOnly s (getEventsByAdminPage s admin offset limit)
  | .getEventsByAdminCount admin => readOnly s (.ok (getEventsByAdminCount s admin))
  | .getEvent eventId => readOnly s (getEvent s eventId)
  | .initializeEmergencyAdmin emergencyAdmin => initializeEmergencyAdmin env s emergencyAdmin
  | .initializeDefaultResolver caller defaultResolver =>
      initializeDefaultResolver env s caller defaultResolver
  | .getDefaultResolver => readOnly s (getDefaultResolver s.gov)
  | .setPaused caller paused => setPaused env s caller paused
  | .setAdminPaused caller targetAdmin paused => setAdminPaused env s caller targetAdmin paused
  | .isPaused => readOnly s (.ok (isPaused s))
  | .isAdminPaused admin => readOnly s (.ok (isAdminPaused s admin))
  | .setTokenWhitelistEnabled caller enabled => setTokenWhitelistEnabled env s caller enabled
  | .setTokenAllowed caller token allowed => setTokenAllowed env s caller token allowed
  | .isTokenAllowed token => readOnly s (.ok (isTokenAllowed s.gov token))
  | .initializeTreasury caller treasury => initializeTreasury env s caller treasury
  | .getTreasury => readOnly s (getTreasury s.gov)
  | .setFeeBps caller feeBps => setFeeBps env s caller feeBps
  | .getFeeBps => readOnly s (.ok (getFeeBps s.gov))

/-- The fields a creation call names: the organizer, the judge, the resolver if one is
named, the token, the reward, the event id and the deadline if there is one. -/
structure Creation where
  admin : Address
  judge : Address
  resolver : Option Address
  token : Address
  reward : I128
  eventId : EventId
  deadline : Option UInt64
  deriving DecidableEq

namespace Call

/-- The creation a call asks for, when it is one of the two creation entry points. -/
def creation? : Call → Option Creation
  | .createEvent admin judge resolver token reward eventId =>
      some ⟨admin, judge, resolver, token, reward, eventId, none⟩
  | .createEventWithDeadline admin judge resolver token reward eventId deadline =>
      some ⟨admin, judge, resolver, token, reward, eventId, some deadline⟩
  | _ => none

/-- The entry points that write a wallet, an event or a token balance; the others are
reads and governance. -/
def movesFunds : Call → Bool
  | .depositFunds .. | .withdrawFunds .. | .createEvent .. | .createEventWithDeadline ..
  | .expireEvent .. | .setEventWaitingForStart .. | .setEventInProgress ..
  | .setEventCancelled .. | .emergencyWithdraw .. | .releaseCompensation ..
  | .releaseReward .. | .resolveDispute .. => true
  | _ => false

/-- Reads and governance create nothing. -/
theorem creation?_of_quiet {call : Call} (h : call.movesFunds = false) :
    call.creation? = none := by
  cases call <;> first | rfl | exact nomatch h

end Call

/-- The event a successful creation writes. -/
def Creation.event (c : Creation) (resolver : Address) : Event :=
  { admin := c.admin, judge := c.judge, token := c.token, resolver := resolver,
    reward := c.reward, state := .created, deadline := c.deadline, judgingDeadline := none }

/-- What a successful call did: the guards that held and the state it left. -/
inductive Effect (env : Env own) (s : State) : Call → State → Prop
  | deposit {admin token : Address} {amount : I128} {wallet : AdminWallet} {balance : I128}
      (auth : admin ∈ env.auths) (unpaused : NotPaused s.gov admin)
      (allowed : isTokenAllowed s.gov token = true) (pos : 0 < amount.val)
      (wallet_eq : (s.wallet.lookup admin).getD ⟨token, .ofNat 0⟩ = wallet)
      (token_eq : wallet.token = token)
      (balance_eq : balance.val = wallet.balance.val + amount.val) :
      Effect env s (.depositFunds admin token amount)
        ((s.setBalances (move s.balances token admin own amount.val)).setWallet admin
          { wallet with balance := balance })
  | withdraw {admin : Address} {amount : I128} {wallet : AdminWallet} {balance : I128}
      (auth : admin ∈ env.auths) (unpaused : NotPaused s.gov admin) (pos : 0 < amount.val)
      (wallet_eq : s.wallet.lookup admin = some wallet)
      (covered : amount.val ≤ wallet.balance.val)
      (balance_eq : balance.val = wallet.balance.val - amount.val) :
      Effect env s (.withdrawFunds admin amount)
        ((s.setWallet admin { wallet with balance := balance }).setBalances
          (move s.balances wallet.token own admin amount.val))
  | create {call : Call} {c : Creation} {wallet : AdminWallet} {balance : I128}
      {resolver : Address} {next : UInt32} (call_eq : call.creation? = some c)
      (auth : c.admin ∈ env.auths) (unpaused : NotPaused s.gov c.admin)
      (pos : 0 < c.reward.val) (fresh : s.event.lookup c.eventId = none)
      (wallet_eq : s.wallet.lookup c.admin = some wallet) (token_eq : wallet.token = c.token)
      (covered : c.reward.val ≤ wallet.balance.val)
      (balance_eq : balance.val = wallet.balance.val - c.reward.val)
      (resolver_eq : effectiveResolver s.gov c.resolver = some resolver) :
      Effect env s call
        ((((s.setWallet c.admin { wallet with balance := balance }).setEvent c.eventId
          (c.event resolver)).appendIndex c.admin ((s.eventsCount.lookup c.admin).getD 0) next
            c.eventId).publish (.eventCreated c.eventId c.admin c.reward))
  | expire {eventId : EventId} {event : Event} {deadline : UInt64} {wallet : AdminWallet}
      {balance : I128} (event_eq : s.event.lookup eventId = some event)
      (state_eq : PreLaunch event.state) (deadline_eq : event.deadline = some deadline)
      (passed : deadline ≤ env.timestamp)
      (wallet_eq : s.wallet.lookup event.admin = some wallet)
      (balance_eq : balance.val = wallet.balance.val + event.reward.val) :
      Effect env s (.expireEvent eventId)
        (((s.setEvent eventId { event with state := .cancelled }).setWallet event.admin
          { wallet with balance := balance }).publish
            (.eventExpired eventId event.admin event.reward))
  | waiting {admin : Address} {eventId : EventId} {event : Event}
      (auth : admin ∈ env.auths) (event_eq : s.event.lookup eventId = some event)
      (admin_eq : event.admin = admin) (state_eq : event.state = .created) :
      Effect env s (.setEventWaitingForStart admin eventId)
        ((s.setEvent eventId { event with state := .waitingForStart }).publish
          (.eventWaitingForStart eventId admin))
  | goLiveFree {admin : Address} {eventId : EventId} {judgingDeadline : UInt64}
      {event : Event} {fee : I128} (auth : admin ∈ env.auths)
      (event_eq : s.event.lookup eventId = some event) (admin_eq : event.admin = admin)
      (state_eq : PreLaunch event.state) (future : env.timestamp < judgingDeadline)
      (fee_eq : goLiveFee event.reward (getFeeBps s.gov) = .ok fee) (no_fee : ¬ 0 < fee.val) :
      Effect env s (.setEventInProgress admin eventId judgingDeadline)
        ((s.setEvent eventId
          { event with state := .inProgress, judgingDeadline := some judgingDeadline }).publish
            (.eventStarted eventId admin))
  | goLiveCharged {admin : Address} {eventId : EventId} {judgingDeadline : UInt64}
      {event : Event} {fee : I128} {treasury : Address} {wallet : AdminWallet}
      {balance : I128} (auth : admin ∈ env.auths)
      (event_eq : s.event.lookup eventId = some event) (admin_eq : event.admin = admin)
      (state_eq : PreLaunch event.state) (future : env.timestamp < judgingDeadline)
      (fee_eq : goLiveFee event.reward (getFeeBps s.gov) = .ok fee) (fee_pos : 0 < fee.val)
      (treasury_eq : s.gov.treasury = some treasury)
      (wallet_eq : s.wallet.lookup admin = some wallet)
      (covered : fee.val ≤ wallet.balance.val)
      (balance_eq : balance.val = wallet.balance.val - fee.val) :
      Effect env s (.setEventInProgress admin eventId judgingDeadline)
        (((((s.setWallet admin { wallet with balance := balance }).setBalances
          (move s.balances event.token own treasury fee.val)).setEvent eventId
            { event with state := .inProgress, judgingDeadline := some judgingDeadline }).publish
              (.eventStarted eventId admin)).publish (.feeCharged eventId admin treasury fee))
  | cancel {admin : Address} {eventId : EventId} {event : Event} {wallet : AdminWallet}
      {balance : I128} (auth : admin ∈ env.auths)
      (event_eq : s.event.lookup eventId = some event) (admin_eq : event.admin = admin)
      (state_eq : PreLaunch event.state) (wallet_eq : s.wallet.lookup admin = some wallet)
      (balance_eq : balance.val = wallet.balance.val + event.reward.val) :
      Effect env s (.setEventCancelled admin eventId)
        (((s.setEvent eventId { event with state := .cancelled }).setWallet admin
          { wallet with balance := balance }).publish
            (.eventCancelled eventId admin event.reward))
  | emergency {admin resolver : Address} {eventId : EventId} {amount reward : I128}
      {event : Event} {wallet : AdminWallet} {balance : I128} (auth : admin ∈ env.auths)
      (resolver_auth : resolver ∈ env.auths) (pos : 0 < amount.val)
      (event_eq : s.event.lookup eventId = some event) (admin_eq : event.admin = admin)
      (resolver_eq : event.resolver = resolver) (state_eq : PreLaunch event.state)
      (covered : amount.val ≤ event.reward.val)
      (reward_eq : reward.val = event.reward.val - amount.val)
      (wallet_eq : s.wallet.lookup admin = some wallet)
      (balance_eq : balance.val = wallet.balance.val + amount.val) :
      Effect env s (.emergencyWithdraw admin resolver eventId amount)
        (((s.setEvent eventId { event with reward := reward }).setWallet admin
          { wallet with balance := balance }).publish
            (.emergencyWithdrawal eventId admin resolver amount))
  | compensate {admin : Address} {eventId : EventId} {participants : List Participants}
      {event : Event} {total : I128} {wallet : AdminWallet} {balance : I128}
      (auth : admin ∈ env.auths) (event_eq : s.event.lookup eventId = some event)
      (admin_eq : event.admin = admin) (state_eq : event.state = .cancelled)
      (positive : ∀ p ∈ participants, 0 < p.amountCompensation.val)
      (total_eq : total.val = totalPaid (participantPayments participants))
      (wallet_eq : s.wallet.lookup admin = some wallet)
      (covered : total.val ≤ wallet.balance.val)
      (balance_eq : balance.val = wallet.balance.val - total.val) :
      Effect env s (.releaseCompensation admin eventId participants)
        ((((s.setWallet admin { wallet with balance := balance }).setBalances
          (moveAll s.balances wallet.token own (participantPayments participants))).setEvent
            eventId { event with state := .compensated }).publish
              (.compensationReleased eventId admin total))
  | release {judge : Address} {eventId : EventId} {winners : List Winner} {event : Event}
      (auth : judge ∈ env.auths) (event_eq : s.event.lookup eventId = some event)
      (unpaused : NotPaused s.gov event.admin) (judge_eq : event.judge = judge)
      (state_eq : event.state = .inProgress) (valid : ValidSplit winners event.reward.val) :
      Effect env s (.releaseReward judge eventId winners)
        ((paidOut own s eventId event winners).publish
          (.rewardReleased eventId event.admin event.reward))
  | resolve {resolver : Address} {eventId : EventId} {winners : List Winner} {event : Event}
      {judgingDeadline : UInt64} (auth : resolver ∈ env.auths)
      (event_eq : s.event.lookup eventId = some event)
      (unpaused : NotPaused s.gov event.admin) (resolver_eq : event.resolver = resolver)
      (state_eq : event.state = .inProgress)
      (deadline_eq : event.judgingDeadline = some judgingDeadline)
      (passed : judgingDeadline ≤ env.timestamp)
      (valid : ValidSplit winners event.reward.val) :
      Effect env s (.resolveDispute resolver eventId winners)
        ((paidOut own s eventId event winners).publish
          (.disputeResolved eventId resolver event.reward))
  | govern {call : Call} {g : Governance} {ns : List ContractEvent}
      (quiet : call.movesFunds = false) : Effect env s call (governed s g ns)
  | read {call : Call} (quiet : call.movesFunds = false) : Effect env s call s

theorem readOnly_eq_ok {α : Type} {s s' : State} {r : Except Trap α} :
    readOnly s r = .ok s' → s' = s := by
  intro h
  obtain ⟨_, -, h⟩ := bind_eq_ok.mp h
  exact (pure_eq_ok.mp h).symm

/-- A creation has the effect of its record. -/
theorem createEvent_effect {env : Env own} {s s' : State} {call : Call} {c : Creation}
    {i : EventId} (hcall : call.creation? = some c)
    (h : createEventInternal env s c.admin c.judge c.resolver c.token c.reward c.eventId
      c.deadline = .ok (s', i)) : Effect env s call s' := by
  obtain ⟨ha, hp, -, hpos, -, hnew, w, b, r, n, hw, htok, hle, hb, hr, -, rfl, -⟩ :=
    createEventInternal_eq_ok.mp h
  exact .create hcall ha hp hpos hnew hw htok hle hb hr

/-- Going live is free or charged. -/
theorem setEventInProgress_effect {env : Env own} {s s' : State} {admin : Address}
    {eventId : EventId} {judgingDeadline : UInt64}
    (h : setEventInProgress env s admin eventId judgingDeadline = .ok s') :
    Effect env s (.setEventInProgress admin eventId judgingDeadline) s' := by
  obtain ⟨ha, -, e, fee, he, hadm, hst, hd, hfee, h⟩ := setEventInProgress_eq_ok.mp h
  rcases h with ⟨hpos, rfl⟩ | ⟨hpos, t, treasury, hc, rfl⟩
  · exact .goLiveFree ha he hadm hst hd hfee hpos
  · obtain ⟨ht, w, b, hw, hle, hb, -, rfl⟩ := chargeGoLiveFee_eq_ok.mp hc
    exact .goLiveCharged ha he hadm hst hd hfee hpos ht hw hle hb

/-- Every successful call is one of the listed effects. -/
theorem exec_effect {env : Env own} {s s' : State} {call : Call}
    (h : exec env s call = .ok s') : Effect env s call s' := by
  cases call with
  | depositFunds admin token amount =>
      obtain ⟨ha, hp, ht, hpos, -, w, b, hw, htok, hb, rfl⟩ := depositFunds_eq_ok.mp h
      exact .deposit ha hp ht hpos hw htok hb
  | withdrawFunds admin amount =>
      obtain ⟨ha, hp, hpos, w, b, hw, hle, hb, -, rfl⟩ := withdrawFunds_eq_ok.mp h
      exact .withdraw ha hp hpos hw hle hb
  | createEvent admin judge resolver token reward eventId =>
      obtain ⟨⟨t, i⟩, hc, ht⟩ := bind_eq_ok.mp h
      obtain rfl := pure_eq_ok.mp ht
      exact createEvent_effect rfl hc
  | createEventWithDeadline admin judge resolver token reward eventId deadline =>
      obtain ⟨⟨t, i⟩, hc, ht⟩ := bind_eq_ok.mp h
      obtain rfl := pure_eq_ok.mp ht
      exact createEvent_effect rfl hc
  | expireEvent eventId =>
      obtain ⟨e, d, w, b, he, hst, hd, hle, hw, hb, rfl⟩ := expireEvent_eq_ok.mp h
      exact .expire he hst hd hle hw hb
  | setEventWaitingForStart admin eventId =>
      obtain ⟨ha, -, e, he, hadm, hst, rfl⟩ := setEventWaitingForStart_eq_ok.mp h
      exact .waiting ha he hadm hst
  | setEventInProgress admin eventId judgingDeadline => exact setEventInProgress_effect h
  | setEventCancelled admin eventId =>
      obtain ⟨ha, -, e, w, b, he, hadm, hst, hw, hb, rfl⟩ := setEventCancelled_eq_ok.mp h
      exact .cancel ha he hadm hst hw hb
  | emergencyWithdraw admin resolver eventId amount =>
      obtain ⟨ha, hr, -, hpos, e, r, w, b, he, hadm, hres, hst, hle, hrw, hw, hb, rfl⟩ :=
        emergencyWithdraw_eq_ok.mp h
      exact .emergency ha hr hpos he hadm hres hst hle hrw hw hb
  | releaseCompensation admin eventId participants =>
      obtain ⟨ha, -, e, t, w, b, he, hadm, hst, -, hpos, htot, hw, hle, hb, -, rfl⟩ :=
        releaseCompensation_eq_ok.mp h
      exact .compensate ha he hadm hst hpos htot hw hle hb
  | releaseReward judge eventId winners =>
      obtain ⟨ha, e, he, hp, hj, hst, hv, -, rfl⟩ := releaseReward_eq_ok.mp h
      exact .release ha he hp hj hst hv
  | resolveDispute resolver eventId winners =>
      obtain ⟨ha, e, d, he, hp, hr, hst, hd, hle, hv, -, rfl⟩ := resolveDispute_eq_ok.mp h
      exact .resolve ha he hp hr hst hd hle hv
  | initializeEmergencyAdmin a =>
      obtain ⟨-, -, rfl⟩ := initializeEmergencyAdmin_eq_ok.mp h
      rw [setGov_eq_governed]
      exact .govern rfl
  | initializeDefaultResolver caller a =>
      obtain ⟨-, -, rfl⟩ := initializeDefaultResolver_eq_ok.mp h
      rw [setGov_eq_governed]
      exact .govern rfl
  | setPaused caller p =>
      obtain ⟨-, rfl⟩ := setPaused_eq_ok.mp h
      exact .govern rfl
  | setAdminPaused caller a p =>
      obtain ⟨-, rfl⟩ := setAdminPaused_eq_ok.mp h
      exact .govern rfl
  | setTokenWhitelistEnabled caller p =>
      obtain ⟨-, rfl⟩ := setTokenWhitelistEnabled_eq_ok.mp h
      rw [setGov_eq_governed]
      exact .govern rfl
  | setTokenAllowed caller a p =>
      obtain ⟨-, rfl⟩ := setTokenAllowed_eq_ok.mp h
      rw [setGov_eq_governed]
      exact .govern rfl
  | initializeTreasury caller a =>
      obtain ⟨-, -, rfl⟩ := initializeTreasury_eq_ok.mp h
      rw [setGov_eq_governed]
      exact .govern rfl
  | setFeeBps caller bps =>
      obtain ⟨-, -, rfl⟩ := setFeeBps_eq_ok.mp h
      rw [setGov_eq_governed]
      exact .govern rfl
  | _ =>
      obtain rfl := readOnly_eq_ok h
      exact .read rfl

end Escrow
