/-
# The data model of the event escrow

What the `EventEscrow` contract keeps on the ledger (wallets, events, the
per-organizer index, the governance values), the notifications it publishes, and
the environment the host hands to a call.  Storage keys of one kind become one
table; `Option` stands for a singleton key that may be absent.
-/
import Astrea.KeyTable
import Astrea.BoundedInt
import Mathlib.Data.List.AList

namespace Escrow

/-- The contract's `i128`, which traps on overflow (`overflow-checks = true`). -/
abbrev I128 : Type :=
  BoundedInt (-170141183460469231731687303715884105728) 170141183460469231731687303715884105727

/-- The `i128` of a small literal. -/
def I128.ofNat (n : ℕ)
    (h : Nat.ble n 170141183460469231731687303715884105727 = true := by exact Eq.refl true) : I128 :=
  ⟨n, le_trans (by decide) (Int.natCast_nonneg n), by exact_mod_cast Nat.le_of_ble_eq_true h⟩

/-- `i128::from(n)`. -/
def I128.ofUInt32 (n : UInt32) : I128 :=
  ⟨n.toNat, le_trans (by decide) (Int.natCast_nonneg _), by have := n.toNat_lt; omega⟩

@[simp] theorem I128.ofUInt32_val (n : UInt32) : (I128.ofUInt32 n).val = n.toNat := rfl

/-- `BytesN<16>`. -/
abbrev EventId : Type := BitVec 128

/-- A ledger address: a key-controlled account or a contract. -/
inductive Address where
  | account (key : BitVec 256)
  | contract (hash : BitVec 256)
  deriving DecidableEq, Repr

/-- The states of an event. -/
inductive EventState where
  | created
  | waitingForStart
  | inProgress
  | ended
  | compensated
  | cancelled
  deriving DecidableEq, Repr

/-- An organizer's free balance, in the one token of the wallet. -/
structure AdminWallet where
  token : Address
  balance : I128
  deriving DecidableEq

/-- An event with its reserved reward. -/
structure Event where
  admin : Address
  judge : Address
  token : Address
  resolver : Address
  reward : I128
  state : EventState
  deadline : Option UInt64
  judgingDeadline : Option UInt64
  deriving DecidableEq

/-- A participant of a cancelled event and what it is paid back. -/
structure Participants where
  address : Address
  amountCompensation : I128
  deriving DecidableEq

/-- One entry of a winners list. -/
structure Winner where
  place : UInt32
  amount : I128
  address : Address
  deriving DecidableEq

/-- The keys the emergency admin controls. -/
structure Governance where
  emergencyAdmin : Option Address
  defaultResolver : Option Address
  paused : Option Bool
  adminPaused : KeyTable Address Bool
  tokenWhitelistEnabled : Option Bool
  allowedToken : KeyTable Address Bool
  treasury : Option Address
  feeBps : Option UInt32

/-- The notifications the contract publishes. -/
inductive ContractEvent where
  | eventCreated (eventId : EventId) (admin : Address) (reward : I128)
  | eventExpired (eventId : EventId) (admin : Address) (reward : I128)
  | eventWaitingForStart (eventId : EventId) (admin : Address)
  | eventStarted (eventId : EventId) (admin : Address)
  | eventCancelled (eventId : EventId) (admin : Address) (reward : I128)
  | compensationReleased (eventId : EventId) (admin : Address) (total : I128)
  | rewardReleased (eventId : EventId) (admin : Address) (totalDistributed : I128)
  | disputeResolved (eventId : EventId) (resolver : Address) (totalDistributed : I128)
  | emergencyWithdrawal (eventId : EventId) (admin resolver : Address) (amount : I128)
  | feeCharged (eventId : EventId) (admin treasury : Address) (fee : I128)
  | contractPaused (paused : Bool)
  | adminPaused (admin : Address) (paused : Bool)
  deriving DecidableEq

/-- Token balances: the token's address, then the holder's. -/
abbrev Balances : Type := Address → Address → ℤ

/-- The contract's storage, the notifications published so far, and the token
balances of the ledger it runs on. -/
structure State where
  wallet : KeyTable Address AdminWallet
  event : KeyTable EventId Event
  eventsCount : KeyTable Address UInt32
  eventIndex : KeyTable (Address × UInt32) EventId
  gov : Governance
  published : List ContractEvent
  balances : Balances

/-- Why a call trapped; the host then reverts every write of the call. -/
inductive Trap where
  | panicked (message : String)
  | overflow
  | unauthorized (address : Address)
  | transferFailed
  deriving DecidableEq, Repr

/-- What the host provides to one call of the contract at address `own`: the
ledger time, the addresses that authorised the call, and whether a token accepts a
transfer.  The contract's own address never authorises a call. -/
structure Env (own : Address) where
  timestamp : UInt64
  auths : List Address
  noSelfAuth : own ∉ auths
  transferOk : Balances → Address → Address → Address → I128 → Bool

/-! ## Writes -/

namespace State

/-- Write a wallet. -/
def setWallet (s : State) (admin : Address) (w : AdminWallet) : State :=
  { s with wallet := s.wallet.insert admin w }

/-- Write an event. -/
def setEvent (s : State) (eventId : EventId) (e : Event) : State :=
  { s with event := s.event.insert eventId e }

/-- Publish a notification. -/
def publish (s : State) (n : ContractEvent) : State :=
  { s with published := s.published ++ [n] }

/-- Replace the token balances. -/
def setBalances (s : State) (b : Balances) : State := { s with balances := b }

/-- Append an event to its organizer's index. -/
def appendIndex (s : State) (admin : Address) (count next : UInt32) (eventId : EventId) :
    State :=
  { s with
    eventIndex := s.eventIndex.insert (admin, count) eventId
    eventsCount := s.eventsCount.insert admin next }

/-- Replace the governance values. -/
def setGov (s : State) (g : Governance) : State := { s with gov := g }

variable (s : State) (a : Address) (w : AdminWallet) (i : EventId) (e : Event)
  (n : ContractEvent) (b : Balances) (c c' : UInt32) (g : Governance)

@[simp] theorem setWallet_wallet : (s.setWallet a w).wallet = s.wallet.insert a w := rfl
@[simp] theorem setWallet_event : (s.setWallet a w).event = s.event := rfl
@[simp] theorem setWallet_balances : (s.setWallet a w).balances = s.balances := rfl
@[simp] theorem setWallet_gov : (s.setWallet a w).gov = s.gov := rfl
@[simp] theorem setEvent_wallet : (s.setEvent i e).wallet = s.wallet := rfl
@[simp] theorem setEvent_event : (s.setEvent i e).event = s.event.insert i e := rfl
@[simp] theorem setEvent_balances : (s.setEvent i e).balances = s.balances := rfl
@[simp] theorem setEvent_gov : (s.setEvent i e).gov = s.gov := rfl
@[simp] theorem publish_wallet : (s.publish n).wallet = s.wallet := rfl
@[simp] theorem publish_event : (s.publish n).event = s.event := rfl
@[simp] theorem publish_balances : (s.publish n).balances = s.balances := rfl
@[simp] theorem publish_gov : (s.publish n).gov = s.gov := rfl
@[simp] theorem setBalances_wallet : (s.setBalances b).wallet = s.wallet := rfl
@[simp] theorem setBalances_event : (s.setBalances b).event = s.event := rfl
@[simp] theorem setBalances_balances : (s.setBalances b).balances = b := rfl
@[simp] theorem setBalances_gov : (s.setBalances b).gov = s.gov := rfl
@[simp] theorem appendIndex_wallet : (s.appendIndex a c c' i).wallet = s.wallet := rfl
@[simp] theorem appendIndex_event : (s.appendIndex a c c' i).event = s.event := rfl
@[simp] theorem appendIndex_balances : (s.appendIndex a c c' i).balances = s.balances := rfl
@[simp] theorem appendIndex_gov : (s.appendIndex a c c' i).gov = s.gov := rfl
@[simp] theorem setGov_wallet : (s.setGov g).wallet = s.wallet := rfl
@[simp] theorem setGov_event : (s.setGov g).event = s.event := rfl
@[simp] theorem setGov_balances : (s.setGov g).balances = s.balances := rfl
@[simp] theorem setGov_gov : (s.setGov g).gov = g := rfl

end State

end Escrow
