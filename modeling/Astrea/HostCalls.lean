/-
# The host functions of the service

Every host function that `wallet.go` and `lifecycle.go` build, with what each passes to the
contract.  A builder succeeds exactly when its arguments can be encoded and its list fits.
-/
import Astrea.ArgsFaithful

open Guard Service

namespace Soroban

variable {sdk : Sdk}

/-! ## The builders -/

section Builders

variable (sdk : Sdk)

def scU64 (v : UInt64) : ScVal := .u64 v

/-- The value of type `ScvVoid`. -/
def scVoid : ScVal := .other "ScValTypeScvVoid" []

def depositFundsHostFunction (contract : ScAddress) (admin token : GoString) (amount : Int64) :
    Except Message HostFunction := do
  let adminArg ← wrapErr "escrow: encoding admin address: " [] (encodeAddress sdk admin)
  let tokenArg ← wrapErr "escrow: encoding token address: " [] (encodeAddress sdk token)
  return invokeContractHF contract "deposit_funds" [adminArg, tokenArg, encodeI128 amount]

def withdrawFundsHostFunction (contract : ScAddress) (admin : GoString) (amount : Int64) :
    Except Message HostFunction := do
  let adminArg ← wrapErr "escrow: encoding admin address: " [] (encodeAddress sdk admin)
  return invokeContractHF contract "withdraw_funds" [adminArg, encodeI128 amount]

def getBalanceHostFunction (contract : ScAddress) (admin : GoString) :
    Except Message HostFunction := do
  let adminArg ← wrapErr "escrow: encoding admin address: " [] (encodeAddress sdk admin)
  return invokeContractHF contract "get_balance" [adminArg]

/-- An empty resolver is `Option::None`, the contract's default resolver. -/
def resolverScVal (resolver : GoString) : Except Message ScVal :=
  if resolver = [] then .ok scVoid
  else wrapErr "escrow: encoding resolver address: " [] (encodeAddress sdk resolver)

def createEventHostFunction (contract : ScAddress) (admin judge resolver token : GoString)
    (reward : Int64) (eventID : EventID) : Except Message HostFunction := do
  let adminArg ← wrapErr "escrow: encoding admin address: " [] (encodeAddress sdk admin)
  let judgeArg ← wrapErr "escrow: encoding judge address: " [] (encodeAddress sdk judge)
  let resolverArg ← resolverScVal sdk resolver
  let tokenArg ← wrapErr "escrow: encoding token address: " [] (encodeAddress sdk token)
  return invokeContractHF contract "create_event"
    [adminArg, judgeArg, resolverArg, tokenArg, encodeI128 reward, eventID.scVal]

/-- A call of `fn` by the organizer about one event. -/
def adminEventHostFunction (fn : String) (contract : ScAddress) (admin : GoString)
    (eventID : EventID) : Except Message HostFunction := do
  let adminArg ← wrapErr "escrow: encoding admin address: " [] (encodeAddress sdk admin)
  return invokeContractHF contract fn [adminArg, eventID.scVal]

def setEventCancelledHostFunction (contract : ScAddress) (admin : GoString) (eventID : EventID) :
    Except Message HostFunction :=
  adminEventHostFunction sdk "set_event_cancelled" contract admin eventID

def setEventWaitingForStartHostFunction (contract : ScAddress) (admin : GoString)
    (eventID : EventID) : Except Message HostFunction :=
  adminEventHostFunction sdk "set_event_waiting_for_start" contract admin eventID

def setEventInProgressHostFunction (contract : ScAddress) (admin : GoString) (eventID : EventID)
    (judgingDeadline : UInt64) : Except Message HostFunction := do
  let adminArg ← wrapErr "escrow: encoding admin address: " [] (encodeAddress sdk admin)
  return invokeContractHF contract "set_event_in_progress"
    [adminArg, eventID.scVal, scU64 judgingDeadline]

def expireEventHostFunction (contract : ScAddress) (eventID : EventID) : HostFunction :=
  invokeContractHF contract "expire_event" [eventID.scVal]

/-- What `QuoteGoLiveFee` simulates. -/
def quoteGoLiveFeeHostFunction (contract : ScAddress) (eventID : EventID) : HostFunction :=
  invokeContractHF contract "quote_go_live_fee" [eventID.scVal]

/-- What `GetDefaultResolver` simulates. -/
def getDefaultResolverHostFunction (contract : ScAddress) : HostFunction :=
  invokeContractHF contract "get_default_resolver" []

def emergencyWithdrawHostFunction (contract : ScAddress) (admin resolver : GoString)
    (eventID : EventID) (amount : Int64) : Except Message HostFunction := do
  let adminArg ← wrapErr "escrow: encoding admin address: " [] (encodeAddress sdk admin)
  let resolverArg ← wrapErr "escrow: encoding resolver address: " [] (encodeAddress sdk resolver)
  return invokeContractHF contract "emergency_withdraw"
    [adminArg, resolverArg, eventID.scVal, encodeI128 amount]

end Builders

/-! ## The requests -/

/-- What the service can ask of the contract. -/
inductive Invocation where
  | depositFunds (admin token : GoString) (amount : Int64)
  | withdrawFunds (admin : GoString) (amount : Int64)
  | getBalance (admin : GoString)
  | createEvent (admin judge resolver token : GoString) (reward : Int64) (eventID : EventID)
  | setEventCancelled (admin : GoString) (eventID : EventID)
  | setEventWaitingForStart (admin : GoString) (eventID : EventID)
  | setEventInProgress (admin : GoString) (eventID : EventID) (judgingDeadline : UInt64)
  | expireEvent (eventID : EventID)
  | quoteGoLiveFee (eventID : EventID)
  | getDefaultResolver
  | releaseReward (judge : GoString) (eventID : EventID) (winners : List Winner)
  | resolveDispute (resolver : GoString) (eventID : EventID) (winners : List Winner)
  | releaseCompensation (admin : GoString) (eventID : EventID) (participants : List Participant)
  | emergencyWithdraw (admin resolver : GoString) (eventID : EventID) (amount : Int64)
  deriving DecidableEq

namespace Invocation

/-- The builder of a request. -/
def hostFunction (sdk : Sdk) (contract : ScAddress) : Invocation → Except Message HostFunction
  | depositFunds admin token amount => depositFundsHostFunction sdk contract admin token amount
  | withdrawFunds admin amount => withdrawFundsHostFunction sdk contract admin amount
  | getBalance admin => getBalanceHostFunction sdk contract admin
  | createEvent admin judge resolver token reward eventID =>
      createEventHostFunction sdk contract admin judge resolver token reward eventID
  | setEventCancelled admin eventID => setEventCancelledHostFunction sdk contract admin eventID
  | setEventWaitingForStart admin eventID =>
      setEventWaitingForStartHostFunction sdk contract admin eventID
  | setEventInProgress admin eventID judgingDeadline =>
      setEventInProgressHostFunction sdk contract admin eventID judgingDeadline
  | expireEvent eventID => .ok (expireEventHostFunction contract eventID)
  | quoteGoLiveFee eventID => .ok (quoteGoLiveFeeHostFunction contract eventID)
  | getDefaultResolver => .ok (getDefaultResolverHostFunction contract)
  | releaseReward judge eventID winners =>
      releaseRewardHostFunction sdk contract judge eventID winners
  | resolveDispute resolver eventID winners =>
      resolveDisputeHostFunction sdk contract resolver eventID winners
  | releaseCompensation admin eventID participants =>
      releaseCompensationHostFunction sdk contract admin eventID participants
  | emergencyWithdraw admin resolver eventID amount =>
      emergencyWithdrawHostFunction sdk contract admin resolver eventID amount

/-- The entry point that is called. -/
def functionName : Invocation → String
  | depositFunds .. => "deposit_funds"
  | withdrawFunds .. => "withdraw_funds"
  | getBalance .. => "get_balance"
  | createEvent .. => "create_event"
  | setEventCancelled .. => "set_event_cancelled"
  | setEventWaitingForStart .. => "set_event_waiting_for_start"
  | setEventInProgress .. => "set_event_in_progress"
  | expireEvent .. => "expire_event"
  | quoteGoLiveFee .. => "quote_go_live_fee"
  | getDefaultResolver => "get_default_resolver"
  | releaseReward .. => "release_reward"
  | resolveDispute .. => "resolve_dispute"
  | releaseCompensation .. => "release_compensation"
  | emergencyWithdraw .. => "emergency_withdraw"

/-- What the arguments are encoded from, in the order of the call. -/
def arguments (sdk : Sdk) : Invocation → List (Except Message ScVal)
  | depositFunds admin token amount =>
      [encodeAddress sdk admin, encodeAddress sdk token, .ok (encodeI128 amount)]
  | withdrawFunds admin amount => [encodeAddress sdk admin, .ok (encodeI128 amount)]
  | getBalance admin => [encodeAddress sdk admin]
  | createEvent admin judge resolver token reward eventID =>
      [encodeAddress sdk admin, encodeAddress sdk judge, resolverScVal sdk resolver,
        encodeAddress sdk token, .ok (encodeI128 reward), .ok eventID.scVal]
  | setEventCancelled admin eventID | setEventWaitingForStart admin eventID =>
      [encodeAddress sdk admin, .ok eventID.scVal]
  | setEventInProgress admin eventID judgingDeadline =>
      [encodeAddress sdk admin, .ok eventID.scVal, .ok (scU64 judgingDeadline)]
  | expireEvent eventID | quoteGoLiveFee eventID => [.ok eventID.scVal]
  | getDefaultResolver => []
  | releaseReward signer eventID winners | resolveDispute signer eventID winners =>
      [encodeAddress sdk signer, .ok eventID.scVal, winnersScVal sdk winners]
  | releaseCompensation admin eventID participants =>
      [encodeAddress sdk admin, .ok eventID.scVal, participantsScVal sdk participants]
  | emergencyWithdraw admin resolver eventID amount =>
      [encodeAddress sdk admin, encodeAddress sdk resolver, .ok eventID.scVal,
        .ok (encodeI128 amount)]

/-- The payout lists have a line, and no more lines than one call may carry. -/
def Fits : Invocation → Prop
  | releaseReward _ _ winners | resolveDispute _ _ winners =>
      winners ≠ [] ∧ winners.length ≤ maxWinners
  | releaseCompensation _ _ participants => participants ≠ []
  | _ => True

section Arguments

variable {x : Except Message ScVal} {xs : List (Except Message ScVal)} {p : List ScVal → Prop}

theorem exists_args_nil :
    (∃ args, List.Forall₂ (fun (x : Except Message ScVal) v => x = .ok v) [] args ∧ p args) ↔
      p [] := by
  simp only [List.forall₂_nil_left_iff, exists_eq_left]

theorem exists_args_cons :
    (∃ args, List.Forall₂ (fun x v => x = .ok v) (x :: xs) args ∧ p args) ↔
      ∃ v, x = .ok v ∧ ∃ args, List.Forall₂ (fun x v => x = .ok v) xs args ∧ p (v :: args) := by
  constructor
  · rintro ⟨_, hall, hp⟩
    obtain ⟨v, args, hv, hargs, rfl⟩ := List.forall₂_cons_left_iff.mp hall
    exact ⟨v, hv, args, hargs, hp⟩
  · rintro ⟨v, hv, args, hargs, hp⟩
    exact ⟨v :: args, .cons hv hargs, hp⟩

end Arguments

/-- A builder succeeds when the lists fit and every argument is encoded, and it then passes the
arguments in the order of the call. -/
theorem hostFunction_eq_ok {contract : ScAddress} {inv : Invocation} {hf : HostFunction} :
    inv.hostFunction sdk contract = .ok hf ↔ inv.Fits ∧ ∃ args : List ScVal,
      List.Forall₂ (fun x v => x = .ok v) (inv.arguments sdk) args ∧
        invokeContractHF contract inv.functionName args = hf := by
  cases inv with
  | releaseReward judge eventID winners =>
      simp only [hostFunction, releaseRewardHostFunction, payWinnersHostFunction_eq_ok, Fits,
        arguments, functionName, exists_args_cons, exists_args_nil, Except.ok.injEq,
        exists_eq_left', and_assoc]
  | resolveDispute resolver eventID winners =>
      simp only [hostFunction, resolveDisputeHostFunction, payWinnersHostFunction_eq_ok, Fits,
        arguments, functionName, exists_args_cons, exists_args_nil, Except.ok.injEq,
        exists_eq_left', and_assoc]
  | releaseCompensation admin eventID participants =>
      simp only [hostFunction, releaseCompensationHostFunction_eq_ok, Fits, arguments,
        functionName, exists_args_cons, exists_args_nil, Except.ok.injEq, exists_eq_left']
  | createEvent admin judge resolver token reward eventID =>
      simp only [hostFunction, createEventHostFunction, bind_eq_ok, wrapErr_eq_ok, pure_eq_ok, Fits,
        true_and, arguments, functionName, exists_args_cons, exists_args_nil, Except.ok.injEq,
        exists_eq_left']
  | _ =>
      simp only [hostFunction, depositFundsHostFunction, withdrawFundsHostFunction,
        getBalanceHostFunction, setEventCancelledHostFunction, setEventWaitingForStartHostFunction,
        setEventInProgressHostFunction, adminEventHostFunction, expireEventHostFunction,
        quoteGoLiveFeeHostFunction, getDefaultResolverHostFunction, emergencyWithdrawHostFunction,
        bind_eq_ok, wrapErr_eq_ok, pure_eq_ok, Fits, true_and, arguments, functionName,
        exists_args_cons, exists_args_nil, Except.ok.injEq, exists_eq_left']

end Invocation

end Soroban
