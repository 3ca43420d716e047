/-
# The go-live handlers

The fee quote, and the build and submit of `set_event_in_progress`.  A submit looks at the
op log row before the event's status, so that a second submit of a confirmed build hears
that the event has gone live.
-/
import Astrea.HandlersOrganizer

open Interleave Interleave.Guarded

namespace Service

def checkStartPreconditions (wallet : Address) (eventID : PathID) : Handler EventForStart := do
  let event ← orStop (← call (.loadEventForStart eventID)) loadEventFailed
  ensure (wallet = event.organizerWalletAddress)
    (writeError 403 "not_organizer" ⟨"caller is not this event's organizer", []⟩)
  ensure (event.status = .created)
    (writeError 409 "event_not_created" ⟨"event is not in the CREATED state", []⟩)
  ensure (event.escrowEventID ≠ none)
    (writeError 409 "event_not_on_chain" ⟨"event has no on-chain escrow event id", []⟩)
  return event

/-- The judging deadline must be set and lie in the future. -/
def checkStartDeadline (event : EventForStart) : Handler Time := do
  let deadline ← expect event.judgingDeadlineAt
    (writeError 409 "deadline_missing" ⟨"event has no judging deadline set", []⟩)
  let now ← call .now
  ensure (now < deadline)
    (writeError 409 "deadline_past" ⟨"judging deadline is in the past", []⟩)
  return deadline

/-- The fee and the organizer's balance, quoted for an event. -/
def quoteAndBalance (deps : Deps) (event : EventForStart) : Handler (EventID × Int64 × Int64) := do
  let eid ← expect event.escrowEventID internalError
  let fee ← quoteGoLiveFee eid event.organizerWalletAddress deps.escrowCfg
  let balance ← getBalance event.organizerWalletAddress deps.escrowCfg
  return (eid, fee, balance)

/-- How much more the balance needs to cover the fee. -/
def shortfall (fee balance : Int64) : Int64 := if fee ≤ balance then 0 else fee - balance

def handleStartQuote (deps : Deps) (wallet : Address) (id : String) : Handler Response := do
  let eventID ← pathID id
  let event ← checkStartPreconditions wallet eventID
  let (_, fee, balance) ← quoteAndBalance deps event
  return .reply 200 (.startQuote (formatPadded 0 fee.toInt) (formatPadded 0 balance.toInt)
    (formatPadded 0 (shortfall fee balance).toInt))

def setEventInProgressHostFunction (admin : Address) (eventID : EventID)
    (judgingDeadline : UInt64) : HostFunction :=
  .invokeEscrow (.setEventInProgress admin eventID judgingDeadline)

def startAlreadySucceeded : Response :=
  writeError 409 "start_already_succeeded" ⟨"this event has already gone live", []⟩

/-- `Time.Unix()`. -/
def unixSeconds (t : Time) : Int64 := Int64.ofInt (t / second)

def handleStartBuild (deps : Deps) (wallet : Address) (id : String) : Handler Response := do
  let eventID ← pathID id
  let event ← checkStartPreconditions wallet eventID
  let deadline ← checkStartDeadline event
  let (eid, fee, balance) ← quoteAndBalance deps event
  ensure (fee ≤ balance) (writeError 409 "insufficient_balance"
    ⟨"balance %d is short of the quoted fee %d by %d",
      [.int balance.toInt, .int fee.toInt, .int (shortfall fee balance).toInt]⟩)
  let judgingDeadline := unixSeconds deadline
  let hf := setEventInProgressHostFunction event.organizerWalletAddress eid
    judgingDeadline.toUInt64
  let unsigned ← buildUnsigned event.organizerWalletAddress hf deps.escrowCfg
  let hostFunctionXDR ← hostFunctionXDRFrom unsigned
  orStop (← call (.write (.saveStartBuild eventID {
    hostFunctionXDR := hostFunctionXDR
    sourceAccount := event.organizerWalletAddress
    judgingDeadline := judgingDeadline
    fee := fee }))) (saveFailed startAlreadySucceeded)
  return .reply 200 (.startBuild unsigned judgingDeadline fee)

/-- The row of a go-live, `none` when there is none yet. -/
def loadStartRow (eventID : PathID) : Handler (Option (StoredOp (.start eventID))) := do
  let answer : Except StoreError (StoredOp (.start eventID)) ← call (.loadOp (.start eventID))
  match answer with
  | .ok op => return some op
  | .error .notFound => return none
  | .error _ => throw internalError

def checkStartSubmitPreconditions (wallet : Address) (eventID : PathID) :
    Handler (StoredOp (.start eventID)) := do
  let event ← orStop (← call (.loadEventForStart eventID)) loadEventFailed
  ensure (wallet = event.organizerWalletAddress)
    (writeError 403 "not_organizer" ⟨"caller is not this event's organizer", []⟩)
  let row ← loadStartRow eventID
  -- before the status, which a confirmed go-live has left
  ensure (row.map (·.status) ≠ some .succeeded) startAlreadySucceeded
  ensure (event.status = .created)
    (writeError 409 "event_not_created" ⟨"event is not in the CREATED state", []⟩)
  ensure (event.escrowEventID ≠ none)
    (writeError 409 "event_not_on_chain" ⟨"event has no on-chain escrow event id", []⟩)
  let op ← expect row
    (writeError 409 "no_pending_start" ⟨"no go-live build exists for this event yet", []⟩)
  checkPending op.status startAlreadySucceeded (writeError 409 "no_pending_start"
    ⟨"the last go-live attempt failed -- build again before submitting", []⟩)
  return op

/-- What a confirmation that comes too late for its build stops with. -/
def markStartFailedWith : StoreError → Response
  | .startBuildReplaced => writeError 409 "start_build_replaced"
      ⟨"the go-live build changed while this submission was in flight", []⟩
  | _ => internalError

def handleStartSubmit (deps : Deps) (wallet : Address) (id : String) (body : Option SignedXDR) :
    Handler Response := do
  let eventID ← pathID id
  let op ← checkStartSubmitPreconditions wallet eventID
  let signedXDR ← signedBody body
  let _ ← checkEnvelope signedXDR (.start eventID) op.build
  match ← submitAndClassify signedXDR deps.escrowCfg (.start eventID) with
  | .pendingHash hash => return .reply 202 (.submit hash "pending")
  | .result hash =>
      let now ← call .now
      orStop (← call (.write (.markStartSucceeded eventID
        (StartBuild.hostFunctionXDR op.build) now))) markStartFailedWith
      return .reply 200 (.submit hash "succeeded")

end Service
