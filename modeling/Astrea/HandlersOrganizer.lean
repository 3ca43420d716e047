/-
# The organizer's handlers

The create, deposit and balance endpoints, and the pieces every pair of build and submit
handlers shares.  The checks stand in the order in which the handlers make them, each with
the response it stops with.
-/
import Astrea.Pipeline

open Interleave Interleave.Guarded

namespace Service

/-! ## What every handler shares -/

def eventNotFound : Response :=
  writeError 404 "event_not_found" ⟨"no event with that id", []⟩

/-- The id of a path, or 404 when it is not a UUID. -/
def pathID (id : String) : Handler PathID :=
  if h : uuidPattern id = true then pure ⟨id, h⟩ else throw eventNotFound

/-- What the read of an event stops with. -/
def loadEventFailed : StoreError → Response
  | .notFound => eventNotFound
  | _ => internalError

/-- Read an op log row; `missing` answers that there is none. -/
def loadOpOr (k : OpKey) (missing : Response) : Handler (StoredOp k) := do
  orStop (← call (.loadOp k)) fun
    | .notFound => missing
    | _ => internalError

/-- Go on only with a pending row. -/
def checkPending (status : OpStatus) (succeeded failed : Response) : Handler Unit :=
  match status with
  | .succeeded => throw succeeded
  | .failed => throw failed
  | .pending => pure ()

/-- A body must be JSON with a non-empty signed transaction. -/
def signedBody (body : Option SignedXDR) : Handler SignedXDR :=
  match body with
  | none | some .empty => throw (writeError 400 "invalid_request"
      ⟨"body must be JSON with a non-empty signedTransactionXdr", []⟩)
  | some signedXDR => pure signedXDR

/-- Compare the envelope with the build of the row. -/
def checkEnvelope (signedXDR : SignedXDR) (k : OpKey) (build : k.Build) : Handler Transaction :=
  orStop (verifySignedEnvelope signedXDR (k.sourceAccount build) (k.hostFunction build))
    (writeError 409 "envelope_mismatch")

/-- What the save of a build stops with. -/
def saveFailed (alreadySucceeded : Response) : StoreError → Response
  | .alreadySucceeded => alreadySucceeded
  | .notFound => eventNotFound
  | _ => internalError

/-- `EncodeI128`. -/
def encodeI128 (v : Int64) : Escrow.I128 :=
  ⟨v.toInt, by have := v.le_toInt; omega, by have := v.toInt_lt; omega⟩

/-! ## create_event -/

def checkCreatePreconditions (wallet : Address) (eventID : PathID) : Handler EventForCreate := do
  let event ← orStop (← call (.loadEventForCreate eventID)) loadEventFailed
  ensure (wallet = event.organizerWalletAddress)
    (writeError 403 "not_organizer" ⟨"caller is not this event's organizer", []⟩)
  ensure (event.status = .draft)
    (writeError 409 "event_not_draft" ⟨"event is not in the DRAFT state", []⟩)
  ensure (event.escrowEventID = none)
    (writeError 409 "event_already_on_chain" ⟨"event already has an on-chain escrow event id", []⟩)
  ensure (event.prizes ≠ []) (writeError 409 "no_prizes" ⟨"event has no prizes", []⟩)
  ensure (event.judges.length = 1)
    (writeError 409 "judge_ambiguous" ⟨"event does not have exactly one ACTIVE judge", []⟩)
  return event

/-- The reward of an event: its prizes added up in `int64`. -/
def sumPrizes (reward : Int64) : List Prize → Except Message Int64
  | [] => .ok reward
  | p :: ps => do
      let stroops ← amountToStroops p.amount
      sumPrizes (reward + stroops) ps

def createEventHostFunction (admin judge resolver token : Address) (reward : Int64)
    (eventID : EventID) : HostFunction :=
  .invokeEscrow (.createEvent admin judge (some resolver) token (encodeI128 reward) eventID)

def createAlreadySucceeded : Response :=
  writeError 409 "create_already_succeeded" ⟨"this event's create_event already succeeded", []⟩

def handleCreateBuild (deps : Deps) (wallet : Address) (id : String) : Handler Response := do
  let eventID ← pathID id
  let event ← checkCreatePreconditions wallet eventID
  let reward ← orInternal (sumPrizes 0 event.prizes)
  -- drawn before the call is built: the id is part of what gets signed
  let eid ← orInternal (← call .newEventID)
  let resolver ← getDefaultResolver event.organizerWalletAddress deps.escrowCfg
  let judge ← expect event.judges.head? internalError
  let hf := createEventHostFunction event.organizerWalletAddress judge resolver
    deps.usdcContractID reward eid
  let unsigned ← buildUnsigned event.organizerWalletAddress hf deps.escrowCfg
  let hostFunctionXDR ← hostFunctionXDRFrom unsigned
  orStop (← call (.write (.saveCreateBuild eventID {
    hostFunctionXDR := hostFunctionXDR
    sourceAccount := event.organizerWalletAddress
    escrowEventID := eid
    reward := reward }))) (saveFailed createAlreadySucceeded)
  return .reply 200 (.createBuild unsigned reward eid)

/-- What a confirmation that comes too late for its build stops with. -/
def markCreateFailedWith : StoreError → Response
  | .createBuildReplaced => writeError 409 "create_build_replaced"
      ⟨"create build was replaced while the submit was in flight", []⟩
  | _ => internalError

def handleCreateSubmit (deps : Deps) (wallet : Address) (id : String)
    (body : Option SignedXDR) : Handler Response := do
  let eventID ← pathID id
  -- an event that a confirmed create has moved on is refused here
  let _ ← checkCreatePreconditions wallet eventID
  let signedXDR ← signedBody body
  let op ← loadOpOr (.create eventID) (writeError 409 "no_pending_create"
    ⟨"no create_event has been built for this event yet", []⟩)
  checkPending op.status createAlreadySucceeded (writeError 409 "no_pending_create"
    ⟨"the last create_event attempt failed -- build again before submitting", []⟩)
  let _ ← checkEnvelope signedXDR (.create eventID) op.build
  let escrowEventID := CreateBuild.escrowEventID op.build
  match ← submitAndClassify signedXDR deps.escrowCfg (.create eventID) with
  | .pendingHash hash => return .reply 202 (.createSubmit hash "pending" escrowEventID)
  | .result hash =>
      let now ← call .now
      orStop (← call (.write (.markCreateSucceeded eventID escrowEventID now)))
        markCreateFailedWith
      return .reply 200 (.createSubmit hash "succeeded" escrowEventID)

/-! ## The wallet -/

/-- The largest deposit, 1,000,000 USDC. -/
def maxDepositStroops : Int64 := 10000000000000

/-- The account a path names, which must be the caller's; `none` is a text that is no account
address. -/
def checkWalletOwnership (wallet : Address) (address : Option (BitVec 256)) :
    Handler Address := do
  let key ← expect address
    (writeError 400 "invalid_wallet" ⟨"address must be a valid Stellar account address", []⟩)
  ensure (wallet = .account key) (writeError 403 "not_wallet_owner"
    ⟨"caller does not match the requested wallet address", []⟩)
  return .account key

def handleWalletBalance (deps : Deps) (wallet : Address) (address : Option (BitVec 256)) :
    Handler Response := do
  let address ← checkWalletOwnership wallet address
  let balance ← getBalance address deps.escrowCfg
  return .reply 200 (.walletBalance address (formatPadded 0 balance.toInt))

def depositFundsHostFunction (admin token : Address) (amount : Int64) : HostFunction :=
  .invokeEscrow (.depositFunds admin token (encodeI128 amount))

def handleDepositBuild (deps : Deps) (wallet : Address) (address : Option (BitVec 256))
    (body : Option GoString) : Handler Response := do
  let address ← checkWalletOwnership wallet address
  let amountText ← expect body
    (writeError 400 "invalid_request" ⟨"body is not valid JSON", []⟩)
  let amount ← orStop (amountToStroops amountText) (writeError 400 "invalid_amount")
  ensure (amount ≤ maxDepositStroops)
    (writeError 400 "invalid_amount" ⟨"amount exceeds the maximum allowed deposit", []⟩)
  let hf := depositFundsHostFunction address deps.usdcContractID amount
  let unsigned ← buildUnsigned address hf deps.escrowCfg
  let hostFunctionXDR ← hostFunctionXDRFrom unsigned
  let opID ← orInternal (← call .newOpID)
  orInternal (← call (.write (.saveDepositBuild opID {
    hostFunctionXDR := hostFunctionXDR
    sourceAccount := address
    amount := amount })))
  return .reply 200 (.depositBuild opID unsigned)

/-- The `opId` of a body, when this service can have issued it. -/
def issuedOpID (opID : String) : Handler OpID :=
  if h : opIDPattern opID = true then pure ⟨opID, h⟩
  else throw (writeError 400 "invalid_request" ⟨"opId is not a value this service issued", []⟩)

/-- A deposit's body must be JSON with a non-empty signed transaction. -/
def depositBody (body : Option (String × SignedXDR)) : Handler (String × SignedXDR) :=
  match body with
  | none | some (_, .empty) => throw (writeError 400 "invalid_request"
      ⟨"body must be JSON with a non-empty opId and signedTransactionXdr", []⟩)
  | some body => pure body

def handleDepositSubmit (deps : Deps) (wallet : Address) (address : Option (BitVec 256))
    (body : Option (String × SignedXDR)) : Handler Response := do
  let address ← checkWalletOwnership wallet address
  let (opIDText, signedXDR) ← depositBody body
  let opID ← issuedOpID opIDText
  let op ← loadOpOr (.deposit opID)
    (writeError 404 "deposit_not_found" ⟨"no deposit build with that opId", []⟩)
  checkPending op.status
    (writeError 409 "deposit_already_succeeded" ⟨"this deposit already succeeded", []⟩)
    (writeError 409 "no_pending_deposit"
      ⟨"the last deposit attempt failed -- build again before submitting", []⟩)
  ensure (DepositBuild.sourceAccount op.build = address) (writeError 403 "not_wallet_owner"
    ⟨"this deposit was not built for the caller's wallet", []⟩)
  let _ ← checkEnvelope signedXDR (.deposit opID) op.build
  match ← submitAndClassify signedXDR deps.escrowCfg (.deposit opID) with
  | .pendingHash hash => return .reply 202 (.submit hash "pending")
  | .result hash =>
      -- not named by its build: nothing else is ever saved under the `opId`
      orInternal (← call (.write (.markDepositSucceeded opID)))
      return .reply 200 (.submit hash "succeeded")

end Service
