/-
# The transaction pipeline

How a request builds an unsigned transaction by simulation, and how it submits a signed
one: send it, then poll until the ledger reports an outcome or the time is up, and classify
what happened.  Everything is a program that calls the world and may stop early with a
response.
-/
import Astrea.Allocate
import Astrea.Envelope
import Astrea.Network

open Interleave Interleave.Guarded

namespace Service

/-! ## Responses -/

/-- The body of a response. -/
inductive Body where
  | error (code : String) (message : Message)
  | healthz
  | walletBalance (address : Address) (balance : GoString)
  | depositBuild (opID : OpID) (unsigned : SignedXDR)
  | createBuild (unsigned : SignedXDR) (reward : Int64) (escrowEventID : EventID)
  | createSubmit (txHash : TxHash) (status : String) (escrowEventID : EventID)
  | startQuote (fee balance shortfall : GoString)
  | startBuild (unsigned : SignedXDR) (judgingDeadline fee : Int64)
  | releaseBuild (eventID : PathID) (unsigned : SignedXDR)
      (winners : List (Int64 × RowId × RowId × Address))
  | submit (txHash : TxHash) (status : String)
  deriving DecidableEq

/-- What a request ends with: a response, or nothing when the handler panicked. -/
inductive Response where
  | reply (status : ℕ) (body : Body)
  | aborted
  deriving DecidableEq

/-- `writeError`. -/
def writeError (status : ℕ) (code : String) (message : Message) : Response :=
  .reply status (.error code message)

/-- The answer to every failure that is logged and not explained. -/
def internalError : Response := writeError 500 "internal" ⟨"internal error", []⟩

/-- The program of a request, or of a part of one. -/
abbrev Handler (α : Type) : Type := Guarded Op Op.Res Response α

/-- Make a call. -/
def call (op : Op) : Handler op.Res := perform op

/-- Go on with a result, or stop with an internal error. -/
def orInternal {ε α : Type} (r : Except ε α) : Handler α := orStop r fun _ => internalError

/-! ## Configuration -/

/-- The pipeline's durations, in nanoseconds. -/
structure Config where
  txTimeout : Time
  pollTimeout : Time
  pollInterval : Time
  maxPollInterval : Time

/-- One second, in nanoseconds. -/
def second : Time := 1000000000

/-- A duration that was set, or the default. -/
def orDefault (d default : Time) : Time := if d ≤ 0 then default else d

def Config.withDefaults (c : Config) : Config :=
  let pollInterval := orDefault c.pollInterval second
  { txTimeout := orDefault c.txTimeout (60 * second)
    pollTimeout := orDefault c.pollTimeout (30 * second)
    pollInterval := pollInterval
    maxPollInterval :=
      if c.maxPollInterval ≤ 0 ∨ c.maxPollInterval < pollInterval then 5 * second
      else c.maxPollInterval }

/-- What the handlers are configured with. -/
structure Deps where
  serviceToken : String
  usdcContractID : Address
  escrowCfg : Config
  trustlines : Bool

/-! ## Building -/

/-- `txnbuild.MinBaseFee`. -/
def minBaseFee : ℕ := 100

/-- A transaction of one operation that invokes `hf`, from an account with the given
sequence number, valid until `timeout` from `now`. -/
def buildTx (sequence : Int64) (sourceAddress : Address) (hf : HostFunction) (auth : List ℕ)
    (resources resourceFee : ℕ) (now timeout : Time) : Option Transaction :=
  match sourceAddress with
  | .contract _ => none
  | .account key => some {
      sourceAccount := .ed25519 key
      seqNum := sequence + 1
      fee := minBaseFee + resourceFee
      timeBounds := some (0, now / second + timeout / second)
      operations := [⟨some (.ed25519 key), .invokeHostFunction hf auth⟩]
      ext := resources }

/-- Load the source account and build a transaction from it. -/
def loadAndBuild (sourceAddress : Address) (hf : HostFunction) (auth : List ℕ)
    (resources resourceFee : ℕ) (cfg : Config) : Handler Transaction := do
  let sequence ← orInternal (← call (.loadAccount sourceAddress))
  let now ← call .now
  expect (buildTx sequence sourceAddress hf auth resources resourceFee now cfg.txTimeout)
    internalError

/-- Simulate a transaction; the simulation's own error is the caller's to see. -/
def simulate (tx : Transaction) : Handler Simulation := do
  let simulation ← orInternal (← call (.simulateTransaction tx))
  ensure (simulation.error = "") (writeError 502 "simulation_failed"
    ⟨"escrow: simulation failed: %s", [.text simulation.error]⟩)
  return simulation

/-- `BuildUnsigned`: simulate the call, then build the transaction the wallet will sign. -/
def buildUnsigned (sourceAddress : Address) (hf : HostFunction) (cfg : Config) :
    Handler SignedXDR := do
  let cfg := cfg.withDefaults
  let simTx ← loadAndBuild sourceAddress hf [] 0 0 cfg
  let simulation ← simulate simTx
  let sorobanData ← expect simulation.transactionData internalError
  let auth ← expect simulation.auth internalError
  -- the sequence number is read again, for the transaction that gets signed
  let finalTx ← loadAndBuild sourceAddress hf auth sorobanData simulation.minResourceFee cfg
  return .envelope (.v1 finalTx [])

/-- The host function a `/build` persists, decoded back from the transaction it built. -/
def hostFunctionXDRFrom (unsigned : SignedXDR) : Handler HostFunction := do
  let (_, _, hf) ← orInternal (decodeSingleOpInvokeHostFunction unsigned)
  return hf

/-- Simulate a read-only call of the contract. -/
def simulateRead (source : Address) (hf : HostFunction) (cfg : Config) : Handler ScVal := do
  let tx ← loadAndBuild source hf [] 0 0 cfg.withDefaults
  let simulation ← simulate tx
  expect simulation.returnValue internalError

/-- `DecodeI128ToInt64`: only values that fit. -/
def decodeI128ToInt64 : ScVal → Option Int64
  | .i128 v =>
      if 0 ≤ v.val ∧ v.val < 9223372036854775808 then some (Int64.ofInt v.val) else none
  | _ => none

def quoteGoLiveFee (eventID : EventID) (source : Address) (cfg : Config) : Handler Int64 := do
  let v ← simulateRead source (.invokeEscrow (.quoteGoLiveFee eventID)) cfg
  expect (decodeI128ToInt64 v) internalError

def getBalance (admin : Address) (cfg : Config) : Handler Int64 := do
  let v ← simulateRead admin (.invokeEscrow (.getBalance admin)) cfg
  expect (decodeI128ToInt64 v) internalError

def getDefaultResolver (source : Address) (cfg : Config) : Handler Address := do
  let v ← simulateRead source (.invokeEscrow .getDefaultResolver) cfg
  match v with
  | .address a => return a
  | _ => throw internalError

/-! ## Submitting -/

/-- How a submission fails: refused by the network, failed on the ledger, still unknown when
the time was up, or an RPC error. -/
inductive SubmitError where
  | submission (errorResultXDR : String)
  | onChain (hash : TxHash) (resultXDR : String)
  | timeout (hash : TxHash)
  | other
  deriving DecidableEq

def SubmitError.error : SubmitError → Message
  | .submission errorResultXDR =>
      ⟨"escrow: submission rejected (status %s): %s", [.text "ERROR", .text errorResultXDR]⟩
  | .onChain hash resultXDR =>
      ⟨"escrow: transaction %s failed on-chain: %s", [.hash hash, .text resultXDR]⟩
  | .timeout hash =>
      ⟨"escrow: timed out waiting for transaction %s to confirm", [.hash hash]⟩
  | .other => ⟨"escrow: calling the RPC", []⟩

/-- `interval *= 2`, which wraps, and the clamp behind it. -/
def nextInterval (interval maxPollInterval : Time) : Time :=
  let doubled := (2 * interval).bmod (2 ^ 64)
  if maxPollInterval < doubled then maxPollInterval else doubled

/-- Poll for an outcome, waiting `interval` between two polls and doubling it up to the cap.
`polls` bounds the number of polls.  A wait takes at least the smaller of the first interval and
the cap, as long as no doubling wraps, so the deadline comes first. -/
def pollFrom (hash : TxHash) (deadline maxPollInterval : Time) :
    ℕ → Time → Handler (Except SubmitError Unit)
  | 0, _ => return .error (.timeout hash)
  | polls + 1, interval => do
      let answer : Except String GetResponse ← call (.getTransaction hash)
      match answer with
      | .error _ => return .error .other
      | .ok .success => return .ok ()
      | .ok (.failed resultXDR) => return .error (.onChain hash resultXDR)
      | .ok .notFound =>
          let now ← call .now
          -- a poll that would come after the deadline is not made
          if deadline < now + interval then return .error (.timeout hash)
          else
            call (.sleep interval)
            pollFrom hash deadline maxPollInterval polls (nextInterval interval maxPollInterval)

def pollForConfirmation (hash : TxHash) (cfg : Config) : Handler (Except SubmitError Unit) := do
  let now ← call .now
  pollFrom hash (now + cfg.pollTimeout) cfg.maxPollInterval
    ((cfg.pollTimeout / min cfg.pollInterval cfg.maxPollInterval).toNat + 2) cfg.pollInterval

/-- Send a signed transaction and poll until the ledger reports success or failure. -/
def submitSigned (signedXDR : SignedXDR) (cfg : Config) : Handler (Except SubmitError TxHash) := do
  let cfg := cfg.withDefaults
  let answer : Except String SendResponse ← call (.sendTransaction signedXDR)
  match answer with
  | .error _ => return .error .other
  | .ok response =>
      -- every other status is polled for, `DUPLICATE` and `TRY_AGAIN_LATER` too
      if response.status = .error then return .error (.submission response.errorResultXDR)
      else
        match ← pollForConfirmation response.hash cfg with
        | .error e => return .error e
        | .ok () => return .ok response.hash

/-- What a submit handler is left to do: persist the success, or answer that the outcome is
unknown. -/
inductive SubmitOutcome where
  | result (hash : TxHash)
  | pendingHash (hash : TxHash)
  deriving DecidableEq

/-- `Mark*Failed`, whose own failure is logged and not surfaced. -/
def markFailedBestEffort (k : OpKey) (reason : Message) : Handler Unit := do
  let _ ← call (.write (.markFailed k reason))

/-- Submit and classify: a refused or failed transaction is recorded on the row and answered
here. -/
def submitAndClassify (signedXDR : SignedXDR) (cfg : Config) (k : OpKey) :
    Handler SubmitOutcome := do
  match ← submitSigned signedXDR cfg with
  | .ok hash => return .result hash
  -- the outcome is unknown: the row stays pending
  | .error (.timeout hash) => return .pendingHash hash
  | .error (.submission errorResultXDR) =>
      let e := SubmitError.submission errorResultXDR
      markFailedBestEffort k e.error
      throw (writeError 502 "submission_failed" e.error)
  | .error (.onChain hash resultXDR) =>
      let e := SubmitError.onChain hash resultXDR
      markFailedBestEffort k e.error
      throw (writeError 502 "on_chain_failed" e.error)
  | .error .other => throw internalError

end Service
