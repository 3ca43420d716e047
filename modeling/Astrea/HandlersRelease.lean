/-
# The release handlers

The judge's assignments become an allocation, the allocation a winners list with the row
ids the store needs, and the list a `release_reward` to sign; a submit compares the signed
envelope with the last build and records the outcome.
-/
import Astrea.HandlersStart

open Guard (bind_eq_ok ensure_eq_ok expect_eq_ok pure_eq_ok)
open Interleave Interleave.Guarded

namespace Service

/-- A prize rank and the team it is assigned to, as the client sends them. -/
structure Assignment where
  rank : Int64
  teamID : RowId
  deriving DecidableEq

/-! ## Preconditions -/

def checkReleasePreconditions (wallet : Address) (eventID : PathID) :
    Handler (EventForRelease × Address) := do
  let event ← orStop (← call (.loadEventForRelease eventID)) loadEventFailed
  ensure (event.status = .judging)
    (writeError 409 "event_not_judging" ⟨"event is not in the JUDGING state", []⟩)
  ensure (event.escrowEventID ≠ none)
    (writeError 409 "event_not_on_chain" ⟨"event has no on-chain escrow event id", []⟩)
  ensure (event.judges.length = 1)
    (writeError 409 "judge_ambiguous" ⟨"event does not have exactly one ACTIVE judge", []⟩)
  let judge ← expect event.judges.head? internalError
  ensure (wallet = judge) (writeError 403 "not_judge" ⟨"caller is not this event's judge", []⟩)
  return (event, judge)

/-- Go through the assignments in order; the ranks seen, newest first. -/
def checkAssignments (event : EventForRelease) (rankSeen : List Int64) (teamSeen : List RowId) :
    List Assignment → Except Message (List Int64)
  | [] => .ok rankSeen
  | a :: rest => do
      Guard.ensure (∃ p ∈ event.prizes, p.rank = a.rank)
        ⟨"rank %d does not match any prize on this event", [.int a.rank.toInt]⟩
      Guard.ensure (a.rank ∉ rankSeen)
        ⟨"rank %d is assigned more than once", [.int a.rank.toInt]⟩
      Guard.ensure (∃ t ∈ event.teams, t.id = a.teamID)
        ⟨"team %s does not belong to this event", [.text a.teamID]⟩
      Guard.ensure (a.teamID ∉ teamSeen)
        ⟨"team %s is assigned to more than one prize", [.text a.teamID]⟩
      checkAssignments event (a.rank :: rankSeen) (a.teamID :: teamSeen) rest

/-- Every prize rank is assigned exactly once, to a team of this event, and no team twice. -/
def validateAssignments (assignments : List Assignment) (event : EventForRelease) :
    Except Message Unit := do
  let rankSeen ← checkAssignments event [] [] assignments
  Guard.ensure (rankSeen.length = event.prizes.length)
    ⟨"every prize rank must be assigned exactly once (%d assigned, %d prizes)",
      [.int rankSeen.length, .int event.prizes.length]⟩

/-! ## From assignments to winners -/

/-- The last entry a Go map keeps among those written under one key. -/
def lastWhere {α : Type} (l : List α) (p : α → Bool) : Option α := l.reverse.find? p

/-- The members of the team a rank is assigned to, none when there is no such team. -/
def assignedMembers (event : EventForRelease) (assignments : List Assignment) (rank : Int64) :
    List Member :=
  match lastWhere assignments (·.rank = rank) with
  | none => []
  | some a =>
      match lastWhere event.teams (·.id = a.teamID) with
      | none => []
      | some team => team.members.map fun m => ⟨m.walletAddress, m.ordinal, m.shareBasisPoints⟩

/-- `uint32(rank)`. -/
def placeOf (rank : Int64) : UInt32 := rank.toUInt64.toUInt32

/-- The positions and winning teams of the prizes, and their sum in `int64`. -/
def allocationOf (event : EventForRelease) (assignments : List Assignment) (reward : Int64) :
    List Prize → Except Message (List Position × List WinningTeam × Int64)
  | [] => .ok ([], [], reward)
  | p :: ps => do
      let stroops ← amountToStroops p.amount
      let (positions, teams, reward) ← allocationOf event assignments (reward + stroops) ps
      return (⟨placeOf p.rank, stroops⟩ :: positions,
        ⟨placeOf p.rank, assignedMembers event assignments p.rank⟩ :: teams, reward)

def buildAllocationInput (event : EventForRelease) (assignments : List Assignment) :
    Except Message (List Position × List WinningTeam × Int64) :=
  allocationOf event assignments 0 event.prizes

/-- Every member of every team, with its address, its team and its row. -/
def memberInfos (event : EventForRelease) : List (Address × RowId × RowId) :=
  event.teams.flatMap fun t => t.members.map fun m => (m.walletAddress, t.id, m.id)

/-- `int(place)`. -/
def rankOf (place : UInt32) : Int64 := place.toUInt64.toInt64

/-- The row ids of one payout line. -/
def mapWinner (event : EventForRelease) (w : Winner) : Except Message ReleaseWinner := do
  let info ← Guard.expect (lastWhere (memberInfos event) (·.1 = w.address))
    ⟨"winner address %s does not match any team member on this event", [.address w.address]⟩
  let prize ← Guard.expect (lastWhere event.prizes (·.rank = rankOf w.place))
    ⟨"winner place %d does not match any prize on this event", [.int w.place.toNat]⟩
  return {
    prizeID := prize.id
    teamID := info.2.1
    teamMemberID := info.2.2
    address := w.address
    stroops := w.amount
    rank := rankOf w.place }

def mapWinners (event : EventForRelease) : List Winner → Except Message (List ReleaseWinner)
  | [] => .ok []
  | w :: ws => do
      let winner ← mapWinner event w
      let winners ← mapWinners event ws
      return winner :: winners

/-- The contract's form of a payout line. -/
def winnerScVal (w : Winner) : Escrow.Winner := ⟨w.place, encodeI128 w.amount, w.address⟩

def releaseRewardHostFunction (judge : Address) (eventID : EventID) (winners : List Winner) :
    Except Message HostFunction := do
  Guard.ensure (winners ≠ []) ⟨"escrow: release_reward requires at least one winner", []⟩
  Guard.ensure (winners.length ≤ maxWinners)
    ⟨"escrow: %d winners exceeds the contract's MAX_WINNERS (%d)",
      [.int winners.length, .int maxWinners]⟩
  return .invokeEscrow (.releaseReward judge eventID (winners.map winnerScVal))

/-! ## The handlers -/

def releaseAlreadySucceeded : Response :=
  writeError 409 "release_already_succeeded" ⟨"this event's release already succeeded", []⟩

/-- What a failed allocation is answered with. -/
def allocationFailed : AllocateFailure → Response
  | .allocation e => writeError 409 "allocation_failed" e.error
  | .error _ => internalError
  | .panicked _ => .aborted

def writeTrustlineError : TrustlineError → Response
  | .missing asset wallets => writeError 409 "trustline_missing"
      ⟨"these winner wallets cannot receive %s: %s",
        .text asset :: wallets.flatMap fun w => [.address w.1, .text w.2]⟩
  | .invalidAddress => internalError
  | .other => writeError 502 "trustline_check_failed"
      ⟨"could not verify wallet trustlines, try again", []⟩

def handleReleaseBuild (deps : Deps) (wallet : Address) (id : String)
    (body : Option (List Assignment)) : Handler Response := do
  let eventID ← pathID id
  let (event, judge) ← checkReleasePreconditions wallet eventID
  let assignments ← expect body
    (writeError 400 "invalid_request" ⟨"body is not valid JSON", []⟩)
  ensure (assignments ≠ [])
    (writeError 400 "invalid_request" ⟨"assignments must not be empty", []⟩)
  orStop (validateAssignments assignments event) (writeError 409 "assignments_invalid")
  let (positions, teams, reward) ← orInternal (buildAllocationInput event assignments)
  let winners ← orStop (allocateWinners reward positions teams) allocationFailed
  let releaseWinners ← orInternal (mapWinners event winners)
  -- without a verifier no release is built
  ensure (deps.trustlines = true) internalError
  orStop (← call (.requireTrustlines (releaseWinners.map fun w => ⟨w.address, w.stroops⟩)))
    writeTrustlineError
  let eid ← expect event.escrowEventID internalError
  let hf ← orInternal (releaseRewardHostFunction judge eid winners)
  let unsigned ← buildUnsigned judge hf deps.escrowCfg
  let hostFunctionXDR ← hostFunctionXDRFrom unsigned
  orStop (← call (.write (.saveReleaseBuild eventID {
    hostFunctionXDR := hostFunctionXDR
    sourceAccount := judge
    winners := releaseWinners }))) (saveFailed releaseAlreadySucceeded)
  return .reply 200 (.releaseBuild eventID unsigned
    (releaseWinners.map fun w => (w.rank, w.teamID, w.teamMemberID, w.address)))

def handleReleaseSubmit (deps : Deps) (wallet : Address) (id : String)
    (body : Option SignedXDR) : Handler Response := do
  let eventID ← pathID id
  let _ ← checkReleasePreconditions wallet eventID
  let signedXDR ← signedBody body
  let op ← loadOpOr (.release eventID) (writeError 409 "no_pending_release"
    ⟨"no release has been built for this event yet", []⟩)
  checkPending op.status releaseAlreadySucceeded (writeError 409 "no_pending_release"
    ⟨"the last release attempt failed -- build again before submitting", []⟩)
  let _ ← checkEnvelope signedXDR (.release eventID) op.build
  match ← submitAndClassify signedXDR deps.escrowCfg (.release eventID) with
  | .pendingHash hash => return .reply 202 (.submit hash "pending")
  | .result hash =>
      let now ← call .now
      -- the write is told the hash, not the build that was paid
      orInternal (← call (.write (.markReleaseSucceeded eventID hash now)))
      return .reply 200 (.submit hash "succeeded")

end Service
