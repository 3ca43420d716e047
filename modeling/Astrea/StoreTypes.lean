/-
# The tables of the service's store

The rows core-go reads and writes, with the columns some method here uses.  The op log has
one row per operation; its JSON payload is the build the row was saved with, plus the
reason of the last failure.  Which build a row holds is a matter of its key's type, so a
row of one lane never holds another lane's build.
-/
import Astrea.Amount
import Astrea.KeyTable
import Mathlib.Logic.Function.Basic
import Mathlib.Data.List.Sort

open Guard

namespace Service

/-- A point in time, in nanoseconds since the Unix epoch. -/
abbrev Time : Type := ℤ

/-- A row's `uuid`, as its canonical text. -/
abbrev RowId : Type := String

/-- The contract's id of an event; its 32-digit hex text stands for it one to one. -/
abbrev EventID : Type := Escrow.EventId

/-! ## The ids a client sends -/

def isHexDigit (c : Char) : Bool :=
  ('0' ≤ c && c ≤ '9') || ('a' ≤ c && c ≤ 'f') || ('A' ≤ c && c ≤ 'F')

/-- The text after `n` hex digits. -/
def skipHex : ℕ → List Char → Option (List Char)
  | 0, s => some s
  | _ + 1, [] => none
  | n + 1, c :: s => if isHexDigit c then skipHex n s else none

/-- Groups of hex digits of the given lengths, with a hyphen between two groups. -/
def matchGroups : List ℕ → List Char → Bool
  | [], s => s.isEmpty
  | [n], s => skipHex n s == some []
  | n :: ns, s =>
      match skipHex n s with
      | some ('-' :: rest) => matchGroups ns rest
      | _ => false

/-- A standard 8-4-4-4-12 hex UUID, case-insensitive. -/
def uuidPattern (s : String) : Bool := matchGroups [8, 4, 4, 4, 12] s.toList

/-- The `{id}` of a path, once it has matched `uuidPattern`.  Its text is not canonical: two
spellings of one `uuid` are two texts. -/
structure PathID where
  text : String
  matched : uuidPattern text = true
  deriving DecidableEq

/-- The `uuid` Postgres reads from the text. -/
def PathID.uuid (p : PathID) : RowId := p.text.toLower

/-- Sixteen bytes in lower-case hex, the shape `newOpID` generates. -/
def opIDPattern (s : String) : Bool :=
  s.toList.length == 32 && s.toList.all fun c => isHexDigit c && !('A' ≤ c && c ≤ 'F')

/-- The id of one deposit attempt. -/
structure OpID where
  text : String
  matched : opIDPattern text = true
  deriving DecidableEq

/-- Skipped digits are as many as asked for. -/
theorem skipHex_length {n : ℕ} {s rest : List Char} (h : skipHex n s = some rest) :
    s.length = n + rest.length := by
  induction n generalizing s with
  | zero =>
      obtain rfl := Option.some_inj.mp h
      omega
  | succ n ih =>
      cases s with
      | nil => exact nomatch h
      | cons c s =>
          unfold skipHex at h
          split at h
          · rw [List.length_cons, ih h]
            omega
          · exact nomatch h

/-- The length of a text that matches groups of the given lengths. -/
def groupsLength : List ℕ → ℕ
  | [] => 0
  | [n] => n
  | n :: ns => n + 1 + groupsLength ns

/-- A text that matches the groups has their length. -/
theorem matchGroups_length {ns : List ℕ} {s : List Char} (h : matchGroups ns s = true) :
    s.length = groupsLength ns := by
  fun_induction matchGroups ns s with
  | case1 s =>
      rw [List.isEmpty_iff.mp h]
      rfl
  | case2 s n => rw [skipHex_length (beq_iff_eq.mp h)]; rfl
  | case3 s n ns hne rest hskip ih =>
      rw [skipHex_length hskip, List.length_cons, ih h, groupsLength]
      · omega
      · exact hne
  | case4 => exact nomatch h

/-- A path id has 36 characters. -/
theorem PathID.length (p : PathID) : p.text.toList.length = 36 := matchGroups_length p.matched

/-- An operation id has 32 characters. -/
theorem OpID.length (o : OpID) : o.text.toList.length = 32 := by
  have h := o.matched
  simp only [opIDPattern, Bool.and_eq_true, beq_iff_eq] at h
  exact h.1

/-! ## Builds -/

/-- One paid line of a release build. -/
structure ReleaseWinner where
  prizeID : RowId
  teamID : RowId
  teamMemberID : RowId
  address : Address
  stroops : Int64
  rank : Int64
  deriving DecidableEq

structure ReleaseBuild where
  hostFunctionXDR : HostFunction
  sourceAccount : Address
  winners : List ReleaseWinner
  deriving DecidableEq

structure CreateBuild where
  hostFunctionXDR : HostFunction
  sourceAccount : Address
  escrowEventID : EventID
  reward : Int64
  deriving DecidableEq

structure DepositBuild where
  hostFunctionXDR : HostFunction
  sourceAccount : Address
  amount : Int64
  deriving DecidableEq

structure StartBuild where
  hostFunctionXDR : HostFunction
  sourceAccount : Address
  judgingDeadline : Int64
  fee : Int64
  deriving DecidableEq

/-! ## The op log -/

/-- The idempotency keys: one row per event and lane, keyed by the path's text, and one per
deposit attempt. -/
inductive OpKey where
  | create (eventID : PathID)
  | deposit (opID : OpID)
  | start (eventID : PathID)
  | release (eventID : PathID)
  deriving DecidableEq

/-- The text of a key, as the rows store it. -/
def OpKey.idempotencyKey : OpKey → String
  | .create eventID => eventID.text ++ ":create_event"
  | .deposit opID => "deposit_funds:" ++ opID.text
  | .start eventID => eventID.text ++ ":set_event_in_progress"
  | .release eventID => eventID.text ++ ":release_reward"

/-- The length of a key's text, which differs between the lanes. -/
def OpKey.keyLength : OpKey → ℕ
  | .create _ => 49
  | .deposit _ => 46
  | .start _ => 58
  | .release _ => 51

/-- The idempotency key of each kind has a length of its own. -/
theorem OpKey.idempotencyKey_length (k : OpKey) :
    k.idempotencyKey.toList.length = k.keyLength := by
  cases k with
  | create p => simp [idempotencyKey, keyLength, p.length]
  | deposit o => simp [idempotencyKey, keyLength, o.length]
  | start p => simp [idempotencyKey, keyLength, p.length]
  | release p => simp [idempotencyKey, keyLength, p.length]

/-- Paths with one text after a common suffix are the same path. -/
theorem PathID.ext_of_append {p p' : PathID} {suffix : String}
    (h : p.text ++ suffix = p'.text ++ suffix) : p = p' := by
  have htext : p.text = p'.text := by
    rw [← String.toList_inj] at h ⊢
    rw [String.toList_append, String.toList_append] at h
    exact List.append_cancel_right h
  cases p
  cases p'
  simp only at htext
  subst htext
  rfl

/-- No two operations share a row. -/
theorem OpKey.idempotencyKey_injective : Function.Injective OpKey.idempotencyKey := by
  intro k k' h
  have hlen : k.keyLength = k'.keyLength := by
    rw [← k.idempotencyKey_length, ← k'.idempotencyKey_length, h]
  cases k with
  | create p =>
      cases k' with
      | create p' => rw [PathID.ext_of_append h]
      | _ => simp [keyLength] at hlen
  | deposit o =>
      cases k' with
      | deposit o' =>
          have htext : o.text = o'.text := by
            simp only [idempotencyKey] at h
            rw [← String.toList_inj] at h ⊢
            rw [String.toList_append, String.toList_append] at h
            exact List.append_cancel_left h
          cases o
          cases o'
          simp only at htext
          subst htext
          rfl
      | _ => simp [keyLength] at hlen
  | start p =>
      cases k' with
      | start p' => rw [PathID.ext_of_append h]
      | _ => simp [keyLength] at hlen
  | release p =>
      cases k' with
      | release p' => rw [PathID.ext_of_append h]
      | _ => simp [keyLength] at hlen

/-- The build a row under this key holds. -/
@[reducible] def OpKey.Build : OpKey → Type
  | .create _ => CreateBuild
  | .deposit _ => DepositBuild
  | .start _ => StartBuild
  | .release _ => ReleaseBuild

instance (k : OpKey) : DecidableEq k.Build :=
  match k with
  | .create _ => inferInstanceAs (DecidableEq CreateBuild)
  | .deposit _ => inferInstanceAs (DecidableEq DepositBuild)
  | .start _ => inferInstanceAs (DecidableEq StartBuild)
  | .release _ => inferInstanceAs (DecidableEq ReleaseBuild)

/-- The host function a build was simulated with. -/
def OpKey.hostFunction : (k : OpKey) → k.Build → HostFunction
  | .create _, b => CreateBuild.hostFunctionXDR b
  | .deposit _, b => DepositBuild.hostFunctionXDR b
  | .start _, b => StartBuild.hostFunctionXDR b
  | .release _, b => ReleaseBuild.hostFunctionXDR b

/-- The account a build was made for. -/
def OpKey.sourceAccount : (k : OpKey) → k.Build → Address
  | .create _, b => CreateBuild.sourceAccount b
  | .deposit _, b => DepositBuild.sourceAccount b
  | .start _, b => StartBuild.sourceAccount b
  | .release _, b => ReleaseBuild.sourceAccount b

inductive OpStatus where
  | pending
  | succeeded
  | failed
  deriving DecidableEq, Repr

/-- A row of the op log: its status and its payload, the build and the last error. -/
structure OpRow (k : OpKey) where
  build : k.Build
  status : OpStatus
  lastError : Option Message
  deriving DecidableEq

/-! ## Events, prizes, teams and payouts -/

inductive EventStatus where
  | draft
  | created
  | live
  | judging
  | completed
  | disputed
  | cancelled
  deriving DecidableEq, Repr

/-- `status::text`. -/
def EventStatus.text : EventStatus → String
  | .draft => "DRAFT"
  | .created => "CREATED"
  | .live => "LIVE"
  | .judging => "JUDGING"
  | .completed => "COMPLETED"
  | .disputed => "DISPUTED"
  | .cancelled => "CANCELLED"

inductive PrizeStatus where
  | pending
  | assigned
  | released
  | paidOut
  | disputed
  deriving DecidableEq, Repr

/-- An event, with the address of its organizer's wallet. -/
structure EventRow where
  status : EventStatus
  escrowEventId : Option EventID
  organizerWalletAddress : Address
  judgingDeadlineAt : Option Time
  conditionsMetAt : Option Time
  deriving DecidableEq

/-- A judge of an event; `active` says whether the status is `ACTIVE`. -/
structure JudgeRow where
  eventId : RowId
  walletAddress : Address
  active : Bool
  deriving DecidableEq

structure PrizeRow where
  eventId : RowId
  rank : Int64
  amount : GoString
  status : PrizeStatus
  winnerTeamId : Option RowId
  releaseTxHash : Option TxHash
  releasedAt : Option Time
  deriving DecidableEq

/-- A team's member, with the address of its wallet. -/
structure MemberRow where
  teamId : RowId
  ordinal : Int64
  shareBasisPoints : Int64
  walletAddress : Address
  deriving DecidableEq

structure PayoutRow where
  prizeId : RowId
  teamMemberId : RowId
  txHash : TxHash
  amount : GoString
  deriving DecidableEq

/-- The tables; a team's row is the event it entered. -/
structure DB where
  events : KeyTable RowId EventRow
  judges : List JudgeRow
  prizes : KeyTable RowId PrizeRow
  teams : KeyTable RowId RowId
  teamMembers : KeyTable RowId MemberRow
  payouts : List PayoutRow
  opLog : (k : OpKey) → Option (OpRow k)

/-- What a store method fails with. -/
inductive StoreError where
  | notFound
  | alreadySucceeded
  | releaseNotPending
  | createBuildReplaced
  | depositNotPending
  | startBuildReplaced
  | other (m : Message)
  deriving DecidableEq

/-! ## Writes -/

namespace DB

/-- Write a row of the op log. -/
def setOp (db : DB) (k : OpKey) (row : OpRow k) : DB :=
  { db with opLog := Function.update db.opLog k (some row) }

/-- Write an event. -/
def setEvent (db : DB) (id : RowId) (event : EventRow) : DB :=
  { db with events := db.events.insert id event }

/-- Write a prize. -/
def setPrize (db : DB) (id : RowId) (prize : PrizeRow) : DB :=
  { db with prizes := db.prizes.insert id prize }

/-- Append a payout. -/
def addPayout (db : DB) (payout : PayoutRow) : DB :=
  { db with payouts := db.payouts ++ [payout] }

variable (db : DB) (k : OpKey) (row : OpRow k) (id : RowId) (event : EventRow)
  (prize : PrizeRow) (payout : PayoutRow)

@[simp] theorem setOp_opLog : (db.setOp k row).opLog = Function.update db.opLog k (some row) :=
  rfl
@[simp] theorem setOp_events : (db.setOp k row).events = db.events := rfl
@[simp] theorem setOp_prizes : (db.setOp k row).prizes = db.prizes := rfl
@[simp] theorem setOp_payouts : (db.setOp k row).payouts = db.payouts := rfl
@[simp] theorem setEvent_opLog : (db.setEvent id event).opLog = db.opLog := rfl
@[simp] theorem setEvent_events : (db.setEvent id event).events = db.events.insert id event := rfl
@[simp] theorem setEvent_prizes : (db.setEvent id event).prizes = db.prizes := rfl
@[simp] theorem setEvent_payouts : (db.setEvent id event).payouts = db.payouts := rfl
@[simp] theorem setPrize_opLog : (db.setPrize id prize).opLog = db.opLog := rfl
@[simp] theorem setPrize_events : (db.setPrize id prize).events = db.events := rfl
@[simp] theorem setPrize_prizes : (db.setPrize id prize).prizes = db.prizes.insert id prize := rfl
@[simp] theorem setPrize_payouts : (db.setPrize id prize).payouts = db.payouts := rfl
@[simp] theorem addPayout_opLog : (db.addPayout payout).opLog = db.opLog := rfl
@[simp] theorem addPayout_events : (db.addPayout payout).events = db.events := rfl
@[simp] theorem addPayout_prizes : (db.addPayout payout).prizes = db.prizes := rfl
@[simp] theorem addPayout_payouts : (db.addPayout payout).payouts = db.payouts ++ [payout] := rfl

/-- The status of an operation, when it has a row. -/
def opStatus (db : DB) (k : OpKey) : Option OpStatus := (db.opLog k).map (·.status)

@[simp] theorem opStatus_eq_some {db : DB} {k : OpKey} {st : OpStatus} :
    db.opStatus k = some st ↔ ∃ row, db.opLog k = some row ∧ row.status = st :=
  Option.map_eq_some_iff

/-- What an operation's row is after a write of a row. -/
theorem setOp_opLog_eq_some {db : DB} {k k' : OpKey} {row : OpRow k} {row' : OpRow k'} :
    (db.setOp k row).opLog k' = some row' ↔
      (∃ h : k = k', h ▸ row = row') ∨ (k' ≠ k ∧ db.opLog k' = some row') := by
  rw [setOp_opLog]
  by_cases h : k' = k
  · subst h
    simp
  · rw [Function.update_of_ne h]
    constructor
    · intro hrow
      exact .inr ⟨h, hrow⟩
    · rintro (⟨hk, -⟩ | ⟨-, hrow⟩)
      · exact absurd hk.symm h
      · exact hrow

end DB

/-! ## The upsert of a build -/

/-- `INSERT ... ON CONFLICT DO UPDATE ... WHERE op_log.status <> 'SUCCEEDED'`. -/
def upsertBuild (db : DB) (k : OpKey) (build : k.Build) : Except StoreError DB := do
  ensure (db.opStatus k ≠ some .succeeded) .alreadySucceeded
  return db.setOp k ⟨build, .pending, none⟩

/-- A build is written over every row but one that has succeeded. -/
theorem upsertBuild_eq_ok {db db' : DB} {k : OpKey} {build : k.Build} :
    upsertBuild db k build = .ok db' ↔
      db.opStatus k ≠ some .succeeded ∧ db' = db.setOp k ⟨build, .pending, none⟩ := by
  simp only [upsertBuild, bind_eq_ok, ensure_eq_ok, exists_const, pure_eq_ok]
  exact and_congr_right fun _ => eq_comm

end Service
