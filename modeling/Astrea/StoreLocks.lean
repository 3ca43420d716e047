/-
# The write transactions, statement by statement

Every write method of the store as the statements it sends, each with the row it locks: a
`SELECT ... FOR UPDATE`, an `UPDATE` and an upsert lock the row they find.  A save locks the
event first and the op log row after it; a confirmation locks the op log row first and the
event last.  A transaction that nothing interrupts does what the method does (`txn_alone`).
-/
import Astrea.RowLocks
import Astrea.StoreWrites

open Guard RowLocks

namespace Service

/-- A row that a statement can lock. -/
inductive LockedRow where
  | op (k : OpKey)
  | event (id : RowId)
  | prize (id : RowId)
  deriving DecidableEq

/-- What is left of a transaction of the store. -/
abbrev StoreTxn : Type := Txn DB LockedRow StoreError

/-! ## Statements -/

/-- A plain `SELECT`. -/
def select (next : DB → StoreTxn) : StoreTxn := .stmt (fun _ => none) id next

/-- A write of what `find` finds. -/
def whenFound {α : Type} (find : DB → Option α) (write : α → DB → DB) (db : DB) : DB :=
  match find db with
  | none => db
  | some a => write a db

/-- A statement on the row that `find` finds: lock it, write it and go on, or go on without. -/
def onRow {α : Type} (row : LockedRow) (find : DB → Option α) (write : α → DB → DB)
    (missing : StoreTxn) (found : α → DB → StoreTxn) : StoreTxn :=
  .stmt (fun db => (find db).map fun _ => row) (whenFound find write)
    fun db => match find db with
      | none => missing
      | some a => found a db

/-- A transaction that runs alone reads the row it locks. -/
theorem alone_onRow {α : Type} {row : LockedRow} {find : DB → Option α} {write : α → DB → DB}
    {missing : StoreTxn} {found : α → DB → StoreTxn} {db : DB} :
    (onRow row find write missing found).alone db =
      match find db with
      | none => missing.alone db
      | some a => (found a db).alone (write a db) := by
  rw [onRow, Txn.alone, whenFound]
  cases find db with
  | none => rfl
  | some a => rfl

/-- Go on if a check passes. -/
def check (result : Except StoreError Unit) (next : StoreTxn) : StoreTxn :=
  match result with
  | .ok _ => next
  | .error e => .rollback e

/-- A check that fails ends it. -/
theorem alone_check {result : Except StoreError Unit} {next : StoreTxn} {db : DB} :
    (check result next).alone db = (result >>= fun _ => next.alone db) := by
  cases result with
  | ok _ => rfl
  | error e => rfl

/-! ## Saving a build -/

/-- The upsert's write, which spares a succeeded row. -/
def upsertRow (k : OpKey) (build : k.Build) (db : DB) : DB :=
  if db.opStatus k = some .succeeded then db else db.setOp k ⟨build, .pending, none⟩

/-- The upsert of a build, which locks the row even when it leaves it as it is. -/
def upsertTxn (k : OpKey) (build : k.Build) (next : StoreTxn) : StoreTxn :=
  .stmt (fun _ => some (.op k)) (upsertRow k build)
    fun db => check (ensure (db.opStatus k ≠ some .succeeded) .alreadySucceeded) next

/-- What the three upserting saves share: the status of the op log row is read without a
lock, the event is locked and checked, the row is upserted. -/
def saveBuildTxn (k : OpKey) (build : k.Build) (eventId : RowId)
    (eventFits : EventRow → Except StoreError Unit) (next : StoreTxn) : StoreTxn :=
  select fun db => check (ensure (db.opStatus k ≠ some .succeeded) .alreadySucceeded) <|
    onRow (.event eventId) (·.events.lookup eventId) (fun _ => id) (.rollback .notFound)
      fun event _ => check (eventFits event) (upsertTxn k build next)

def saveCreateBuildTxn (eventID : PathID) (build : CreateBuild) : StoreTxn :=
  saveBuildTxn (.create eventID) build eventID.uuid
    (fun event => do
      ensure (event.status = .draft) (.other ⟨"store: event %s is not DRAFT (got %s)",
        [.text eventID.text, .text event.status.text]⟩)
      ensure (event.escrowEventId = none)
        (.other ⟨"store: event %s already has an escrowEventId", [.text eventID.text]⟩))
    .commit

def saveStartBuildTxn (eventID : PathID) (build : StartBuild) : StoreTxn :=
  saveBuildTxn (.start eventID) build eventID.uuid
    (fun event => do
      ensure (event.status = .created) (.other ⟨"store: event %s is not CREATED (got %s)",
        [.text eventID.text, .text event.status.text]⟩)
      ensure (event.escrowEventId ≠ none)
        (.other ⟨"store: event %s has no escrowEventId", [.text eventID.text]⟩))
    .commit

/-- A prize, when it is one of the event. -/
def prizeOf (eventId prizeID : RowId) (db : DB) : Option PrizeRow :=
  (db.prizes.lookup prizeID).filter fun prize => prize.eventId = eventId

/-- One `UPDATE` for each prize, at its first line. -/
def assignPrizesTxn (eventId : RowId) (seenPrize : List RowId) : List ReleaseWinner → StoreTxn
  | [] => .commit
  | w :: ws =>
      if w.prizeID ∈ seenPrize then assignPrizesTxn eventId seenPrize ws
      else onRow (.prize w.prizeID) (prizeOf eventId w.prizeID)
        (fun prize db => db.setPrize w.prizeID
          { prize with winnerTeamId := some w.teamID, status := .assigned })
        (.rollback (.other ⟨"store: prize %s does not belong to event %s",
          [.text w.prizeID, .text eventId]⟩))
        fun _ db => check (ensure (db.teams.lookup w.teamID ≠ none)
            (.other ⟨"store: assign prize %s: %w", [.text w.prizeID]⟩))
          (assignPrizesTxn eventId (w.prizeID :: seenPrize) ws)

def saveReleaseBuildTxn (eventID : PathID) (build : ReleaseBuild) : StoreTxn :=
  saveBuildTxn (.release eventID) build eventID.uuid
    (fun event => ensure (event.status = .judging)
      (.other ⟨"store: event %s is not JUDGING (got %s)",
        [.text eventID.text, .text event.status.text]⟩))
    (assignPrizesTxn eventID.uuid [] build.winners)

/-! ## Recording the outcome -/

/-- The pending row of an operation, when it is the one to be confirmed. -/
def pendingOp (k : OpKey) (confirms : k.Build → Bool) (db : DB) : Option (OpRow k) :=
  (db.opLog k).filter fun row => row.status = .pending && confirms row.build

/-- The `UPDATE` that starts every confirmation. -/
def succeedTxn (k : OpKey) (confirms : k.Build → Bool) (replaced : StoreError)
    (next : OpRow k → StoreTxn) : StoreTxn :=
  onRow (.op k) (pendingOp k confirms)
    (fun row db => db.setOp k { row with status := .succeeded }) (.rollback replaced)
    fun row _ => next row

/-- The `UPDATE` of an event's status that a confirmation ends with, when the event is still
in the status it was built in; the update itself may violate a constraint. -/
def transitionTxn (eventId : RowId) (expected : EventStatus)
    (update : EventRow → EventRow) (raced : StoreError)
    (violates : DB → Except StoreError Unit) : StoreTxn :=
  onRow (.event eventId)
    (fun db => (db.events.lookup eventId).filter fun event => event.status = expected)
    (fun event db => db.setEvent eventId (update event)) (.rollback raced)
    fun _ db => check (violates db) .commit

def markCreateSucceededTxn (eventID : PathID) (escrowEventID : EventID) (confirmedAt : Time) :
    StoreTxn :=
  succeedTxn (.create eventID) (fun build => CreateBuild.escrowEventID build = escrowEventID)
    .createBuildReplaced fun _ =>
      transitionTxn eventID.uuid .draft
        (fun event => { event with
          escrowEventId := some escrowEventID, status := .created,
          conditionsMetAt := some confirmedAt })
        (.other ⟨"store: event %s was not DRAFT when create_event confirmed (race)",
          [.text eventID.text]⟩)
        fun db => ensure (EscrowEventIdFree db eventID.uuid escrowEventID)
          (.other ⟨"store: mark event %s created: %w", [.text eventID.text]⟩)

def markStartSucceededTxn (eventID : PathID) (hostFunctionXDR : HostFunction)
    (_confirmedAt : Time) : StoreTxn :=
  succeedTxn (.start eventID)
    (fun build => StartBuild.hostFunctionXDR build = hostFunctionXDR) .startBuildReplaced
    fun _ => transitionTxn eventID.uuid .created (fun event => { event with status := .live })
      (.other ⟨"store: event %s was not CREATED when set_event_in_progress confirmed (race)",
        [.text eventID.text]⟩)
      fun _ => .ok ()

/-- The insert of a winner's payout, which locks no row. -/
def insertPayoutTxn (txHash : TxHash) (w : ReleaseWinner) (next : StoreTxn) : StoreTxn :=
  .stmt (fun _ => none) (·.addPayout (payoutRow txHash w)) fun db =>
    check (ensure (PayoutFits db txHash w)
      (.other ⟨"store: insert payout for team member %s: %w", [.text w.teamMemberID]⟩)) next

/-- One `UPDATE` for each prize, at its first line, an insert for each line, and at last the
event. -/
def recordPayoutsTxn (eventId : RowId) (txHash : TxHash) (paidAt : Time)
    (seenPrize : List RowId) : List ReleaseWinner → StoreTxn
  | [] => onRow (.event eventId) (·.events.lookup eventId)
      (fun event db => db.setEvent eventId { event with status := .completed }) .commit
      fun _ _ => .commit
  | w :: ws =>
      let insert := insertPayoutTxn txHash w
        (recordPayoutsTxn eventId txHash paidAt (w.prizeID :: seenPrize) ws)
      if w.prizeID ∈ seenPrize then insert
      else onRow (.prize w.prizeID) (·.prizes.lookup w.prizeID)
        (fun prize db => db.setPrize w.prizeID { prize with
          status := .released, releaseTxHash := some txHash, releasedAt := some paidAt })
        insert fun _ _ => insert

def markReleaseSucceededTxn (eventID : PathID) (txHash : TxHash) (paidAt : Time) : StoreTxn :=
  succeedTxn (.release eventID) (fun _ => true) .releaseNotPending fun row =>
    recordPayoutsTxn eventID.uuid txHash paidAt [] (ReleaseBuild.winners row.build)

/-- The one statement of every `Mark*Failed`. -/
def markFailedTxn (k : OpKey) (reason : Message) : StoreTxn :=
  onRow (.op k) (·.opLog k)
    (fun row db => db.setOp k { row with status := .failed, lastError := some reason })
    (.rollback .notFound) fun _ _ => .commit

/-! ## The deposit lane -/

/-- The insert of a new row, which it locks. -/
def saveDepositBuildTxn (opID : OpID) (build : DepositBuild) : StoreTxn :=
  .stmt (fun db => if db.opLog (.deposit opID) = none then some (.op (.deposit opID)) else none)
    (fun db => if db.opLog (.deposit opID) = none then
      db.setOp (.deposit opID) ⟨build, .pending, none⟩ else db)
    fun db => check (ensure (db.opLog (.deposit opID) = none)
      (.other ⟨"store: insert deposit op_log: %w", []⟩)) .commit

def markDepositSucceededTxn (opID : OpID) : StoreTxn :=
  succeedTxn (.deposit opID) (fun _ => true) .depositNotPending fun _ => .commit

/-! ## The transactions -/

/-- The transaction of a write. -/
def StoreWrite.txn : StoreWrite → StoreTxn
  | .saveCreateBuild eventID build => saveCreateBuildTxn eventID build
  | .saveDepositBuild opID build => saveDepositBuildTxn opID build
  | .saveStartBuild eventID build => saveStartBuildTxn eventID build
  | .saveReleaseBuild eventID build => saveReleaseBuildTxn eventID build
  | .markCreateSucceeded eventID escrowEventID confirmedAt =>
      markCreateSucceededTxn eventID escrowEventID confirmedAt
  | .markDepositSucceeded opID => markDepositSucceededTxn opID
  | .markStartSucceeded eventID hostFunctionXDR confirmedAt =>
      markStartSucceededTxn eventID hostFunctionXDR confirmedAt
  | .markReleaseSucceeded eventID txHash paidAt => markReleaseSucceededTxn eventID txHash paidAt
  | .markFailed k reason => markFailedTxn k reason

/-! ## A transaction alone -/

section Alone

variable {db : DB}

@[simp] theorem bind_alone_commit (x : Except StoreError DB) :
    (x >>= fun db => (.commit : StoreTxn).alone db) = x := by
  cases x with
  | error e => rfl
  | ok db => rfl

/-- Run alone, the upsert is the store's. -/
theorem alone_upsertTxn {k : OpKey} {build : k.Build} {next : StoreTxn} :
    (upsertTxn k build next).alone db = (upsertBuild db k build >>= next.alone) := by
  rw [upsertTxn, Txn.alone, alone_check, upsertBuild, upsertRow]
  by_cases h : db.opStatus k = some .succeeded
  · simp [h, ensure, bind, Except.bind]
  · simp [h, ensure, bind, Except.bind, pure, Except.pure]

/-- Run alone, a save checks the row, the event and writes. -/
theorem alone_saveBuildTxn {k : OpKey} {build : k.Build} {eventId : RowId}
    {eventFits : EventRow → Except StoreError Unit} {next : StoreTxn} :
    (saveBuildTxn k build eventId eventFits next).alone db = (do
      ensure (db.opStatus k ≠ some .succeeded) .alreadySucceeded
      let event ← expect (db.events.lookup eventId) .notFound
      eventFits event
      let db ← upsertBuild db k build
      next.alone db) := by
  rw [saveBuildTxn, select, Txn.alone, alone_check]
  congr 1
  funext _
  simp only [alone_onRow, id]
  cases db.events.lookup eventId with
  | none => rfl
  | some event =>
      simp only [alone_check, alone_upsertTxn]
      rfl

/-- Run alone, prizes are assigned as the store does it. -/
theorem alone_assignPrizesTxn {eventId : RowId} {seen : List RowId} {ws : List ReleaseWinner} :
    (assignPrizesTxn eventId seen ws).alone db = assignPrizes eventId seen db ws := by
  induction ws generalizing db seen with
  | nil => rfl
  | cons w ws ih =>
      by_cases hseen : w.prizeID ∈ seen
      · rw [assignPrizesTxn, if_pos hseen, assignPrizes, if_pos hseen, ih]
      · rw [assignPrizesTxn, if_neg hseen, assignPrizes, if_neg hseen, alone_onRow, prizeOf]
        cases hprize : db.prizes.lookup w.prizeID with
        | none => rfl
        | some prize =>
            by_cases hevent : prize.eventId = eventId
            · subst hevent
              simp only [Option.filter, decide_true, if_true, alone_check, ih]
              simp [expect, ensure, bind, Except.bind]
            · simp only [Option.filter, hevent, decide_false]
              simp [expect, ensure, hevent, bind, Except.bind, Txn.alone]

/-- Run alone, a success is taken from the pending row it confirms. -/
theorem alone_succeedTxn {k : OpKey} {confirms : k.Build → Bool} {replaced : StoreError}
    {next : OpRow k → StoreTxn} :
    (succeedTxn k confirms replaced next).alone db = (do
      let row ← expect (db.opLog k) replaced
      ensure (row.status = .pending ∧ confirms row.build) replaced
      (next row).alone (db.setOp k { row with status := .succeeded })) := by
  rw [succeedTxn, alone_onRow, pendingOp]
  cases db.opLog k with
  | none => rfl
  | some row =>
      by_cases hrow : row.status = .pending ∧ confirms row.build = true
      · simp [Option.filter, hrow, expect, ensure, bind, Except.bind]
      · simp [Option.filter, hrow, expect, ensure, bind, Except.bind, Txn.alone]

/-- Run alone, an event is moved from the expected status. -/
theorem alone_transitionTxn {eventId : RowId} {expected : EventStatus}
    {update : EventRow → EventRow} {raced : StoreError} {violates : DB → Except StoreError Unit} :
    (transitionTxn eventId expected update raced violates).alone db = (do
      let event ← expect (db.events.lookup eventId) raced
      ensure (event.status = expected) raced
      violates db
      return db.setEvent eventId (update event)) := by
  rw [transitionTxn, alone_onRow]
  cases db.events.lookup eventId with
  | none => rfl
  | some event =>
      by_cases hstatus : event.status = expected
      · simp [Option.filter, hstatus, expect, ensure, alone_check, bind, Except.bind, Txn.alone]
        rfl
      · simp [Option.filter, hstatus, expect, ensure, bind, Except.bind, Txn.alone]

/-- Run alone, a payout that fits is appended. -/
theorem alone_insertPayoutTxn {txHash : TxHash} {w : ReleaseWinner} {next : StoreTxn} :
    (insertPayoutTxn txHash w next).alone db = (do
      ensure (PayoutFits db txHash w)
        (.other ⟨"store: insert payout for team member %s: %w", [.text w.teamMemberID]⟩)
      next.alone (db.addPayout (payoutRow txHash w))) := by
  rw [insertPayoutTxn, Txn.alone, alone_check]

/-- Run alone, the payouts are recorded and the event completed. -/
theorem alone_recordPayoutsTxn {eventId : RowId} {txHash : TxHash} {paidAt : Time}
    {seen : List RowId} {ws : List ReleaseWinner} :
    (recordPayoutsTxn eventId txHash paidAt seen ws).alone db = (do
      let db ← recordPayouts txHash paidAt seen db ws
      return completeEvent db eventId) := by
  induction ws generalizing db seen with
  | nil =>
      rw [recordPayoutsTxn, alone_onRow, recordPayouts]
      simp only [bind, Except.bind, completeEvent]
      cases db.events.lookup eventId with
      | none => rfl
      | some event => rfl
  | cons w ws ih =>
      by_cases hseen : w.prizeID ∈ seen
      · simp only [recordPayoutsTxn, recordPayouts, hseen, if_true, alone_insertPayoutTxn, ih,
          bind_assoc]
      · simp only [recordPayoutsTxn, recordPayouts, hseen, if_false, alone_onRow, releasePrize]
        cases db.prizes.lookup w.prizeID with
        | none => simp only [alone_insertPayoutTxn, ih, bind_assoc]
        | some prize => simp only [alone_insertPayoutTxn, ih, bind_assoc]

/-- A transaction that nothing interrupts is the method of the store. -/
theorem txn_alone (w : StoreWrite) (db : DB) : w.txn.alone db = w.run db := by
  cases w with
  | saveCreateBuild p b =>
      rw [StoreWrite.txn, saveCreateBuildTxn, alone_saveBuildTxn, StoreWrite.run, saveCreateBuild]
      simp only [bind_assoc, bind_alone_commit]
  | saveDepositBuild o b =>
      rw [StoreWrite.txn, saveDepositBuildTxn, Txn.alone, alone_check, StoreWrite.run,
        saveDepositBuild]
      by_cases h : db.opLog (.deposit o) = none
      · simp [h, ensure, bind, Except.bind, Txn.alone, pure, Except.pure]
      · simp [h, ensure, bind, Except.bind]
  | saveStartBuild p b =>
      rw [StoreWrite.txn, saveStartBuildTxn, alone_saveBuildTxn, StoreWrite.run, saveStartBuild]
      simp only [bind_assoc, bind_alone_commit]
  | saveReleaseBuild p b =>
      rw [StoreWrite.txn, saveReleaseBuildTxn, alone_saveBuildTxn, StoreWrite.run,
        saveReleaseBuild]
      simp only [alone_assignPrizesTxn]
  | markCreateSucceeded p eid t =>
      rw [StoreWrite.txn, markCreateSucceededTxn, alone_succeedTxn, StoreWrite.run,
        markCreateSucceeded]
      simp only [alone_transitionTxn, decide_eq_true_eq]
      rfl
  | markDepositSucceeded o =>
      rw [StoreWrite.txn, markDepositSucceededTxn, alone_succeedTxn, StoreWrite.run,
        markDepositSucceeded]
      simp only [and_true, Txn.alone]
      rfl
  | markStartSucceeded p hf t =>
      rw [StoreWrite.txn, markStartSucceededTxn, alone_succeedTxn, StoreWrite.run,
        markStartSucceeded]
      simp only [alone_transitionTxn, decide_eq_true_eq]
      rfl
  | markReleaseSucceeded p txHash t =>
      rw [StoreWrite.txn, markReleaseSucceededTxn, alone_succeedTxn, StoreWrite.run,
        markReleaseSucceeded]
      simp only [alone_recordPayoutsTxn, and_true]
  | markFailed k reason =>
      rw [StoreWrite.txn, markFailedTxn, alone_onRow, StoreWrite.run_markFailed, markFailed]
      cases db.opLog k with
      | none => rfl
      | some row => rfl

end Alone

end Service
