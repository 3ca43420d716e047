/-
# The organizer lanes of the store

The create, deposit and go-live lanes.  Create and go-live mirror the release lane: one
row per event, the event's status checked inside the transaction, and a confirmation that
names the build it confirms.  Every deposit is a row of its own.
-/
import Astrea.StoreRelease

open Guard

namespace Service

/-! ## create_event -/

/-- Everything the create handlers need about one event. -/
structure EventForCreate where
  id : PathID
  status : EventStatus
  escrowEventID : Option EventID
  organizerWalletAddress : Address
  judges : List Address
  prizes : List Prize
  deriving DecidableEq

def loadEventForCreate (db : DB) (eventID : PathID) : Except StoreError EventForCreate := do
  let event ← expect (db.events.lookup eventID.uuid) .notFound
  return {
    id := eventID
    status := event.status
    escrowEventID := event.escrowEventId
    organizerWalletAddress := event.organizerWalletAddress
    judges := loadJudges db eventID.uuid
    prizes := loadPrizes db eventID.uuid }

def loadCreateOp (db : DB) (eventID : PathID) : Except StoreError (StoredOp (.create eventID)) :=
  loadOp db (.create eventID)

def saveCreateBuild (db : DB) (eventID : PathID) (build : CreateBuild) :
    Except StoreError DB := do
  ensure (db.opStatus (.create eventID) ≠ some .succeeded) .alreadySucceeded
  let event ← expect (db.events.lookup eventID.uuid) .notFound
  ensure (event.status = .draft) (.other ⟨"store: event %s is not DRAFT (got %s)",
    [.text eventID.text, .text event.status.text]⟩)
  ensure (event.escrowEventId = none)
    (.other ⟨"store: event %s already has an escrowEventId", [.text eventID.text]⟩)
  upsertBuild db (.create eventID) build

/-- No other event has this `escrowEventId`: the column is unique. -/
def EscrowEventIdFree (db : DB) (id : RowId) (escrowEventID : EventID) : Prop :=
  ∀ e ∈ db.events.entries, e.1 ≠ id → e.2.escrowEventId ≠ some escrowEventID

instance (db : DB) (id : RowId) (escrowEventID : EventID) :
    Decidable (EscrowEventIdFree db id escrowEventID) :=
  inferInstanceAs (Decidable (∀ e ∈ db.events.entries, _))

/-- Confirms the row for `escrowEventID` specifically, not whatever is pending. -/
def markCreateSucceeded (db : DB) (eventID : PathID) (escrowEventID : EventID)
    (confirmedAt : Time) : Except StoreError DB := do
  let row ← expect (db.opLog (.create eventID)) .createBuildReplaced
  -- one `UPDATE` with both conditions, so the two failures are one error
  ensure (row.status = .pending ∧ CreateBuild.escrowEventID row.build = escrowEventID)
    .createBuildReplaced
  let event ← expect (db.events.lookup eventID.uuid) (.other
    ⟨"store: event %s was not DRAFT when create_event confirmed (race)", [.text eventID.text]⟩)
  ensure (event.status = .draft) (.other
    ⟨"store: event %s was not DRAFT when create_event confirmed (race)", [.text eventID.text]⟩)
  -- the unique index on `escrowEventId`
  ensure (EscrowEventIdFree db eventID.uuid escrowEventID)
    (.other ⟨"store: mark event %s created: %w", [.text eventID.text]⟩)
  return (db.setOp (.create eventID) { row with status := .succeeded }).setEvent eventID.uuid
    { event with
      escrowEventId := some escrowEventID, status := .created, conditionsMetAt := some confirmedAt }

def markCreateFailed (db : DB) (eventID : PathID) (reason : Message) : Except StoreError DB :=
  markFailed db (.create eventID) reason

/-! ## deposit_funds -/

def loadDepositOp (db : DB) (opID : OpID) : Except StoreError (StoredOp (.deposit opID)) :=
  loadOp db (.deposit opID)

/-- Always an insert, under the id `newOpID` has drawn; the key is unique. -/
def saveDepositBuild (db : DB) (opID : OpID) (build : DepositBuild) : Except StoreError DB := do
  ensure (db.opLog (.deposit opID) = none) (.other ⟨"store: insert deposit op_log: %w", []⟩)
  return db.setOp (.deposit opID) ⟨build, .pending, none⟩

def markDepositSucceeded (db : DB) (opID : OpID) : Except StoreError DB := do
  let row ← expect (db.opLog (.deposit opID)) .depositNotPending
  ensure (row.status = .pending) .depositNotPending
  return db.setOp (.deposit opID) { row with status := .succeeded }

def markDepositFailed (db : DB) (opID : OpID) (reason : Message) : Except StoreError DB :=
  markFailed db (.deposit opID) reason

/-! ## set_event_in_progress -/

/-- Everything the go-live handlers need about one event. -/
structure EventForStart where
  id : PathID
  status : EventStatus
  escrowEventID : Option EventID
  judgingDeadlineAt : Option Time
  organizerWalletAddress : Address
  deriving DecidableEq

def loadEventForStart (db : DB) (eventID : PathID) : Except StoreError EventForStart := do
  let event ← expect (db.events.lookup eventID.uuid) .notFound
  return {
    id := eventID
    status := event.status
    escrowEventID := event.escrowEventId
    judgingDeadlineAt := event.judgingDeadlineAt
    organizerWalletAddress := event.organizerWalletAddress }

def loadStartOp (db : DB) (eventID : PathID) : Except StoreError (StoredOp (.start eventID)) :=
  loadOp db (.start eventID)

def saveStartBuild (db : DB) (eventID : PathID) (build : StartBuild) : Except StoreError DB := do
  ensure (db.opStatus (.start eventID) ≠ some .succeeded) .alreadySucceeded
  let event ← expect (db.events.lookup eventID.uuid) .notFound
  ensure (event.status = .created) (.other ⟨"store: event %s is not CREATED (got %s)",
    [.text eventID.text, .text event.status.text]⟩)
  ensure (event.escrowEventId ≠ none)
    (.other ⟨"store: event %s has no escrowEventId", [.text eventID.text]⟩)
  upsertBuild db (.start eventID) build

/-- Confirms the row for `hostFunctionXDR` specifically; the only write of `LIVE`. -/
def markStartSucceeded (db : DB) (eventID : PathID) (hostFunctionXDR : HostFunction)
    (_confirmedAt : Time) : Except StoreError DB := do
  let row ← expect (db.opLog (.start eventID)) .startBuildReplaced
  ensure (row.status = .pending ∧ StartBuild.hostFunctionXDR row.build = hostFunctionXDR)
    .startBuildReplaced
  let event ← expect (db.events.lookup eventID.uuid) (.other
    ⟨"store: event %s was not CREATED when set_event_in_progress confirmed (race)",
      [.text eventID.text]⟩)
  ensure (event.status = .created) (.other
    ⟨"store: event %s was not CREATED when set_event_in_progress confirmed (race)",
      [.text eventID.text]⟩)
  return (db.setOp (.start eventID) { row with status := .succeeded }).setEvent eventID.uuid
    { event with status := .live }

def markStartFailed (db : DB) (eventID : PathID) (reason : Message) : Except StoreError DB :=
  markFailed db (.start eventID) reason

/-! ## Guards and writes -/

variable {db db' : DB} {p : PathID}

/-- What is loaded for creation names the organizer that is stored. -/
theorem loadEventForCreate_organizer {ev : EventForCreate} (h : loadEventForCreate db p = .ok ev) :
    (db.events.lookup p.uuid).map (·.organizerWalletAddress) = some ev.organizerWalletAddress := by
  simp only [loadEventForCreate, bind_eq_ok, expect_eq_ok, pure_eq_ok] at h
  obtain ⟨event, hevent, rfl⟩ := h
  rw [hevent]
  rfl

/-- What is loaded for a start names the organizer that is stored. -/
theorem loadEventForStart_organizer {ev : EventForStart} (h : loadEventForStart db p = .ok ev) :
    (db.events.lookup p.uuid).map (·.organizerWalletAddress) = some ev.organizerWalletAddress := by
  simp only [loadEventForStart, bind_eq_ok, expect_eq_ok, pure_eq_ok] at h
  obtain ⟨event, hevent, rfl⟩ := h
  rw [hevent]
  rfl

/-- What is loaded for a start is the row of the event. -/
theorem loadEventForStart_eq_ok {ev : EventForStart} (h : loadEventForStart db p = .ok ev) :
    ∃ event, db.events.lookup p.uuid = some event ∧ ev.id = p ∧ ev.status = event.status ∧
      ev.escrowEventID = event.escrowEventId := by
  simp only [loadEventForStart, bind_eq_ok, expect_eq_ok, pure_eq_ok] at h
  obtain ⟨event, hevent, rfl⟩ := h
  exact ⟨event, hevent, rfl, rfl, rfl⟩

/-- A creation is saved for a draft without an escrow id, unless one has succeeded. -/
theorem saveCreateBuild_eq_ok {b : CreateBuild} (h : saveCreateBuild db p b = .ok db') :
    ∃ event, db.opStatus (.create p) ≠ some .succeeded ∧
      db.events.lookup p.uuid = some event ∧ event.status = .draft ∧
      event.escrowEventId = none ∧ db' = db.setOp (.create p) ⟨b, .pending, none⟩ := by
  simp only [saveCreateBuild, bind_eq_ok, ensure_eq_ok, expect_eq_ok, exists_const,
    upsertBuild_eq_ok] at h
  obtain ⟨hstatus, event, hevent, hdraft, hnone, -, rfl⟩ := h
  exact ⟨event, hstatus, hevent, hdraft, hnone, rfl⟩

/-- A creation succeeds for the pending row of that escrow id, and makes the draft a created
event. -/
theorem markCreateSucceeded_eq_ok {eid : EventID} {t : Time}
    (h : markCreateSucceeded db p eid t = .ok db') :
    ∃ row event, db.opLog (.create p) = some row ∧ row.status = .pending ∧
      CreateBuild.escrowEventID row.build = eid ∧ db.events.lookup p.uuid = some event ∧
      event.status = .draft ∧ EscrowEventIdFree db p.uuid eid ∧
      db' = (db.setOp (.create p) { row with status := .succeeded }).setEvent p.uuid
        { event with escrowEventId := some eid, status := .created, conditionsMetAt := some t } := by
  simp only [markCreateSucceeded, bind_eq_ok, ensure_eq_ok, expect_eq_ok, exists_const,
    pure_eq_ok] at h
  obtain ⟨row, hrow, ⟨hpending, heid⟩, event, hevent, hdraft, hfree, rfl⟩ := h
  exact ⟨row, event, hrow, hpending, heid, hevent, hdraft, hfree, rfl⟩

/-- A deposit is saved under an id that has no row yet. -/
theorem saveDepositBuild_eq_ok {o : OpID} {b : DepositBuild}
    (h : saveDepositBuild db o b = .ok db') :
    db.opLog (.deposit o) = none ∧ db' = db.setOp (.deposit o) ⟨b, .pending, none⟩ := by
  simp only [saveDepositBuild, bind_eq_ok, ensure_eq_ok, exists_const, pure_eq_ok] at h
  obtain ⟨hnone, rfl⟩ := h
  exact ⟨hnone, rfl⟩

/-- A deposit succeeds from its pending row. -/
theorem markDepositSucceeded_eq_ok {o : OpID} (h : markDepositSucceeded db o = .ok db') :
    ∃ row, db.opLog (.deposit o) = some row ∧ row.status = .pending ∧
      db' = db.setOp (.deposit o) { row with status := .succeeded } := by
  simp only [markDepositSucceeded, bind_eq_ok, ensure_eq_ok, expect_eq_ok, exists_const,
    pure_eq_ok] at h
  obtain ⟨row, hrow, hpending, rfl⟩ := h
  exact ⟨row, hrow, hpending, rfl⟩

/-- A start is saved for a created event with an escrow id, unless one has succeeded. -/
theorem saveStartBuild_eq_ok {b : StartBuild} (h : saveStartBuild db p b = .ok db') :
    ∃ event, db.opStatus (.start p) ≠ some .succeeded ∧
      db.events.lookup p.uuid = some event ∧ event.status = .created ∧
      event.escrowEventId ≠ none ∧ db' = db.setOp (.start p) ⟨b, .pending, none⟩ := by
  simp only [saveStartBuild, bind_eq_ok, ensure_eq_ok, expect_eq_ok, exists_const,
    upsertBuild_eq_ok] at h
  obtain ⟨hstatus, event, hevent, hcreated, hsome, -, rfl⟩ := h
  exact ⟨event, hstatus, hevent, hcreated, hsome, rfl⟩

/-- A start succeeds for the pending row of that host function, and makes the event live. -/
theorem markStartSucceeded_eq_ok {hf : HostFunction} {t : Time}
    (h : markStartSucceeded db p hf t = .ok db') :
    ∃ row event, db.opLog (.start p) = some row ∧ row.status = .pending ∧
      StartBuild.hostFunctionXDR row.build = hf ∧ db.events.lookup p.uuid = some event ∧
      event.status = .created ∧
      db' = (db.setOp (.start p) { row with status := .succeeded }).setEvent p.uuid
        { event with status := .live } := by
  simp only [markStartSucceeded, bind_eq_ok, ensure_eq_ok, expect_eq_ok, exists_const,
    pure_eq_ok] at h
  obtain ⟨row, hrow, ⟨hpending, hhf⟩, event, hevent, hcreated, rfl⟩ := h
  exact ⟨row, event, hrow, hpending, hhf, hevent, hcreated, rfl⟩

end Service
