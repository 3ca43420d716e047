/-
# The release lane of the store

The reads of a release, and the three writes of its op log row.  Every method is one
transaction: it either returns the tables it leaves or fails and leaves them as they were.
Each method is followed by the lemma that lists its guards and its writes.
-/
import Astrea.StoreTypes

open Guard

namespace Service

/-! ## Reads -/

structure Prize where
  id : RowId
  rank : Int64
  amount : GoString
  deriving DecidableEq

structure TeamMember where
  id : RowId
  ordinal : Int64
  shareBasisPoints : Int64
  walletAddress : Address
  deriving DecidableEq

structure Team where
  id : RowId
  members : List TeamMember
  deriving DecidableEq

/-- Everything the release handlers need about one event. -/
structure EventForRelease where
  id : PathID
  status : EventStatus
  escrowEventID : Option EventID
  judges : List Address
  prizes : List Prize
  teams : List Team
  deriving DecidableEq

/-- What a `/submit` needs of an op log row. -/
structure StoredOp (k : OpKey) where
  status : OpStatus
  build : k.Build
  deriving DecidableEq

/-- The addresses of the `ACTIVE` judges of an event. -/
def loadJudges (db : DB) (eventId : RowId) : List Address :=
  (db.judges.filter fun j => j.eventId = eventId ∧ j.active = true).map (·.walletAddress)

/-- The prizes of an event, ordered by rank. -/
def loadPrizes (db : DB) (eventId : RowId) : List Prize :=
  ((db.prizes.entries.filter fun e => e.2.eventId = eventId).map fun e =>
    (⟨e.1, e.2.rank, e.2.amount⟩ : Prize)).insertionSort fun p q => p.rank ≤ q.rank

/-- The order `t.id, tm.ordinal` of the rows of teams and members. -/
def memberOrder (r r' : RowId × TeamMember) : Prop :=
  r.1 < r'.1 ∨ (r.1 = r'.1 ∧ r.2.ordinal ≤ r'.2.ordinal)

instance (r r' : RowId × TeamMember) : Decidable (memberOrder r r') :=
  inferInstanceAs (Decidable (_ ∨ _))

/-- The members of the teams of an event, each with its team. -/
def memberRows (db : DB) (eventId : RowId) : List (RowId × TeamMember) :=
  (db.teamMembers.entries.filterMap fun e =>
    if db.teams.lookup e.2.teamId = some eventId then
      some (e.2.teamId, ⟨e.1, e.2.ordinal, e.2.shareBasisPoints, e.2.walletAddress⟩)
    else none).insertionSort memberOrder

/-- Group rows that arrive team by team. -/
def collectTeams : List (RowId × TeamMember) → List Team
  | [] => []
  | (teamID, member) :: rows =>
      match collectTeams rows with
      | [] => [⟨teamID, [member]⟩]
      | team :: teams =>
          if team.id = teamID then ⟨teamID, member :: team.members⟩ :: teams
          else ⟨teamID, [member]⟩ :: team :: teams

def loadEventForRelease (db : DB) (eventID : PathID) : Except StoreError EventForRelease := do
  let event ← expect (db.events.lookup eventID.uuid) .notFound
  return {
    id := eventID
    status := event.status
    escrowEventID := event.escrowEventId
    judges := loadJudges db eventID.uuid
    prizes := loadPrizes db eventID.uuid
    teams := collectTeams (memberRows db eventID.uuid) }

/-- The read of an op log row, the same in every lane. -/
def loadOp (db : DB) (k : OpKey) : Except StoreError (StoredOp k) := do
  let row ← expect (db.opLog k) .notFound
  return ⟨row.status, row.build⟩

def loadReleaseOp (db : DB) (eventID : PathID) : Except StoreError (StoredOp (.release eventID)) :=
  loadOp db (.release eventID)

/-- What is loaded for a release is the row of the event. -/
theorem loadEventForRelease_eq_ok {db : DB} {p : PathID} {ev : EventForRelease}
    (h : loadEventForRelease db p = .ok ev) :
    ∃ event, db.events.lookup p.uuid = some event ∧ ev.id = p ∧ ev.status = event.status ∧
      ev.escrowEventID = event.escrowEventId := by
  simp only [loadEventForRelease, bind_eq_ok, expect_eq_ok, pure_eq_ok] at h
  obtain ⟨event, hevent, rfl⟩ := h
  exact ⟨event, hevent, rfl, rfl, rfl⟩

/-- Its judges are the stored ones, and the event exists. -/
theorem loadEventForRelease_judges {db : DB} {p : PathID} {ev : EventForRelease}
    (h : loadEventForRelease db p = .ok ev) :
    db.events.lookup p.uuid ≠ none ∧ loadJudges db p.uuid = ev.judges := by
  simp only [loadEventForRelease, bind_eq_ok, expect_eq_ok, pure_eq_ok] at h
  obtain ⟨event, hevent, rfl⟩ := h
  exact ⟨by simp [hevent], rfl⟩

/-- A row is loaded as it is stored, without its last error. -/
theorem loadOp_eq_ok {db : DB} {k : OpKey} {op : StoredOp k} :
    loadOp db k = .ok op ↔ ∃ lastError, db.opLog k = some ⟨op.build, op.status, lastError⟩ := by
  simp only [loadOp, bind_eq_ok, expect_eq_ok, pure_eq_ok]
  constructor
  · rintro ⟨row, hrow, rfl⟩
    exact ⟨row.lastError, hrow⟩
  · rintro ⟨lastError, hrow⟩
    exact ⟨_, hrow, rfl⟩

/-! ## Saving a build -/

/-- Assign the prize of every winner's first line, each to that line's team. -/
def assignPrizes (eventId : RowId) (seenPrize : List RowId) (db : DB) :
    List ReleaseWinner → Except StoreError DB
  | [] => .ok db
  | w :: ws =>
      if w.prizeID ∈ seenPrize then assignPrizes eventId seenPrize db ws
      else do
        let prize ← expect (db.prizes.lookup w.prizeID)
          (.other ⟨"store: prize %s does not belong to event %s",
            [.text w.prizeID, .text eventId]⟩)
        -- both are one `UPDATE ... WHERE id = $2 AND "eventId" = $3` that finds no row
        ensure (prize.eventId = eventId) (.other
          ⟨"store: prize %s does not belong to event %s", [.text w.prizeID, .text eventId]⟩)
        -- the foreign key of `winnerTeamId`
        ensure (db.teams.lookup w.teamID ≠ none)
          (.other ⟨"store: assign prize %s: %w", [.text w.prizeID]⟩)
        assignPrizes eventId (w.prizeID :: seenPrize)
          (db.setPrize w.prizeID
            { prize with winnerTeamId := some w.teamID, status := .assigned }) ws

def saveReleaseBuild (db : DB) (eventID : PathID) (build : ReleaseBuild) :
    Except StoreError DB := do
  ensure (db.opStatus (.release eventID) ≠ some .succeeded) .alreadySucceeded
  let event ← expect (db.events.lookup eventID.uuid) .notFound
  ensure (event.status = .judging) (.other ⟨"store: event %s is not JUDGING (got %s)",
    [.text eventID.text, .text event.status.text]⟩)
  let db ← upsertBuild db (.release eventID) build
  assignPrizes eventID.uuid [] db build.winners

/-- The team of the first line that pays a prize. -/
def teamOf (winners : List ReleaseWinner) (prizeID : RowId) : Option RowId :=
  (winners.find? fun w => w.prizeID = prizeID).map (·.teamID)

theorem teamOf_cons_self {w : ReleaseWinner} {ws : List ReleaseWinner} :
    teamOf (w :: ws) w.prizeID = some w.teamID := by
  rw [teamOf, List.find?_cons_of_pos (by simp)]
  rfl

theorem teamOf_cons_ne {w : ReleaseWinner} {ws : List ReleaseWinner} {id : RowId}
    (h : w.prizeID ≠ id) : teamOf (w :: ws) id = teamOf ws id := by
  rw [teamOf, teamOf, List.find?_cons_of_neg (by simpa using h)]

/-- The tables apart from the prizes are the same. -/
structure SameButPrizes (db db' : DB) : Prop where
  opLog : db'.opLog = db.opLog
  events : db'.events = db.events
  judges : db'.judges = db.judges
  teams : db'.teams = db.teams
  teamMembers : db'.teamMembers = db.teamMembers
  payouts : db'.payouts = db.payouts

theorem SameButPrizes.refl (db : DB) : SameButPrizes db db := ⟨rfl, rfl, rfl, rfl, rfl, rfl⟩

theorem SameButPrizes.trans {db db' db'' : DB} (h : SameButPrizes db db')
    (h' : SameButPrizes db' db'') : SameButPrizes db db'' where
  opLog := h'.opLog.trans h.opLog
  events := h'.events.trans h.events
  judges := h'.judges.trans h.judges
  teams := h'.teams.trans h.teams
  teamMembers := h'.teamMembers.trans h.teamMembers
  payouts := h'.payouts.trans h.payouts

/-- A prize that is written changes only the prizes. -/
theorem sameButPrizes_setPrize (db : DB) (id : RowId) (prize : PrizeRow) :
    SameButPrizes db (db.setPrize id prize) := ⟨rfl, rfl, rfl, rfl, rfl, rfl⟩

/-- The winner of a prize in the tables. -/
def winnerTeam (db : DB) (prizeID : RowId) : Option RowId :=
  (db.prizes.lookup prizeID).bind (·.winnerTeamId)

/-- The assignment writes prizes only. -/
theorem assignPrizes_same {eventId : RowId} {seen : List RowId} {db db' : DB}
    {ws : List ReleaseWinner} (h : assignPrizes eventId seen db ws = .ok db') :
    SameButPrizes db db' := by
  induction ws generalizing seen db with
  | nil =>
      obtain rfl := Except.ok.inj h
      exact .refl _
  | cons w ws ih =>
      by_cases hseen : w.prizeID ∈ seen
      · rw [assignPrizes, if_pos hseen] at h
        exact ih h
      · rw [assignPrizes, if_neg hseen] at h
        simp only [bind_eq_ok, expect_eq_ok, ensure_eq_ok, exists_const] at h
        obtain ⟨prize, -, -, -, hrest⟩ := h
        exact (sameButPrizes_setPrize _ _ _).trans (ih hrest)

/-- A release is saved for an event in judging, unless one has succeeded; beside its row only prizes
change. -/
theorem saveReleaseBuild_eq_ok {db db' : DB} {p : PathID} {b : ReleaseBuild}
    (h : saveReleaseBuild db p b = .ok db') :
    ∃ event, db.opStatus (.release p) ≠ some .succeeded ∧
      db.events.lookup p.uuid = some event ∧ event.status = .judging ∧
      SameButPrizes (db.setOp (.release p) ⟨b, .pending, none⟩) db' := by
  simp only [saveReleaseBuild, bind_eq_ok, ensure_eq_ok, expect_eq_ok, exists_const,
    upsertBuild_eq_ok] at h
  obtain ⟨hstatus, event, hevent, hjudging, db₁, ⟨-, rfl⟩, hassign⟩ := h
  exact ⟨event, hstatus, hevent, hjudging, assignPrizes_same hassign⟩

/-! ## Recording the outcome -/

/-- `UPDATE prizes SET status = 'RELEASED', ... WHERE id = $3`. -/
def releasePrize (db : DB) (prizeID : RowId) (txHash : TxHash) (paidAt : Time) : DB :=
  match db.prizes.lookup prizeID with
  | none => db
  | some prize => db.setPrize prizeID
      { prize with status := .released, releaseTxHash := some txHash, releasedAt := some paidAt }

/-- The payout row of a winner. -/
def payoutRow (txHash : TxHash) (w : ReleaseWinner) : PayoutRow :=
  ⟨w.prizeID, w.teamMemberID, txHash, stroopsToAmount w.stroops⟩

/-- The constraints of the payouts table: the prize and the member exist, no row has the
same prize, hash and member, and the amount is a `Decimal(18,7)`. -/
def PayoutFits (db : DB) (txHash : TxHash) (w : ReleaseWinner) : Prop :=
  db.prizes.lookup w.prizeID ≠ none ∧ db.teamMembers.lookup w.teamMemberID ≠ none ∧
    (∀ row ∈ db.payouts,
      ¬ (row.prizeId = w.prizeID ∧ row.txHash = txHash ∧ row.teamMemberId = w.teamMemberID)) ∧
    w.stroops ≤ 999999999999999999

instance (db : DB) (txHash : TxHash) (w : ReleaseWinner) : Decidable (PayoutFits db txHash w) :=
  inferInstanceAs (Decidable (_ ∧ _ ∧ _ ∧ _))

/-- Mark the prize of every winner's first line released and insert every winner's payout. -/
def recordPayouts (txHash : TxHash) (paidAt : Time) (seenPrize : List RowId) (db : DB) :
    List ReleaseWinner → Except StoreError DB
  | [] => .ok db
  | w :: ws => do
      let db := if w.prizeID ∈ seenPrize then db else releasePrize db w.prizeID txHash paidAt
      ensure (PayoutFits db txHash w)
        (.other ⟨"store: insert payout for team member %s: %w", [.text w.teamMemberID]⟩)
      recordPayouts txHash paidAt (w.prizeID :: seenPrize) (db.addPayout (payoutRow txHash w)) ws

/-- `UPDATE events SET status = 'COMPLETED' WHERE id = $1`, whatever the status is. -/
def completeEvent (db : DB) (eventId : RowId) : DB :=
  match db.events.lookup eventId with
  | none => db
  | some event => db.setEvent eventId { event with status := .completed }

def markReleaseSucceeded (db : DB) (eventID : PathID) (txHash : TxHash) (paidAt : Time) :
    Except StoreError DB := do
  let row ← expect (db.opLog (.release eventID)) .releaseNotPending
  ensure (row.status = .pending) .releaseNotPending
  let db := db.setOp (.release eventID) { row with status := .succeeded }
  -- the winners of whatever build the row holds
  let db ← recordPayouts txHash paidAt [] db (ReleaseBuild.winners row.build)
  return completeEvent db eventID.uuid

/-- The update every `Mark*Failed` makes: the row becomes `FAILED`, whatever it was, and the
reason is merged into its payload. -/
def markFailed (db : DB) (k : OpKey) (reason : Message) : Except StoreError DB := do
  let row ← expect (db.opLog k) .notFound
  return db.setOp k { row with status := .failed, lastError := some reason }

def markReleaseFailed (db : DB) (eventID : PathID) (reason : Message) : Except StoreError DB :=
  markFailed db (.release eventID) reason

@[simp] theorem releasePrize_opLog (db : DB) (id : RowId) (h : TxHash) (t : Time) :
    (releasePrize db id h t).opLog = db.opLog := by
  unfold releasePrize
  split <;> rfl

@[simp] theorem releasePrize_events (db : DB) (id : RowId) (h : TxHash) (t : Time) :
    (releasePrize db id h t).events = db.events := by
  unfold releasePrize
  split <;> rfl

@[simp] theorem releasePrize_payouts (db : DB) (id : RowId) (h : TxHash) (t : Time) :
    (releasePrize db id h t).payouts = db.payouts := by
  unfold releasePrize
  split <;> rfl

/-- Recording payouts appends one row for each winner, and leaves rows of operations and events. -/
theorem recordPayouts_eq_ok {h : TxHash} {t : Time} {seen : List RowId} {db db' : DB}
    {ws : List ReleaseWinner} (hok : recordPayouts h t seen db ws = .ok db') :
    db'.opLog = db.opLog ∧ db'.events = db.events ∧
      db'.payouts = db.payouts ++ ws.map (payoutRow h) := by
  induction ws generalizing seen db with
  | nil =>
      obtain rfl := Except.ok.inj hok
      exact ⟨rfl, rfl, by rw [List.map_nil, List.append_nil]⟩
  | cons w ws ih =>
      simp only [recordPayouts, bind_eq_ok, ensure_eq_ok, exists_const] at hok
      obtain ⟨-, hrest⟩ := hok
      obtain ⟨hlog, hevents, hpayouts⟩ := ih hrest
      rw [DB.addPayout_payouts, List.append_assoc, List.singleton_append] at hpayouts
      by_cases hseen : w.prizeID ∈ seen
      · rw [if_pos hseen] at hlog hevents hpayouts
        exact ⟨hlog, hevents, hpayouts⟩
      · rw [if_neg hseen] at hlog hevents hpayouts
        rw [DB.addPayout_opLog, releasePrize_opLog] at hlog
        rw [DB.addPayout_events, releasePrize_events] at hevents
        rw [releasePrize_payouts] at hpayouts
        exact ⟨hlog, hevents, hpayouts⟩

/-- It leaves the judges too. -/
theorem recordPayouts_judges {h : TxHash} {t : Time} {seen : List RowId} {db db' : DB}
    {ws : List ReleaseWinner} (hok : recordPayouts h t seen db ws = .ok db') :
    db'.judges = db.judges := by
  induction ws generalizing seen db with
  | nil =>
      obtain rfl := Except.ok.inj hok
      rfl
  | cons w ws ih =>
      simp only [recordPayouts, bind_eq_ok, ensure_eq_ok, exists_const] at hok
      rw [ih hok.2]
      unfold releasePrize
      split
      · rfl
      · split <;> rfl

theorem markReleaseSucceeded_judges {db db' : DB} {p : PathID} {h : TxHash} {t : Time}
    (hok : markReleaseSucceeded db p h t = .ok db') : db'.judges = db.judges := by
  simp only [markReleaseSucceeded, bind_eq_ok, expect_eq_ok, ensure_eq_ok, exists_const,
    pure_eq_ok] at hok
  obtain ⟨row, -, -, db₁, hrecord, rfl⟩ := hok
  have hsame := recordPayouts_judges hrecord
  unfold completeEvent
  split <;> exact hsame

/-- A release succeeds from its pending row, with the payouts of that row and the event
completed. -/
theorem markReleaseSucceeded_eq_ok {db db' : DB} {p : PathID} {h : TxHash} {t : Time}
    (hok : markReleaseSucceeded db p h t = .ok db') :
    ∃ row, db.opLog (.release p) = some row ∧ row.status = .pending ∧
      db'.opLog = (db.setOp (.release p) { row with status := .succeeded }).opLog ∧
      db'.events = (completeEvent db p.uuid).events ∧
      db'.payouts = db.payouts ++ (ReleaseBuild.winners row.build).map (payoutRow h) := by
  simp only [markReleaseSucceeded, bind_eq_ok, expect_eq_ok, ensure_eq_ok, exists_const,
    pure_eq_ok] at hok
  obtain ⟨row, hrow, hpending, db₁, hrecord, rfl⟩ := hok
  obtain ⟨hlog, hevents, hpayouts⟩ := recordPayouts_eq_ok hrecord
  refine ⟨row, hrow, hpending, ?_, ?_, ?_⟩
  · rw [← hlog]
    unfold completeEvent
    split <;> rfl
  · rw [DB.setOp_events] at hevents
    simp only [completeEvent, hevents]
    split
    · exact hevents
    · rw [DB.setEvent_events, DB.setEvent_events, hevents]
  · rw [DB.setOp_payouts] at hpayouts
    rw [← hpayouts]
    unfold completeEvent
    split <;> rfl

/-- A failure is written over the row whatever its status. -/
theorem markFailed_eq_ok {db db' : DB} {k : OpKey} {reason : Message} :
    markFailed db k reason = .ok db' ↔
      ∃ row, db.opLog k = some row ∧
        db' = db.setOp k { row with status := .failed, lastError := some reason } := by
  simp only [markFailed, bind_eq_ok, expect_eq_ok, pure_eq_ok]
  exact exists_congr fun row => and_congr_right fun _ => eq_comm

end Service
