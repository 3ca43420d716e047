/-
# The writes of the store and what they do

The store's write methods as one type, and the inversion of a successful write in terms of
the tables: what happens to the one op log row it is about (`run_opLog`), to each event
(`run_event`) and to the payouts (`run_payouts`).  Results about runs start from these and
never unfold a method.
-/
import Astrea.StoreOrganizer

open Guard

namespace Service

/-- A call of one write method with its arguments. -/
inductive StoreWrite where
  | saveCreateBuild (eventID : PathID) (build : CreateBuild)
  | saveDepositBuild (opID : OpID) (build : DepositBuild)
  | saveStartBuild (eventID : PathID) (build : StartBuild)
  | saveReleaseBuild (eventID : PathID) (build : ReleaseBuild)
  | markCreateSucceeded (eventID : PathID) (escrowEventID : EventID) (confirmedAt : Time)
  | markDepositSucceeded (opID : OpID)
  | markStartSucceeded (eventID : PathID) (hostFunctionXDR : HostFunction) (confirmedAt : Time)
  | markReleaseSucceeded (eventID : PathID) (txHash : TxHash) (paidAt : Time)
  | markFailed (k : OpKey) (reason : Message)
  deriving DecidableEq

/-- What a write asks of the row it is about. -/
inductive RowChange (k : OpKey) where
  | save (build : k.Build)
  | succeed
  | fail (reason : Message)

/-- A change of a row took place: a build is saved over anything but a succeeded row, only
a pending row succeeds, and any row fails. -/
def RowChange.Takes {k : OpKey} (old new : Option (OpRow k)) : RowChange k → Prop
  | .save build =>
      (∀ row, old = some row → row.status ≠ .succeeded) ∧ new = some ⟨build, .pending, none⟩
  | .succeed =>
      ∃ row, old = some row ∧ row.status = .pending ∧ new = some { row with status := .succeeded }
  | .fail reason =>
      ∃ row, old = some row ∧
        new = some { row with status := .failed, lastError := some reason }

namespace StoreWrite

/-- Run a write; an error is a rollback. -/
def run (db : DB) : StoreWrite → Except StoreError DB
  | .saveCreateBuild eventID build => Service.saveCreateBuild db eventID build
  | .saveDepositBuild opID build => Service.saveDepositBuild db opID build
  | .saveStartBuild eventID build => Service.saveStartBuild db eventID build
  | .saveReleaseBuild eventID build => Service.saveReleaseBuild db eventID build
  | .markCreateSucceeded eventID escrowEventID confirmedAt =>
      Service.markCreateSucceeded db eventID escrowEventID confirmedAt
  | .markDepositSucceeded opID => Service.markDepositSucceeded db opID
  | .markStartSucceeded eventID hostFunctionXDR confirmedAt =>
      Service.markStartSucceeded db eventID hostFunctionXDR confirmedAt
  | .markReleaseSucceeded eventID txHash paidAt =>
      Service.markReleaseSucceeded db eventID txHash paidAt
  | .markFailed (.create eventID) reason => markCreateFailed db eventID reason
  | .markFailed (.deposit opID) reason => markDepositFailed db opID reason
  | .markFailed (.start eventID) reason => markStartFailed db eventID reason
  | .markFailed (.release eventID) reason => markReleaseFailed db eventID reason

/-- The row a write is about. -/
def key : StoreWrite → OpKey
  | .saveCreateBuild eventID _ => .create eventID
  | .saveDepositBuild opID _ => .deposit opID
  | .saveStartBuild eventID _ => .start eventID
  | .saveReleaseBuild eventID _ => .release eventID
  | .markCreateSucceeded eventID _ _ => .create eventID
  | .markDepositSucceeded opID => .deposit opID
  | .markStartSucceeded eventID _ _ => .start eventID
  | .markReleaseSucceeded eventID _ _ => .release eventID
  | .markFailed k _ => k

/-- What a write asks of its row. -/
def change : (w : StoreWrite) → RowChange w.key
  | .saveCreateBuild _ build => .save build
  | .saveDepositBuild _ build => .save build
  | .saveStartBuild _ build => .save build
  | .saveReleaseBuild _ build => .save build
  | .markCreateSucceeded .. => .succeed
  | .markDepositSucceeded _ => .succeed
  | .markStartSucceeded .. => .succeed
  | .markReleaseSucceeded .. => .succeed
  | .markFailed _ reason => .fail reason

variable {db db' : DB}

/-- The four `Mark*Failed` are one update. -/
theorem run_markFailed (k : OpKey) (reason : Message) :
    run db (.markFailed k reason) = Service.markFailed db k reason := by
  cases k <;> rfl

/-- A row that may be saved over has not succeeded. -/
theorem not_succeeded_of_opStatus {k : OpKey} (h : db.opStatus k ≠ some .succeeded) :
    ∀ row, db.opLog k = some row → row.status ≠ .succeeded := by
  intro row hrow hst
  exact h (DB.opStatus_eq_some.mpr ⟨row, hrow, hst⟩)

/-- The rows after one row is written. -/
theorem opLog_after {k : OpKey} {row : OpRow k} {c : RowChange k}
    (hlog : db'.opLog = (db.setOp k row).opLog) (hc : c.Takes (db.opLog k) (some row)) :
    (∀ k' ≠ k, db'.opLog k' = db.opLog k') ∧ c.Takes (db.opLog k) (db'.opLog k) := by
  rw [hlog, DB.setOp_opLog]
  refine ⟨fun k' hk' => Function.update_of_ne hk' _ _, ?_⟩
  rwa [Function.update_self]

/-- A successful write changes the row it is about as it asks, and no other row. -/
theorem run_opLog {w : StoreWrite} (h : w.run db = .ok db') :
    (∀ k ≠ w.key, db'.opLog k = db.opLog k) ∧
      w.change.Takes (db.opLog w.key) (db'.opLog w.key) := by
  cases w with
  | saveCreateBuild p b =>
      obtain ⟨event, hst, -, -, -, rfl⟩ := saveCreateBuild_eq_ok h
      exact opLog_after rfl ⟨not_succeeded_of_opStatus hst, rfl⟩
  | saveDepositBuild o b =>
      obtain ⟨hnone, rfl⟩ := saveDepositBuild_eq_ok h
      refine opLog_after rfl ⟨fun row hrow => ?_, rfl⟩
      exact absurd (hnone.symm.trans hrow) (by simp)
  | saveStartBuild p b =>
      obtain ⟨event, hst, -, -, -, rfl⟩ := saveStartBuild_eq_ok h
      exact opLog_after rfl ⟨not_succeeded_of_opStatus hst, rfl⟩
  | saveReleaseBuild p b =>
      obtain ⟨event, hst, -, -, hsame⟩ := saveReleaseBuild_eq_ok h
      exact opLog_after hsame.opLog ⟨not_succeeded_of_opStatus hst, rfl⟩
  | markCreateSucceeded p eid t =>
      obtain ⟨row, event, hrow, hpending, -, -, -, -, rfl⟩ := markCreateSucceeded_eq_ok h
      exact opLog_after rfl ⟨row, hrow, hpending, rfl⟩
  | markDepositSucceeded o =>
      obtain ⟨row, hrow, hpending, rfl⟩ := markDepositSucceeded_eq_ok h
      exact opLog_after rfl ⟨row, hrow, hpending, rfl⟩
  | markStartSucceeded p hf t =>
      obtain ⟨row, event, hrow, hpending, -, -, -, rfl⟩ := markStartSucceeded_eq_ok (t := t) h
      exact opLog_after rfl ⟨row, hrow, hpending, rfl⟩
  | markReleaseSucceeded p txHash t =>
      obtain ⟨row, hrow, hpending, hlog, -, -⟩ := markReleaseSucceeded_eq_ok h
      exact opLog_after hlog ⟨row, hrow, hpending, rfl⟩
  | markFailed k reason =>
      rw [run_markFailed] at h
      obtain ⟨row, hrow, rfl⟩ := markFailed_eq_ok.mp h
      exact opLog_after rfl ⟨row, hrow, rfl⟩

/-- What a write does to an event. -/
inductive EventMove (db : DB) (id : RowId) : StoreWrite → Option EventRow → Option EventRow → Prop
  | untouched {w : StoreWrite} {o : Option EventRow} : EventMove db id w o o
  | create {p : PathID} {eid : EventID} {t : Time} {event : EventRow} (uuid_eq : p.uuid = id)
      (draft : event.status = .draft) (free : EscrowEventIdFree db id eid) :
      EventMove db id (.markCreateSucceeded p eid t) (some event)
        (some { event with escrowEventId := some eid, status := .created, conditionsMetAt := some t })
  | start {p : PathID} {hf : HostFunction} {t : Time} {event : EventRow} (uuid_eq : p.uuid = id)
      (created : event.status = .created) :
      EventMove db id (.markStartSucceeded p hf t) (some event)
        (some { event with status := .live })
  | complete {p : PathID} {txHash : TxHash} {t : Time} {event : EventRow}
      (uuid_eq : p.uuid = id) :
      EventMove db id (.markReleaseSucceeded p txHash t) (some event)
        (some { event with status := .completed })

/-- No write changes an event's organizer. -/
theorem EventMove.organizer {id : RowId} {w : StoreWrite} {o o' : Option EventRow}
    (h : EventMove db id w o o') :
    o'.map (·.organizerWalletAddress) = o.map (·.organizerWalletAddress) := by
  cases h <;> rfl

/-- An event after one event is written. -/
theorem lookup_after (db : DB) {id j : RowId} {event : EventRow} {P : Option EventRow → Prop}
    (hother : j ≠ id → P (db.events.lookup id)) (hthis : j = id → P (some event)) :
    P ((db.events.insert j event).lookup id) := by
  by_cases heq : j = id
  · subst heq
    rw [AList.lookup_insert]
    exact hthis rfl
  · rw [AList.lookup_insert_ne (Ne.symm heq)]
    exact hother heq

/-- A successful write does one of the listed things to every event. -/
theorem run_event {w : StoreWrite} (h : w.run db = .ok db') (id : RowId) :
    EventMove db id w (db.events.lookup id) (db'.events.lookup id) := by
  cases w with
  | saveCreateBuild p b =>
      obtain ⟨event, -, -, -, -, rfl⟩ := saveCreateBuild_eq_ok h
      exact .untouched
  | saveDepositBuild o b =>
      obtain ⟨-, rfl⟩ := saveDepositBuild_eq_ok h
      exact .untouched
  | saveStartBuild p b =>
      obtain ⟨event, -, -, -, -, rfl⟩ := saveStartBuild_eq_ok h
      exact .untouched
  | saveReleaseBuild p b =>
      obtain ⟨event, -, -, -, hsame⟩ := saveReleaseBuild_eq_ok h
      rw [hsame.events]
      exact .untouched
  | markCreateSucceeded p eid t =>
      obtain ⟨row, event, -, -, -, hevent, hdraft, hfree, rfl⟩ := markCreateSucceeded_eq_ok h
      refine lookup_after db (P := EventMove db id _ (db.events.lookup id))
        (fun _ => .untouched) ?_
      rintro rfl
      rw [hevent]
      exact .create rfl hdraft hfree
  | markDepositSucceeded o =>
      obtain ⟨row, -, -, rfl⟩ := markDepositSucceeded_eq_ok h
      exact .untouched
  | markStartSucceeded p hf t =>
      obtain ⟨row, event, -, -, -, hevent, hcreated, rfl⟩ := markStartSucceeded_eq_ok (t := t) h
      refine lookup_after db (P := EventMove db id _ (db.events.lookup id))
        (fun _ => .untouched) ?_
      rintro rfl
      rw [hevent]
      exact .start rfl hcreated
  | markReleaseSucceeded p txHash t =>
      obtain ⟨row, -, -, -, hevents, -⟩ := markReleaseSucceeded_eq_ok h
      rw [hevents]
      unfold completeEvent
      split
      · exact .untouched
      · rename_i event hevent
        refine lookup_after db (P := EventMove db id _ (db.events.lookup id))
          (fun _ => .untouched) ?_
        rintro rfl
        rw [hevent]
        exact .complete rfl
  | markFailed k reason =>
      rw [run_markFailed] at h
      obtain ⟨row, -, rfl⟩ := markFailed_eq_ok.mp h
      exact .untouched

/-- Only a confirmed release writes payouts. -/
theorem run_payouts {w : StoreWrite} (h : w.run db = .ok db') :
    db'.payouts = db.payouts ∨
      ∃ p txHash t row, w = .markReleaseSucceeded p txHash t ∧
        db.opLog (.release p) = some row ∧
        db'.payouts = db.payouts ++ (ReleaseBuild.winners row.build).map (payoutRow txHash) := by
  cases w with
  | saveCreateBuild p b =>
      obtain ⟨event, -, -, -, -, rfl⟩ := saveCreateBuild_eq_ok h
      exact .inl rfl
  | saveDepositBuild o b =>
      obtain ⟨-, rfl⟩ := saveDepositBuild_eq_ok h
      exact .inl rfl
  | saveStartBuild p b =>
      obtain ⟨event, -, -, -, -, rfl⟩ := saveStartBuild_eq_ok h
      exact .inl rfl
  | saveReleaseBuild p b =>
      obtain ⟨event, -, -, -, hsame⟩ := saveReleaseBuild_eq_ok h
      exact .inl hsame.payouts
  | markCreateSucceeded p eid t =>
      obtain ⟨row, event, -, -, -, -, -, -, rfl⟩ := markCreateSucceeded_eq_ok h
      exact .inl rfl
  | markDepositSucceeded o =>
      obtain ⟨row, -, -, rfl⟩ := markDepositSucceeded_eq_ok h
      exact .inl rfl
  | markStartSucceeded p hf t =>
      obtain ⟨row, event, -, -, -, -, -, rfl⟩ := markStartSucceeded_eq_ok (t := t) h
      exact .inl rfl
  | markReleaseSucceeded p txHash t =>
      obtain ⟨row, hrow, -, -, -, hpayouts⟩ := markReleaseSucceeded_eq_ok h
      exact .inr ⟨p, txHash, t, row, rfl, hrow, hpayouts⟩
  | markFailed k reason =>
      rw [run_markFailed] at h
      obtain ⟨row, -, rfl⟩ := markFailed_eq_ok.mp h
      exact .inl rfl

/-- No write of the service changes the judges. -/
theorem run_judges {w : StoreWrite} (h : w.run db = .ok db') : db'.judges = db.judges := by
  cases w with
  | saveCreateBuild p b =>
      obtain ⟨event, -, -, -, -, rfl⟩ := saveCreateBuild_eq_ok h
      rfl
  | saveDepositBuild o b =>
      obtain ⟨-, rfl⟩ := saveDepositBuild_eq_ok h
      rfl
  | saveStartBuild p b =>
      obtain ⟨event, -, -, -, -, rfl⟩ := saveStartBuild_eq_ok h
      rfl
  | saveReleaseBuild p b =>
      obtain ⟨event, -, -, -, hsame⟩ := saveReleaseBuild_eq_ok h
      exact hsame.judges
  | markCreateSucceeded p eid t =>
      obtain ⟨row, event, -, -, -, -, -, -, rfl⟩ := markCreateSucceeded_eq_ok h
      rfl
  | markDepositSucceeded o =>
      obtain ⟨row, -, -, rfl⟩ := markDepositSucceeded_eq_ok h
      rfl
  | markStartSucceeded p hf t =>
      obtain ⟨row, event, -, -, -, -, -, rfl⟩ := markStartSucceeded_eq_ok (t := t) h
      rfl
  | markReleaseSucceeded p txHash t => exact markReleaseSucceeded_judges h
  | markFailed k reason =>
      rw [run_markFailed] at h
      obtain ⟨row, -, rfl⟩ := markFailed_eq_ok.mp h
      rfl

end StoreWrite

end Service
