/-
# The tables are never ahead of the chain

The organizer lanes and the status of an event, seen next to the contract.  An event has an
`escrowEventId` only after the `create_event` of its create row was confirmed, is `LIVE` or
`JUDGING` only after the `set_event_in_progress` of its start row was, and `COMPLETED` only
after a `release_reward` was.  The invariant `Mirror` adds what the reads of the log know
about the events they were about; each confirmation keeps it because it names the build it
confirms.
-/
import Astrea.ServiceRun

open Interleave

namespace Service

variable {own : Address} {deps : Deps} {chain : Escrow.State} {clock : Time}
  {tr : List (ServiceTransition own)} {c : ServiceConfig}

/-! ## What stands behind an event -/

/-- The event has this id on the chain. -/
def OnEvent (w : World) (id : RowId) (eid : EventID) : Prop :=
  ∃ ev, w.db.events.lookup id = some ev ∧ ev.escrowEventId = some eid

/-- A confirmed transaction carries the `create_event` that a create row of the event
stores. -/
def CreatedOnChain (w : World) (id : RowId) (eid : EventID) : Prop :=
  ∃ p row tx admin judge resolver token reward, PathID.uuid p = id ∧
    w.db.opLog (.create p) = some row ∧ CreateBuild.escrowEventID row.build = eid ∧
    CreateBuild.hostFunctionXDR row.build =
      createEventHostFunction admin judge resolver token reward eid ∧
    w.Confirmed tx ∧ tx.hostFunction = some (CreateBuild.hostFunctionXDR row.build)

/-- A confirmed transaction carries the `set_event_in_progress` that a start row of the
event stores, with the row's judging deadline. -/
def StartedOnChain (w : World) (id : RowId) (eid : EventID) (judgingDeadline : Int64) : Prop :=
  ∃ p row tx admin, PathID.uuid p = id ∧ w.db.opLog (.start p) = some row ∧
    StartBuild.judgingDeadline row.build = judgingDeadline ∧
    StartBuild.hostFunctionXDR row.build =
      setEventInProgressHostFunction admin eid judgingDeadline.toUInt64 ∧
    w.Confirmed tx ∧ tx.hostFunction = some (StartBuild.hostFunctionXDR row.build)

/-- A confirmed transaction carries a `release_reward` of the event. -/
def ReleasedOnChain (w : World) (eid : EventID) : Prop :=
  ∃ tx judge winners, w.Confirmed tx ∧
    tx.hostFunction = some (.invokeEscrow (.releaseReward judge eid winners))

/-- The tables and the log keep to what is on the chain. -/
structure Mirror (w : World) (log : Log) : Prop where
  draft : ∀ id ev, w.db.events.lookup id = some ev →
    (ev.escrowEventId = none ↔ ev.status = .draft)
  loadedForStart : ∀ t p ev eid, (t, ⟨.loadEventForStart p, .ok ev⟩) ∈ log →
    ev.escrowEventID = some eid → OnEvent w p.uuid eid
  loadedForRelease : ∀ t p ev eid, (t, ⟨.loadEventForRelease p, .ok ev⟩) ∈ log →
    ev.escrowEventID = some eid → OnEvent w p.uuid eid
  created : ∀ id eid, OnEvent w id eid → CreatedOnChain w id eid
  live : ∀ id ev, w.db.events.lookup id = some ev → ev.status = .live ∨ ev.status = .judging →
    ∃ eid judgingDeadline, ev.escrowEventId = some eid ∧ StartedOnChain w id eid judgingDeadline
  completed : ∀ id ev, w.db.events.lookup id = some ev → ev.status = .completed →
    ∃ eid, ev.escrowEventId = some eid ∧ ReleasedOnChain w eid

/-! ## What a write of an event keeps -/

section Writes

variable {w : World} {log : Log} {db : DB} {t : ℕ} {x : StoreWrite}

/-- What a write made a stored event from. -/
theorem StoreWrite.event_before (hrun : x.run w.db = .ok db) {id : RowId} {ev : EventRow}
    (hev : db.events.lookup id = some ev) :
    ∃ o, w.db.events.lookup id = o ∧ EventMove w.db id x o (some ev) :=
  ⟨_, rfl, hev ▸ StoreWrite.run_event hrun id⟩

/-- An event that a page leaves behind came from one move. -/
theorem WebEvent.event_before {e : WebEvent} (hrun : e.run w.db = some db) {id : RowId}
    {ev : EventRow} (hev : db.events.lookup id = some ev) :
    ∃ o, w.db.events.lookup id = o ∧ WebMove o (some ev) :=
  ⟨_, rfl, hev ▸ WebEvent.run_event hrun id⟩

/-- The id of an event never changes once it is set. -/
theorem StoreWrite.keeps_onEvent (hm : Mirror w log) (hrun : x.run w.db = .ok db) {id : RowId}
    {eid : EventID} (h : OnEvent w id eid) : OnEvent { w with db := db } id eid := by
  obtain ⟨ev, hev, heid⟩ := h
  have hmove := StoreWrite.run_event hrun id
  rw [hev] at hmove
  show ∃ ev, db.events.lookup id = some ev ∧ _
  generalize db.events.lookup id = o at hmove
  cases hmove with
  | untouched => exact ⟨ev, rfl, heid⟩
  | create uuid_eq draft free =>
      exact nomatch heid.symm.trans ((hm.draft id ev hev).mpr draft)
  | start uuid_eq created => exact ⟨_, rfl, heid⟩
  | complete uuid_eq => exact ⟨_, rfl, heid⟩

/-- The create row behind an event that is on the chain keeps its build. -/
theorem CreatedOnChain.wrote (hrun : x.run w.db = .ok db) {id : RowId}
    {eid : EventID} (hon : OnEvent w id eid) (h : CreatedOnChain w id eid) :
    CreatedOnChain { w with db := db } id eid := by
  obtain ⟨p, row, tx, admin, judge, resolver, token, reward, rfl, hrow, heid, hbuild, hc, hhf⟩ := h
  rcases StoreWrite.run_build hrun (.create p) with ⟨b, rfl, -⟩ | ⟨-, hsame⟩
  · obtain ⟨ev, -, hev, -, hnone, -⟩ := saveCreateBuild_eq_ok hrun
    obtain ⟨ev', hev', heid'⟩ := hon
    obtain rfl := Option.some_inj.mp (hev.symm.trans hev')
    exact nomatch hnone.symm.trans heid'
  · obtain ⟨row', hrow', hbuild'⟩ := hsame.row hrow
    exact ⟨p, row', tx, admin, judge, resolver, token, reward, rfl, hrow', by rw [hbuild', heid],
      by rw [hbuild', hbuild], hc, by rw [hbuild', hhf]⟩

/-- The start row behind an event that has left `CREATED` keeps its build. -/
theorem StartedOnChain.wrote (hrun : x.run w.db = .ok db) {id : RowId} {eid : EventID}
    {d : Int64} {ev : EventRow} (hev : w.db.events.lookup id = some ev) (hst : ev.status ≠ .created)
    (h : StartedOnChain w id eid d) : StartedOnChain { w with db := db } id eid d := by
  obtain ⟨p, row, tx, admin, rfl, hrow, hd, hbuild, hc, hhf⟩ := h
  rcases StoreWrite.run_build hrun (.start p) with ⟨b, rfl, -⟩ | ⟨-, hsame⟩
  · obtain ⟨ev', -, hev', hcreated, -⟩ := saveStartBuild_eq_ok hrun
    obtain rfl := Option.some_inj.mp (hev.symm.trans hev')
    exact absurd hcreated hst
  · obtain ⟨row', hrow', hbuild'⟩ := hsame.row hrow
    exact ⟨p, row', tx, admin, rfl, hrow', by rw [hbuild', hd], by rw [hbuild', hbuild], hc,
      by rw [hbuild', hhf]⟩

/-- A confirmed creation is of the row's own build: no other build has its event id. -/
theorem createdOnChain_of_mark (hj : Justified Permitted log) (hcons : Consistent w log)
    {p : PathID} {eid : EventID} {time : Time}
    (hg : Grounds (historyOf t log) (.markCreateSucceeded p eid time))
    (hrun : (StoreWrite.markCreateSucceeded p eid time).run w.db = .ok db) :
    CreatedOnChain { w with db := db } p.uuid eid := by
  obtain ⟨build, hash, hreport, rfl⟩ := hg
  obtain ⟨hconfirmed, hhf⟩ := hreport.confirmed hcons
  obtain ⟨t₁, hsaved⟩ := hreport.saved hcons
  obtain ⟨row, ev, hrow, -, heid, -, -, -, rfl⟩ := markCreateSucceeded_eq_ok hrun
  obtain ⟨t₂, hlast⟩ := hcons.row _ row hrow
  obtain ⟨-, hbuild⟩ := saved_create_unique hj hcons hlast.mem hsaved heid
  obtain ⟨-, admin, judge, resolver, token, reward, hform⟩ := saved_create hj hsaved
  refine ⟨p, { row with status := .succeeded }, hash, admin, judge, resolver, token, reward, rfl,
    Function.update_self _ _ _, heid, ?_, hconfirmed, ?_⟩
  · rw [hbuild]
    exact hform
  · rw [hbuild]
    exact hhf

/-- A confirmed go-live is of the row's own build, which starts the event under its id. -/
theorem startedOnChain_of_mark (hj : Justified Permitted log) (hcons : Consistent w log)
    (hm : Mirror w log) {p : PathID} {hf : HostFunction} {time : Time} {ev : EventRow}
    (hg : Grounds (historyOf t log) (.markStartSucceeded p hf time))
    (hrun : (StoreWrite.markStartSucceeded p hf time).run w.db = .ok db)
    (hev : w.db.events.lookup p.uuid = some ev) :
    ∃ eid d, ev.escrowEventId = some eid ∧ StartedOnChain { w with db := db } p.uuid eid d := by
  obtain ⟨build, hash, hreport, rfl⟩ := hg
  obtain ⟨hconfirmed, hhf⟩ := hreport.confirmed hcons
  obtain ⟨row, ev', hrow, -, hsame, -, -, rfl⟩ := markStartSucceeded_eq_ok (t := time) hrun
  obtain ⟨t₂, hlast⟩ := hcons.row _ row hrow
  obtain ⟨loaded, eid, hloaded, heid, hform⟩ := saved_start hj hlast.mem
  obtain ⟨ev'', hev'', heid''⟩ := hm.loadedForStart _ p loaded eid hloaded heid
  obtain rfl := Option.some_inj.mp (hev.symm.trans hev'')
  refine ⟨eid, _, heid'', p, { row with status := .succeeded }, hash, _, rfl,
    Function.update_self _ _ _, rfl, hform, hconfirmed, ?_⟩
  rw [hsame]
  exact hhf

/-- A confirmed release pays out the event under its id. -/
theorem releasedOnChain_of_mark (hj : Justified Permitted log) (hcons : Consistent w log)
    (hm : Mirror w log) {p : PathID} {hash : TxHash} {time : Time} {ev : EventRow}
    (hg : Grounds (historyOf t log) (.markReleaseSucceeded p hash time))
    (hev : w.db.events.lookup p.uuid = some ev) :
    ∃ eid, ev.escrowEventId = some eid ∧ ReleasedOnChain w eid := by
  obtain ⟨build, hreport⟩ := hg
  obtain ⟨hconfirmed, hhf⟩ := hreport.confirmed hcons
  obtain ⟨t₁, hsaved⟩ := hreport.saved hcons
  obtain ⟨loaded, eid, judge, winners, hloaded, heid, hform⟩ := saved_release hj hsaved
  obtain ⟨ev', hev', heid'⟩ := hm.loadedForRelease _ p loaded eid hloaded heid
  obtain rfl := Option.some_inj.mp (hev.symm.trans hev')
  refine ⟨eid, heid', hash, judge, winners, hconfirmed, ?_⟩
  rw [← hform]
  exact hhf

end Writes

/-! ## The invariant -/

section Invariant

variable {w w' : World} {log : Log} {t : ℕ} {id : RowId} {eid : EventID}

/-- What stands behind an event needs the op log and the ledger only. -/
theorem CreatedOnChain.mono (h : CreatedOnChain w id eid) (hlog : w'.db.opLog = w.db.opLog)
    (hledger : ∀ e ∈ w.ledger, e ∈ w'.ledger) : CreatedOnChain w' id eid := by
  obtain ⟨p, row, tx, admin, judge, resolver, token, reward, hid, hrow, heid, hbuild, hc, hhf⟩ := h
  exact ⟨p, row, tx, admin, judge, resolver, token, reward, hid, by rwa [hlog], heid, hbuild,
    hledger _ hc, hhf⟩

/-- A start on the chain stays. -/
theorem StartedOnChain.mono {d : Int64} (h : StartedOnChain w id eid d)
    (hlog : w'.db.opLog = w.db.opLog) (hledger : ∀ e ∈ w.ledger, e ∈ w'.ledger) :
    StartedOnChain w' id eid d := by
  obtain ⟨p, row, tx, admin, hid, hrow, hd, hbuild, hc, hhf⟩ := h
  exact ⟨p, row, tx, admin, hid, by rwa [hlog], hd, hbuild, hledger _ hc, hhf⟩

/-- And so does a release. -/
theorem ReleasedOnChain.mono (h : ReleasedOnChain w eid)
    (hledger : ∀ e ∈ w.ledger, e ∈ w'.ledger) : ReleasedOnChain w' eid := by
  obtain ⟨tx, judge, winners, hc, hhf⟩ := h
  exact ⟨tx, judge, winners, hledger _ hc, hhf⟩

theorem OnEvent.of_same (h : OnEvent w id eid) (hdb : w'.db = w.db) : OnEvent w' id eid := by
  rwa [OnEvent, hdb]

/-- A step that leaves the tables keeps the invariant. -/
theorem Mirror.of_same (hm : Mirror w log) (hdb : w'.db = w.db)
    (hledger : ∀ e ∈ w.ledger, e ∈ w'.ledger) : Mirror w' log where
  draft := by
    rw [hdb]
    exact hm.draft
  loadedForStart := fun t p ev eid hmem heid => (hm.loadedForStart t p ev eid hmem heid).of_same hdb
  loadedForRelease := fun t p ev eid hmem heid =>
    (hm.loadedForRelease t p ev eid hmem heid).of_same hdb
  created := fun id eid hon =>
    (hm.created id eid (hon.of_same hdb.symm)).mono (by rw [hdb]) hledger
  live := by
    intro id ev hev hst
    rw [hdb] at hev
    obtain ⟨eid, d, heid, hstarted⟩ := hm.live id ev hev hst
    exact ⟨eid, d, heid, hstarted.mono (by rw [hdb]) hledger⟩
  completed := by
    intro id ev hev hst
    rw [hdb] at hev
    obtain ⟨eid, heid, hreleased⟩ := hm.completed id ev hev hst
    exact ⟨eid, heid, hreleased.mono hledger⟩

/-- A call in the log that reads an event knows its id. -/
theorem Mirror.cons (hm : Mirror w log) {d : Done}
    (hstart : ∀ p ev eid, d = ⟨.loadEventForStart p, .ok ev⟩ → ev.escrowEventID = some eid →
      OnEvent w p.uuid eid)
    (hrelease : ∀ p ev eid, d = ⟨.loadEventForRelease p, .ok ev⟩ → ev.escrowEventID = some eid →
      OnEvent w p.uuid eid) : Mirror w ((t, d) :: log) where
  draft := hm.draft
  loadedForStart := by
    intro t' p ev eid hmem heid
    rcases List.mem_cons.mp hmem with heq | hold
    · exact hstart p ev eid (Prod.mk.inj heq).2.symm heid
    · exact hm.loadedForStart t' p ev eid hold heid
  loadedForRelease := by
    intro t' p ev eid hmem heid
    rcases List.mem_cons.mp hmem with heq | hold
    · exact hrelease p ev eid (Prod.mk.inj heq).2.symm heid
    · exact hm.loadedForRelease t' p ev eid hold heid
  created := hm.created
  live := hm.live
  completed := hm.completed

/-- A write on its grounds keeps the invariant. -/
theorem Mirror.wrote (hj : Justified Permitted log) (hcons : Consistent w log)
    (hm : Mirror w log) {x : StoreWrite} {db : DB} (hg : Grounds (historyOf t log) x)
    (hrun : x.run w.db = .ok db) : Mirror { w with db := db } log where
  draft := by
    intro id ev hev
    obtain ⟨o, ho, hmove⟩ := StoreWrite.event_before hrun hev
    cases hmove with
    | untouched => exact hm.draft id ev ho
    | create => exact ⟨(nomatch ·), (nomatch ·)⟩
    | start uuid_eq created =>
        refine ⟨fun hnone => ?_, nofun⟩
        exact nomatch created.symm.trans ((hm.draft id _ ho).mp hnone)
    | complete uuid_eq =>
        subst uuid_eq
        -- an event is completed only after its release, so it has an id
        obtain ⟨eid, heid, -⟩ := releasedOnChain_of_mark hj hcons hm hg ho
        exact ⟨fun hnone => (nomatch hnone.symm.trans heid), nofun⟩
  loadedForStart := fun t p ev eid hmem heid =>
    StoreWrite.keeps_onEvent hm hrun (hm.loadedForStart t p ev eid hmem heid)
  loadedForRelease := fun t p ev eid hmem heid =>
    StoreWrite.keeps_onEvent hm hrun (hm.loadedForRelease t p ev eid hmem heid)
  created := by
    intro id eid hon
    obtain ⟨ev, hev, heid⟩ := hon
    obtain ⟨o, ho, hmove⟩ := StoreWrite.event_before hrun hev
    cases hmove with
    | untouched => exact (hm.created id eid ⟨ev, ho, heid⟩).wrote hrun ⟨ev, ho, heid⟩
    | create uuid_eq draft free =>
        obtain rfl := Option.some_inj.mp heid
        subst uuid_eq
        exact createdOnChain_of_mark hj hcons hg hrun
    | start uuid_eq created => exact (hm.created id eid ⟨_, ho, heid⟩).wrote hrun ⟨_, ho, heid⟩
    | complete uuid_eq => exact (hm.created id eid ⟨_, ho, heid⟩).wrote hrun ⟨_, ho, heid⟩
  live := by
    intro id ev hev hst
    obtain ⟨o, ho, hmove⟩ := StoreWrite.event_before hrun hev
    cases hmove with
    | untouched =>
        obtain ⟨eid, d, heid, hstarted⟩ := hm.live id ev ho hst
        refine ⟨eid, d, heid, hstarted.wrote hrun ho ?_⟩
        rcases hst with h | h <;> rw [h] <;> decide
    | create => rcases hst with h | h <;> exact nomatch h
    | start uuid_eq created =>
        subst uuid_eq
        obtain ⟨eid, d, heid, hstarted⟩ := startedOnChain_of_mark hj hcons hm hg hrun ho
        exact ⟨eid, d, heid, hstarted⟩
    | complete => rcases hst with h | h <;> exact nomatch h
  completed := by
    intro id ev hev hst
    obtain ⟨o, ho, hmove⟩ := StoreWrite.event_before hrun hev
    cases hmove with
    | untouched => exact hm.completed id ev ho hst
    | create => exact nomatch hst
    | start => exact nomatch hst
    | complete uuid_eq =>
        subst uuid_eq
        obtain ⟨eid, heid, hreleased⟩ := releasedOnChain_of_mark hj hcons hm hg ho
        exact ⟨eid, heid, hreleased⟩

/-- The web application keeps the id of an event. -/
theorem WebEvent.keeps_onEvent {e : WebEvent} {db : DB} (hrun : e.run w.db = some db)
    (h : OnEvent w id eid) : OnEvent { w with db := db } id eid := by
  obtain ⟨ev, hev, heid⟩ := h
  have hmove := WebEvent.run_event hrun id
  rw [hev] at hmove
  show ∃ ev, db.events.lookup id = some ev ∧ _
  generalize db.events.lookup id = o at hmove
  cases hmove with
  | untouched => exact ⟨ev, rfl, heid⟩
  | deadline => exact ⟨_, rfl, heid⟩
  | judging => exact ⟨_, rfl, heid⟩

/-- A page keeps the mirror. -/
theorem Mirror.web (hm : Mirror w log) {e : WebEvent} {db : DB} (hrun : e.run w.db = some db) :
    Mirror { w with db := db } log where
  draft := by
    intro id ev hev
    obtain ⟨o, ho, hmove⟩ := WebEvent.event_before hrun hev
    cases hmove with
    | untouched => exact hm.draft id ev ho
    | create draft offChain => exact ⟨fun _ => draft, fun _ => offChain⟩
    | deadline =>
        have hold := hm.draft id _ ho
        exact hold
    | judging live =>
        refine ⟨fun hnone => ?_, nofun⟩
        exact nomatch live.symm.trans ((hm.draft id _ ho).mp hnone)
  loadedForStart := fun t p ev eid hmem heid =>
    WebEvent.keeps_onEvent hrun (hm.loadedForStart t p ev eid hmem heid)
  loadedForRelease := fun t p ev eid hmem heid =>
    WebEvent.keeps_onEvent hrun (hm.loadedForRelease t p ev eid hmem heid)
  created := by
    rintro id eid ⟨ev, hev, heid⟩
    -- the web application gives no event an id
    have hback : OnEvent w id eid := by
      obtain ⟨o, ho, hmove⟩ := WebEvent.event_before hrun hev
      cases hmove with
      | untouched => exact ⟨ev, ho, heid⟩
      | create draft offChain => exact nomatch offChain.symm.trans heid
      | deadline => exact ⟨_, ho, heid⟩
      | judging => exact ⟨_, ho, heid⟩
    exact (hm.created id eid hback).mono (WebEvent.run_tables hrun).1 fun _ he => he
  live := by
    intro id ev hev hst
    have hlog := (WebEvent.run_tables hrun).1
    obtain ⟨o, ho, hmove⟩ := WebEvent.event_before hrun hev
    cases hmove with
    | untouched =>
        obtain ⟨eid, d, heid, hstarted⟩ := hm.live id ev ho hst
        exact ⟨eid, d, heid, hstarted.mono hlog fun _ he => he⟩
    | create draft offChain => rcases hst with h | h <;> exact nomatch draft.symm.trans h
    | deadline =>
        obtain ⟨eid, d, heid, hstarted⟩ := hm.live id _ ho hst
        exact ⟨eid, d, heid, hstarted.mono hlog fun _ he => he⟩
    | judging live =>
        obtain ⟨eid, d, heid, hstarted⟩ := hm.live id _ ho (.inl live)
        exact ⟨eid, d, heid, hstarted.mono hlog fun _ he => he⟩
  completed := by
    intro id ev hev hst
    obtain ⟨o, ho, hmove⟩ := WebEvent.event_before hrun hev
    cases hmove with
    | untouched => exact hm.completed id ev ho hst
    | create draft offChain => exact nomatch draft.symm.trans hst
    | deadline =>
        obtain ⟨eid, heid, hreleased⟩ := hm.completed id _ ho hst
        exact ⟨eid, heid, hreleased⟩
    | judging => exact nomatch hst

/-- A permitted call keeps the invariant. -/
theorem Performed.mirror {op : Op} {r : op.Res} (hp : Performed w op r w')
    (hj : Justified Permitted log) (hcons : Consistent w log)
    (hperm : Permitted (historyOf t log) op) (hm : Mirror w log) :
    Mirror w' ((t, ⟨op, r⟩) :: log) := by
  by_cases hop : op.IsWrite
  · cases hp with
    | wrote run =>
        exact (Mirror.wrote hj hcons hm hperm.2 run).cons (fun _ _ _ heq => nomatch heq)
          fun _ _ _ heq => nomatch heq
    | refused => exact hm.cons (fun _ _ _ heq => nomatch heq) fun _ _ _ heq => nomatch heq
    | _ => exact absurd hop id
  · refine (hm.of_same (hp.db hop) fun e he => hp.network.2 ▸ he).cons ?_ ?_
    · intro p ev eid heq heid
      cases heq
      cases hp with
      | loadedForStart stored =>
          obtain ⟨event, hevent, -, -, hsame⟩ := loadEventForStart_eq_ok (stored _ rfl)
          exact ⟨event, hevent, hsame.symm.trans heid⟩
    · intro p ev eid heq heid
      cases heq
      cases hp with
      | loadedForRelease stored =>
          obtain ⟨event, hevent, -, -, hsame⟩ := loadEventForRelease_eq_ok (stored _ rfl)
          exact ⟨event, hevent, hsame.symm.trans heid⟩

/-- The chain that moves on keeps the mirror. -/
theorem Moved.mirror {event : EnvEvent own} (hmove : Moved w event w') (hm : Mirror w log) :
    Mirror w' log := by
  cases hmove with
  | web run => exact hm.web run
  | confirmCall => exact hm.of_same rfl fun _ he => List.mem_cons_of_mem _ he
  | confirmOther => exact hm.of_same rfl fun _ he => List.mem_cons_of_mem _ he
  | reject => exact hm.of_same rfl fun _ he => List.mem_cons_of_mem _ he
  | call => exact hm.of_same rfl fun _ he => he
  | tokens => exact hm.of_same rfl fun _ he => he
  | tick => exact hm.of_same rfl fun _ he => he

end Invariant

theorem mirror_deployment : Mirror (deployment chain clock) [] where
  draft := fun _ _ hev => nomatch hev
  loadedForStart := fun _ _ _ _ hmem => absurd hmem List.not_mem_nil
  loadedForRelease := fun _ _ _ _ hmem => absurd hmem List.not_mem_nil
  created := fun _ _ hon => nomatch hon.choose_spec.1
  live := fun _ _ hev => nomatch hev
  completed := fun _ _ hev => nomatch hev

/-- The invariant holds after every run. -/
theorem ServiceRun.mirror (hr : ServiceRun own deps chain clock tr c) :
    Mirror c.world c.log := by
  have hboth : Consistent c.world c.log ∧ Mirror c.world c.log := by
    refine hr.invariant (I := fun w log => Consistent w log ∧ Mirror w log) (C := fun _ => True)
      (fun _ _ => trivial) ⟨consistent_deployment, mirror_deployment⟩ ?_ ?_
    · rintro c t op r w p - hj ⟨hcons, hm⟩ hperm hp
      exact ⟨hp.consistent hcons, hp.mirror hj hcons hperm hm⟩
    · rintro c event w - hj ⟨hcons, hm⟩ hmove
      exact ⟨hmove.consistent hcons, hmove.mirror hm⟩
  exact hboth.2

/-! ## Never ahead of the chain -/

/-- What the tables say has happened on the chain. -/
structure MirrorsChain (w : World) : Prop where
  created : ∀ id eid, OnEvent w id eid →
    CreatedOnChain w id eid ∧ ∃ e, w.chain.event.lookup eid = some e
  live : ∀ id ev, w.db.events.lookup id = some ev → ev.status = .live ∨ ev.status = .judging →
    ∃ eid d e, ev.escrowEventId = some eid ∧ StartedOnChain w id eid d ∧
      w.chain.event.lookup eid = some e ∧ (e.state = .inProgress ∨ e.state = .ended) ∧
      e.judgingDeadline = some d.toUInt64
  completed : ∀ id ev, w.db.events.lookup id = some ev → ev.status = .completed →
    ∃ eid e, ev.escrowEventId = some eid ∧ ReleasedOnChain w eid ∧
      w.chain.event.lookup eid = some e ∧ e.state = .ended

/-- What stands behind an event has left its mark on the contract. -/
theorem Mirror.mirrorsChain {w : World} {log : Log} (hm : Mirror w log) (hl : LedgerSound w) :
    MirrorsChain w where
  created := by
    intro id eid hon
    have hcreated := hm.created id eid hon
    refine ⟨hcreated, ?_⟩
    obtain ⟨p, row, tx, admin, judge, resolver, token, reward, -, -, -, hbuild, hc, hhf⟩ := hcreated
    exact hl.effected tx _ hc (hhf.trans (congrArg some hbuild))
  live := by
    intro id ev hev hst
    obtain ⟨eid, d, heid, hstarted⟩ := hm.live id ev hev hst
    have hstarted' := hstarted
    obtain ⟨p, row, tx, admin, -, -, -, hbuild, hc, hhf⟩ := hstarted'
    obtain ⟨e, he, hstate, hdeadline⟩ := hl.effected tx _ hc (hhf.trans (congrArg some hbuild))
    exact ⟨eid, d, e, heid, hstarted, he, hstate, hdeadline⟩
  completed := by
    intro id ev hev hst
    obtain ⟨eid, heid, hreleased⟩ := hm.completed id ev hev hst
    obtain ⟨tx, judge, winners, hc, hhf⟩ := hreleased
    obtain ⟨e, he, hstate⟩ := hl.effected tx _ hc hhf
    exact ⟨eid, e, heid, ⟨tx, judge, winners, hc, hhf⟩, he, hstate⟩

/-- A step keeps the id of an event. -/
theorem ServiceStep.keeps_onEvent {c c' : ServiceConfig} {l : ServiceLabel own}
    (hm : Mirror c.world c.log) (hs : ServiceStep own deps c l c') {id : RowId} {eid : EventID}
    (h : OnEvent c.world id eid) : OnEvent c'.world id eid := by
  cases hs with
  | spawn => exact h
  | @did t op next choice r w thread performed =>
      have hp := perform_eq_some performed
      by_cases hop : op.IsWrite
      · cases hp with
        | wrote run => exact StoreWrite.keeps_onEvent hm run h
        | refused => exact h
        | _ => exact absurd hop (fun h => h)
      · exact h.of_same (hp.db hop)
  | env moved =>
      cases environment_eq_some moved with
      | web run => exact WebEvent.keeps_onEvent run h
      | _ => exact h

/-! ## The order of the statuses -/

/-- How far an event has come. -/
def EventStatus.rank : EventStatus → ℕ
  | .draft => 1
  | .created => 2
  | .live => 3
  | .judging => 4
  | .disputed => 5
  | .cancelled => 5
  | .completed => 6

def statusOf (db : DB) (id : RowId) : Option EventStatus := (db.events.lookup id).map (·.status)

/-- The rank of an event, 0 while there is none. -/
def eventRank (db : DB) (id : RowId) : ℕ := ((statusOf db id).map (·.rank)).getD 0

theorem eventRank_of_statusOf {db : DB} {id : RowId} {st : EventStatus}
    (h : statusOf db id = some st) : eventRank db id = st.rank := by
  rw [eventRank, h]
  rfl

theorem EventStatus.rank_le (st : EventStatus) : st.rank ≤ EventStatus.completed.rank := by
  cases st <;> decide

/-- A write never takes an event back. -/
theorem StoreWrite.eventRank_le {db db' : DB} {x : StoreWrite} (hrun : x.run db = .ok db')
    (id : RowId) : eventRank db id ≤ eventRank db' id := by
  have hmove := StoreWrite.run_event hrun id
  rw [eventRank, eventRank, statusOf, statusOf]
  generalize db.events.lookup id = o at hmove
  generalize db'.events.lookup id = o' at hmove
  cases hmove with
  | untouched => exact le_refl _
  | @create p eid t event uuid_eq draft free =>
      show event.status.rank ≤ EventStatus.rank .created
      rw [draft]
      decide
  | @start p hf t event uuid_eq created =>
      show event.status.rank ≤ EventStatus.rank .live
      rw [created]
      decide
  | @complete p hash t event uuid_eq => exact event.status.rank_le

/-- No page takes an event back. -/
theorem WebEvent.eventRank_le {db db' : DB} {e : WebEvent} (hrun : e.run db = some db')
    (id : RowId) : eventRank db id ≤ eventRank db' id := by
  have hmove := WebEvent.run_event hrun id
  rw [eventRank, eventRank, statusOf, statusOf]
  generalize db.events.lookup id = o at hmove
  generalize db'.events.lookup id = o' at hmove
  cases hmove with
  | untouched => exact le_refl _
  | create => exact Nat.zero_le _
  | deadline => exact le_refl _
  | @judging event live =>
      show event.status.rank ≤ EventStatus.rank .judging
      rw [live]
      decide

/-- No step takes an event back. -/
theorem ServiceStep.eventRank_le {c c' : ServiceConfig} {l : ServiceLabel own}
    (hs : ServiceStep own deps c l c') (id : RowId) :
    eventRank c.world.db id ≤ eventRank c'.world.db id := by
  cases hs with
  | spawn => exact le_refl _
  | @did t op next choice r w thread performed =>
      have hp := perform_eq_some performed
      by_cases hop : op.IsWrite
      · cases hp with
        | wrote run => exact StoreWrite.eventRank_le run id
        | refused => exact le_refl _
        | _ => exact absurd hop (fun h => h)
      · exact le_of_eq (by rw [← hp.db hop]; rfl)
  | env moved =>
      cases environment_eq_some moved with
      | web run => exact WebEvent.eventRank_le run id
      | _ => exact le_refl _

/-- The step takes the event from one status to another. -/
def takes (id : RowId) (st st' : EventStatus) (t : ServiceTransition own) : Bool :=
  statusOf t.pre.world.db id = some st && statusOf t.post.world.db id = some st'

/-- A run takes an event from a status to a higher one at most once. -/
theorem ServiceRun.takes_once (hr : ServiceRun own deps chain clock tr c) (id : RowId)
    {st st' : EventStatus} (hlt : st.rank < st'.rank) : tr.countP (takes id st st') ≤ 1 := by
  refine hr.crosses_once (fun c => eventRank c.world.db id) st.rank
    (fun _ _ _ hs => ServiceStep.eventRank_le hs id) ?_
  intro s l s' _ htakes
  simp only [takes, Bool.and_eq_true, decide_eq_true_eq] at htakes
  rw [eventRank_of_statusOf htakes.1, eventRank_of_statusOf htakes.2]
  exact ⟨le_refl _, hlt⟩

/-- The tables are never ahead of the chain, the id of an event never changes, and an event
is created and goes live at most once. -/
theorem mirror_never_ahead (hr : ServiceRun own deps chain clock tr c) :
    MirrorsChain c.world ∧
      (∀ t ∈ tr, ∀ id eid, OnEvent t.pre.world id eid → OnEvent t.post.world id eid) ∧
      ∀ id, tr.countP (takes id .draft .created) ≤ 1 ∧
        tr.countP (takes id .created .live) ≤ 1 := by
  refine ⟨hr.mirror.mirrorsChain hr.consistent.ledger, ?_, fun id =>
    ⟨hr.takes_once id (by decide), hr.takes_once id (by decide)⟩⟩
  intro t ht id eid hon
  obtain ⟨tr', -, hrun, hstep⟩ := run_to_pre hr ht
  exact ServiceStep.keeps_onEvent (ServiceRun.mirror hrun) hstep hon

theorem mirror_never_ahead_live :
    statusOf Sample.live.2.world.db Sample.eventText = some .live ∧
      MirrorsChain Sample.live.2.world :=
  ⟨by decide +kernel, (mirror_never_ahead Sample.run_live).1⟩

end Service
