/-
# What a recorded release records

`MarkReleaseSucceeded` takes whatever build the pending row holds, so a rebuild that was
saved while a submit was polling is recorded in the place of the build that was paid
(`recorded_other_split`).  As long as every release that is recorded finds the build its
submit had verified as the last one saved for the event, the payouts under the transaction's
hash and the winners of its prizes are those of the build the chain has paid, then and ever
after (`release_mirrored`).

The invariant `ReleasesMirrored` ties a recorded release to what makes it final: the event is
completed, so no build is saved for it any more and its row is never pending again.
-/
import Astrea.MirrorChain
import Astrea.FailureRecord
import Astrea.StatusWriters

open Interleave

namespace Service

variable {own : Address} {deps : Deps} {chain : Escrow.State} {clock : Time}
  {tr : List (ServiceTransition own)} {c : ServiceConfig}

/-! ## Saves and records of an event -/

/-- A release build was saved for the event, under some spelling of its id. -/
def SavesRelease (id : RowId) (d : Done) : Prop :=
  ∃ p build, PathID.uuid p = id ∧ d = ⟨.write (.saveReleaseBuild p build), .ok ()⟩

/-- The last release build saved for the event of `p` was `build`, under `p`. -/
def LastRelease (log : Log) (p : PathID) (build : ReleaseBuild) : Prop :=
  ∃ t, Newest (SavesRelease p.uuid) log t ⟨.write (.saveReleaseBuild p build), .ok ()⟩

/-- Request `n` recorded the release of `p` as paid by this transaction. -/
def Records (log : Log) (n : ℕ) (p : PathID) (hash : TxHash) : Prop :=
  ∃ time, (n, ⟨.write (.markReleaseSucceeded p hash time), .ok ()⟩) ∈ log

/-- The release build a call has saved. -/
def savedRelease : Done → Option (PathID × ReleaseBuild)
  | ⟨.write (.saveReleaseBuild p build), .ok ()⟩ => some (p, build)
  | _ => none

/-- Both paths name one event: `uuid`s are compared without their case. -/
def PathID.sameEvent (p q : PathID) : Bool :=
  p.text.toList.map Char.toLower = q.text.toList.map Char.toLower

/-- The last release build saved for the event of `p`, with its path. -/
def lastRelease (p : PathID) (log : Log) : Option (PathID × ReleaseBuild) :=
  log.findSome? fun e => (savedRelease e.2).filter fun x => x.1.sameEvent p

/-- The build a call has read from the release row of `p`. -/
def readRelease (p : PathID) : Done → Option ReleaseBuild
  | ⟨.loadOp (.release p'), .ok op⟩ => if p' = p then some (StoredOp.build op) else none
  | _ => none

/-- The request and the path of a step that records a release. -/
def recordOf : ServiceLabel own → Option (ℕ × PathID)
  | .did n ⟨.write (.markReleaseSucceeded p _ _), .ok ()⟩ => some (n, p)
  | _ => none

/-- When the step records a release, the last build saved for the event is the one its request
has read. -/
def RecordsLast (t : ServiceTransition own) : Prop :=
  ∀ r ∈ recordOf t.label, ∀ d ∈ historyOf r.1 t.pre.log, ∀ build ∈ readRelease r.2 d,
    lastRelease r.2 t.pre.log = some (r.2, build)

instance (t : ServiceTransition own) : Decidable (RecordsLast t) :=
  inferInstanceAs (Decidable (∀ r ∈ recordOf t.label, _))

section Log

variable {log : Log} {t n : ℕ} {d : Done} {p : PathID} {build : ReleaseBuild} {hash : TxHash}

/-- There is one last build of an event. -/
theorem LastRelease.unique {p' : PathID} {build' : ReleaseBuild} (h : LastRelease log p build)
    (h' : LastRelease log p' build') (huuid : p.uuid = p'.uuid) : p = p' ∧ build = build' := by
  obtain ⟨t, ht⟩ := h
  obtain ⟨t', ht'⟩ := h'
  rw [huuid] at ht
  have heq := Op.write.inj (Interleave.Done.mk.inj (ht.unique ht').2).1
  exact StoreWrite.saveReleaseBuild.inj heq

/-- The last build of the event is the last one of its row. -/
theorem LastRelease.lastSaved (h : LastRelease log p build) :
    LastSaved log (.release p) build := by
  obtain ⟨t, recent, past, rfl, -, hrecent⟩ := h
  refine ⟨t, recent, past, rfl, ⟨build, rfl⟩, fun e he => ?_⟩
  rintro ⟨b, heq⟩
  exact hrecent e he ⟨p, b, rfl, heq⟩

/-- It stays the last while no other is saved. -/
theorem LastRelease.cons (h : LastRelease log p build) (hd : ¬ SavesRelease p.uuid d) :
    LastRelease ((t, d) :: log) p build := by
  obtain ⟨t', ht'⟩ := h
  exact ⟨t', ht'.cons hd⟩

/-- And it was the last before. -/
theorem LastRelease.of_cons_not (h : LastRelease ((t, d) :: log) p build)
    (hd : ¬ SavesRelease p.uuid d) : LastRelease log p build := by
  obtain ⟨t', ht'⟩ := h
  exact ⟨t', ht'.of_cons_not hd⟩

/-- The release that an answered call saves. -/
theorem savedRelease_eq_some {x : PathID × ReleaseBuild} :
    savedRelease d = some x ↔ d = ⟨.write (.saveReleaseBuild x.1 x.2), .ok ()⟩ := by
  constructor
  · intro h
    unfold savedRelease at h
    split at h
    · obtain rfl := Option.some_inj.mp h
      rfl
    · exact nomatch h
  · rintro rfl
    rfl

theorem sameEvent_iff {q : PathID} : p.sameEvent q ↔ p.uuid = q.uuid := by
  rw [PathID.sameEvent, decide_eq_true_iff, ← String.toList_map, ← String.toList_map,
    String.toList_inj]
  rfl

/-- What `lastRelease` finds is the newest of its kind. -/
theorem LastRelease.of_lastRelease (h : lastRelease p log = some (p, build)) :
    LastRelease log p build := by
  induction log with
  | nil => exact nomatch h
  | cons e log ih =>
      obtain ⟨t, d⟩ := e
      rw [lastRelease, List.findSome?_cons] at h
      split at h
      · rename_i x hx
        obtain rfl := Option.some_inj.mp h
        have hsaved := savedRelease_eq_some.mp (Option.filter_eq_some_iff.mp hx).1
        subst hsaved
        exact ⟨t, newest_cons_self ⟨p, build, rfl, rfl⟩⟩
      · rename_i hnone
        refine LastRelease.cons (ih h) ?_
        rintro ⟨q, b, huuid, rfl⟩
        simp [savedRelease, sameEvent_iff, huuid] at hnone

/-- The guard of a step that records a release, for the build that was reported. -/
theorem RecordsLast.last {pre post : ServiceConfig} {time : Time}
    (h : RecordsLast (⟨pre, .did n ⟨.write (.markReleaseSucceeded p hash time), .ok ()⟩, post⟩ :
      ServiceTransition own))
    (hreport : ReportedSuccess (historyOf n pre.log) (.release p) build hash) :
    LastRelease pre.log p build := by
  obtain ⟨response, ⟨tx, signatures, hv, -⟩, -⟩ := hreport
  exact .of_lastRelease (h (n, p) rfl _ hv.loaded build (by simp [readRelease]))

theorem Records.cons (h : Records log n p hash) : Records ((t, d) :: log) n p hash := by
  obtain ⟨time, hmem⟩ := h
  exact ⟨time, List.mem_cons_of_mem _ hmem⟩

theorem ReportedSuccess.cons {k : OpKey} {b : k.Build}
    (h : ReportedSuccess (historyOf n log) k b hash) :
    ReportedSuccess (historyOf n ((t, d) :: log)) k b hash :=
  h.mono fun _ hd' => mem_historyOf.mpr (List.mem_cons_of_mem _ (mem_historyOf.mp hd'))

end Log

/-! ## What a write does to an assigned prize -/

/-- A prize keeps its event, and its winner unless a build is saved for that event. -/
theorem StoreWrite.run_winner {db db' : DB} {x : StoreWrite} (h : x.run db = .ok db') {id : RowId}
    {prize : PrizeRow} (hprize : db.prizes.lookup id = some prize) :
    ∃ prize', db'.prizes.lookup id = some prize' ∧ prize'.eventId = prize.eventId ∧
      (prize'.winnerTeamId = prize.winnerTeamId ∨
        ∃ p b, x = .saveReleaseBuild p b ∧ p.uuid = prize.eventId) := by
  have hmove := x.run_prize h id
  rw [hprize] at hmove
  generalize db'.prizes.lookup id = o at hmove
  cases hmove with
  | untouched => exact ⟨prize, rfl, rfl, .inl rfl⟩
  | assign named of_event team_eq => exact ⟨_, rfl, rfl, .inr ⟨_, _, rfl, of_event.symm⟩⟩
  | release row_eq named => exact ⟨_, rfl, rfl, .inl rfl⟩

/-- A saved build assigns the prizes it names, which are of its event. -/
theorem saveReleaseBuild_assigns {db db' : DB} {p : PathID} {b : ReleaseBuild}
    (h : (StoreWrite.saveReleaseBuild p b).run db = .ok db') {id team : RowId}
    (hteam : teamOf b.winners id = some team) : ∃ prize, db'.prizes.lookup id = some prize ∧
      prize.eventId = p.uuid ∧ prize.winnerTeamId = some team := by
  have hmove := StoreWrite.run_prize h id
  generalize db.prizes.lookup id = o at hmove
  generalize db'.prizes.lookup id = o' at hmove
  cases hmove with
  | untouched save mark =>
      obtain ⟨l, hl, -⟩ := Option.map_eq_some_iff.mp hteam
      have hid : l.prizeID = id := by simpa using List.find?_some hl
      exact absurd hid (save p b rfl l (List.mem_of_find?_eq_some hl))
  | assign named of_event team_eq =>
      obtain rfl := Option.some_inj.mp (team_eq.symm.trans hteam)
      exact ⟨_, rfl, of_event, rfl⟩

/-! ## The invariant -/

/-- A recorded release is final: its build stays the last of an event that is completed, its
row is not pending, and the payouts under its hash are the build's. -/
structure RecordedAs (w : World) (log : Log) (n : ℕ) (p : PathID) (hash : TxHash)
    (build : ReleaseBuild) : Prop where
  reported : ReportedSuccess (historyOf n log) (.release p) build hash
  last : LastRelease log p build
  closed : EventStatus.completed.rank ≤ eventRank w.db p.uuid
  done : w.db.opStatus (.release p) ≠ some .pending
  payouts : (w.db.payouts.filter fun row => row.txHash = hash)
    = build.winners.map (payoutRow hash)

/-- The last builds are assigned, every payout and every succeeded row was recorded, and every
recorded release is final. -/
structure ReleasesMirrored (w : World) (log : Log) : Prop where
  assigned : ∀ p build, LastRelease log p build → ∀ id team,
    teamOf build.winners id = some team → ∃ prize, w.db.prizes.lookup id = some prize ∧
      prize.eventId = p.uuid ∧ prize.winnerTeamId = some team
  paid : ∀ row ∈ w.db.payouts, ∃ n p, Records log n p row.txHash
  succeeded : ∀ p, w.db.opStatus (.release p) = some .succeeded → ∃ n hash, Records log n p hash
  recorded : ∀ n p hash, Records log n p hash → ∃ build, RecordedAs w log n p hash build

theorem releasesMirrored_deployment : ReleasesMirrored (deployment chain clock) [] where
  assigned := fun _ _ ⟨_, h⟩ => absurd h.mem List.not_mem_nil
  paid := fun _ h => absurd h List.not_mem_nil
  succeeded := fun _ h => nomatch h
  recorded := fun _ _ _ ⟨_, h⟩ => absurd h List.not_mem_nil

section Invariant

variable {w : World} {log : Log} {t : ℕ} {d : Done}

/-- What a change of the tables that saves and records no release leaves as it is. -/
structure LeavesReleases (db db' : DB) : Prop where
  prizes : ∀ id prize, db.prizes.lookup id = some prize → ∃ prize',
    db'.prizes.lookup id = some prize' ∧ prize'.eventId = prize.eventId ∧
      prize'.winnerTeamId = prize.winnerTeamId
  payouts : db'.payouts = db.payouts
  rank : ∀ id, eventRank db id ≤ eventRank db' id
  status : ∀ p st, st ≠ .failed → db'.opStatus (.release p) = some st →
    db.opStatus (.release p) = some st

theorem LeavesReleases.refl (db : DB) : LeavesReleases db db :=
  ⟨fun _ prize hprize => ⟨prize, hprize, rfl, rfl⟩, rfl, fun _ => le_refl _, fun _ _ _ h => h⟩

/-- What leaves the releases alone keeps them mirrored. -/
theorem ReleasesMirrored.of_leaves {w' : World} (h : ReleasesMirrored w log)
    (hleaves : LeavesReleases w.db w'.db) : ReleasesMirrored w' log where
  assigned := by
    intro p build hlast id team hteam
    obtain ⟨prize, hprize, hevent, hwinner⟩ := h.assigned p build hlast id team hteam
    obtain ⟨prize', hprize', hevent', hwinner'⟩ := hleaves.prizes id prize hprize
    exact ⟨prize', hprize', hevent'.trans hevent, hwinner'.trans hwinner⟩
  paid := by
    rw [hleaves.payouts]
    exact h.paid
  succeeded := fun p hst => h.succeeded p (hleaves.status p _ (by decide) hst)
  recorded := by
    intro n p hash hrec
    obtain ⟨build, hr⟩ := h.recorded n p hash hrec
    exact ⟨build, hr.reported, hr.last, le_trans hr.closed (hleaves.rank _),
      fun hpending => hr.done (hleaves.status p _ (by decide) hpending),
      by rw [hleaves.payouts]; exact hr.payouts⟩

/-- A call that saves and records no release. -/
theorem ReleasesMirrored.cons (h : ReleasesMirrored w log)
    (hsave : ∀ id, ¬ SavesRelease id d)
    (hmark : ∀ p hash time, d ≠ ⟨.write (.markReleaseSucceeded p hash time), .ok ()⟩) :
    ReleasesMirrored w ((t, d) :: log) where
  assigned := fun p build hlast => h.assigned p build (hlast.of_cons_not (hsave _))
  paid := by
    intro row hrow
    obtain ⟨n, p, hrec⟩ := h.paid row hrow
    exact ⟨n, p, hrec.cons⟩
  succeeded := by
    intro p hst
    obtain ⟨n, hash, hrec⟩ := h.succeeded p hst
    exact ⟨n, hash, hrec.cons⟩
  recorded := by
    rintro n p hash ⟨time, hmem⟩
    rcases List.mem_cons.mp hmem with heq | hold
    · cases heq
      exact absurd rfl (hmark p hash time)
    · obtain ⟨build, hr⟩ := h.recorded n p hash ⟨time, hold⟩
      exact ⟨build, hr.reported.cons, hr.last.cons (hsave _), hr.closed, hr.done, hr.payouts⟩

/-- The web application leaves the releases. -/
theorem WebEvent.leavesReleases {e : WebEvent} {db db' : DB} (h : e.run db = some db') :
    LeavesReleases db db' := by
  obtain ⟨hlog, hpayouts, hprizes⟩ := WebEvent.run_tables h
  refine ⟨fun id prize hprize => ⟨prize, hprizes id prize hprize, rfl, rfl⟩, hpayouts,
    WebEvent.eventRank_le h, fun p st _ hst => ?_⟩
  rwa [DB.opStatus, hlog] at hst

/-- So do the writes that neither save a release build nor record a release. -/
theorem StoreWrite.leavesReleases {x : StoreWrite} {db db' : DB} (h : x.run db = .ok db')
    (hsave : ∀ p b, x ≠ .saveReleaseBuild p b)
    (hmark : ∀ p hash time, x ≠ .markReleaseSucceeded p hash time) : LeavesReleases db db' where
  prizes := by
    intro id prize hprize
    obtain ⟨prize', hprize', hevent, hsame | ⟨p, b, heq, -⟩⟩ := x.run_winner h hprize
    · exact ⟨prize', hprize', hevent, hsame⟩
    · exact absurd heq (hsave p b)
  payouts := by
    rcases x.run_payouts h with hsame | ⟨p, hash, time, row, heq, -, -⟩
    · exact hsame
    · exact absurd heq (hmark p hash time)
  rank := x.eventRank_le h
  status := by
    intro p st hst hnew
    obtain ⟨hother, htakes⟩ := StoreWrite.run_opLog h
    by_cases hkey : OpKey.release p = x.key
    · cases x with
      | saveReleaseBuild p' b => exact absurd rfl (hsave p' b)
      | markReleaseSucceeded p' hash time => exact absurd rfl (hmark p' hash time)
      | markFailed k reason =>
          obtain rfl : .release p = k := hkey
          obtain ⟨row, -, hrow'⟩ := htakes
          obtain ⟨row', hrow'', hst'⟩ := DB.opStatus_eq_some.mp hnew
          rw [← Option.some_inj.mp (hrow'.symm.trans hrow'')] at hst'
          exact absurd hst'.symm hst
      | _ => exact nomatch hkey
    · rwa [DB.opStatus, hother _ hkey] at hnew

/-- A write leaves the op log rows of other operations. -/
theorem StoreWrite.run_opStatus {x : StoreWrite} {db db' : DB} (h : x.run db = .ok db')
    {k : OpKey} (hk : k ≠ x.key) : db'.opStatus k = db.opStatus k := by
  rw [DB.opStatus, DB.opStatus, (StoreWrite.run_opLog h).1 k hk]

/-- The payouts of one release have one hash. -/
theorem filter_payoutRow (hash hash' : TxHash) (ws : List ReleaseWinner) :
    ((ws.map (payoutRow hash)).filter fun row => row.txHash = hash')
      = if hash = hash' then ws.map (payoutRow hash) else [] := by
  by_cases heq : hash = hash'
  · rw [if_pos heq, List.filter_eq_self]
    intro row hrow
    obtain ⟨w, -, rfl⟩ := List.mem_map.mp hrow
    exact decide_eq_true heq
  · rw [if_neg heq, List.filter_eq_nil_iff]
    intro row hrow hsame
    obtain ⟨w, -, rfl⟩ := List.mem_map.mp hrow
    exact heq (of_decide_eq_true hsame)

/-- A completed event is not judged. -/
theorem statusOf_ne_judging {db : DB} {id : RowId}
    (h : EventStatus.completed.rank ≤ eventRank db id) : statusOf db id ≠ some .judging := by
  intro hst
  rw [eventRank_of_statusOf hst] at h
  exact absurd h (by decide)

/-- A build is saved for an event: its prizes are assigned, and the event is not one whose
release was recorded. -/
theorem ReleasesMirrored.saved (h : ReleasesMirrored w log) {p : PathID} {b : ReleaseBuild}
    {db : DB} (hrun : (StoreWrite.saveReleaseBuild p b).run w.db = .ok db) :
    ReleasesMirrored { w with db := db }
      ((t, ⟨.write (.saveReleaseBuild p b), .ok ()⟩) :: log) := by
  obtain ⟨event, hnot, hevent, hjudging, hsame⟩ := saveReleaseBuild_eq_ok hrun
  -- a save needs a judged event, and a recorded release has completed its own
  have hopen : ∀ {n p' hash build}, RecordedAs w log n p' hash build → p'.uuid ≠ p.uuid := by
    intro n p' hash build hr huuid
    refine statusOf_ne_judging hr.closed ?_
    rw [huuid, statusOf, hevent, Option.map_some, hjudging]
  have hother : ∀ {p' : PathID}, p'.uuid ≠ p.uuid →
      ¬ SavesRelease p'.uuid ⟨.write (.saveReleaseBuild p b), .ok ()⟩ := by
    rintro p' hne ⟨q, b', hq, heq⟩
    cases heq
    exact hne hq.symm
  have hstatus : ∀ p', p' ≠ p → db.opStatus (.release p') = w.db.opStatus (.release p') :=
    fun p' hne => StoreWrite.run_opStatus hrun fun heq => hne (OpKey.release.inj heq)
  refine ⟨?_, ?_, ?_, ?_⟩
  · intro p' b' hlast id team hteam
    by_cases huuid : p'.uuid = p.uuid
    · obtain ⟨rfl, rfl⟩ := hlast.unique ⟨t, newest_cons_self ⟨p, b, rfl, rfl⟩⟩ huuid
      exact saveReleaseBuild_assigns hrun hteam
    · obtain ⟨prize, hprize, hof, hwinner⟩ :=
        h.assigned p' b' (hlast.of_cons_not (hother huuid)) id team hteam
      obtain ⟨prize', hprize', hof', hkept | ⟨q, b'', heq, hq⟩⟩ :=
        StoreWrite.run_winner hrun hprize
      · exact ⟨prize', hprize', hof'.trans hof, hkept.trans hwinner⟩
      · cases heq
        exact absurd (hof.symm.trans hq.symm) huuid
  · intro row hrow
    have hpayouts : db.payouts = w.db.payouts := hsame.payouts
    obtain ⟨n, p', hrec⟩ := h.paid row (hpayouts ▸ hrow)
    exact ⟨n, p', hrec.cons⟩
  · intro p' hst
    by_cases hp : p' = p
    · subst hp
      obtain ⟨row, hrow, hst⟩ := DB.opStatus_eq_some.mp hst
      rw [hsame.opLog, DB.setOp_opLog, Function.update_self] at hrow
      rw [← Option.some_inj.mp hrow] at hst
      cases hst
    · obtain ⟨n, hash, hrec⟩ := h.succeeded p' ((hstatus p' hp).symm.trans hst)
      exact ⟨n, hash, hrec.cons⟩
  · rintro n p' hash ⟨time, hmem⟩
    rcases List.mem_cons.mp hmem with heq | hold
    · cases heq
    · obtain ⟨build, hr⟩ := h.recorded n p' hash ⟨time, hold⟩
      have hne := hopen hr
      refine ⟨build, hr.reported.cons, hr.last.cons (hother hne), ?_, ?_, ?_⟩
      · exact le_trans hr.closed (StoreWrite.eventRank_le hrun _)
      · rw [hstatus p' fun heq => hne (congrArg _ heq)]
        exact hr.done
      · rw [hsame.payouts]
        exact hr.payouts

/-- No two events have one id on the chain. -/
theorem Mirror.onEvent_unique (hj : Justified Permitted log) (hcons : Consistent w log)
    (hm : Mirror w log) {id id' : RowId} {eid : EventID} (h : OnEvent w id eid)
    (h' : OnEvent w id' eid) : id = id' := by
  obtain ⟨p, row, -, -, -, -, -, -, rfl, hrow, heid, -⟩ := hm.created id eid h
  obtain ⟨p', row', -, -, -, -, -, -, rfl, hrow', heid', -⟩ := hm.created id' eid h'
  obtain ⟨t, hlast⟩ := hcons.row _ row hrow
  obtain ⟨t', hlast'⟩ := hcons.row _ row' hrow'
  rw [(saved_create_unique hj hcons hlast.mem hlast'.mem (heid.trans heid'.symm)).1]

/-- A release that was reported successful pays out the event it was built for. -/
theorem ReportedSuccess.onEvent (hj : Justified Permitted log) (hcons : Consistent w log)
    (hm : Mirror w log) {n : ℕ} {p : PathID} {build : ReleaseBuild} {hash : TxHash}
    (h : ReportedSuccess (historyOf n log) (.release p) build hash) :
    ∃ judge eid winners, OnEvent w p.uuid eid ∧
      hash.hostFunction = some (.invokeEscrow (.releaseReward judge eid winners)) := by
  obtain ⟨t, hsaved⟩ := h.saved hcons
  obtain ⟨event, eid, judge, winners, hloaded, heid, hform⟩ := saved_release hj hsaved
  refine ⟨judge, eid, winners, hm.loadedForRelease t p event eid hloaded heid, ?_⟩
  rw [(h.confirmed hcons).2, ← hform]
  rfl

/-- A release whose row is pending was not recorded under this hash before. -/
theorem ReleasesMirrored.fresh (hj : Justified Permitted log) (hcons : Consistent w log)
    (hm : Mirror w log) (h : ReleasesMirrored w log) {n n' : ℕ} {p p' : PathID}
    {build : ReleaseBuild} {hash : TxHash}
    (hreport : ReportedSuccess (historyOf n log) (.release p) build hash)
    (hlast : LastRelease log p build) (hpending : w.db.opStatus (.release p) = some .pending) :
    ¬ Records log n' p' hash := by
  intro hrec
  obtain ⟨build', hr⟩ := h.recorded n' p' hash hrec
  obtain ⟨judge, eid, winners, hon, hhf⟩ := hreport.onEvent hj hcons hm
  obtain ⟨judge', eid', winners', hon', hhf'⟩ := hr.reported.onEvent hj hcons hm
  cases hhf.symm.trans hhf'
  -- one transaction releases one event
  have huuid := hm.onEvent_unique hj hcons hon hon'
  obtain ⟨rfl, -⟩ := hlast.unique hr.last huuid
  exact hr.done hpending

/-- The event of a recorded release is completed. -/
theorem completeEvent_closed {db db' : DB} {id : RowId} {event : EventRow}
    (hevent : db.events.lookup id = some event)
    (h : db'.events = (completeEvent db id).events) :
    EventStatus.completed.rank ≤ eventRank db' id := by
  have hst : statusOf db' id = some .completed := by
    rw [statusOf, h, completeEvent, hevent, DB.setEvent_events, AList.lookup_insert]
    rfl
  rw [eventRank_of_statusOf hst]

/-- A release is recorded that finds the build its request had verified: its payouts are the
only ones under its hash. -/
theorem ReleasesMirrored.marked (hj : Justified Permitted log) (hcons : Consistent w log)
    (hm : Mirror w log) (h : ReleasesMirrored w log) {p : PathID} {hash : TxHash} {time : Time}
    {db : DB} (hg : Grounds (historyOf t log) (.markReleaseSucceeded p hash time))
    (hlast : ∀ build, ReportedSuccess (historyOf t log) (.release p) build hash →
      LastRelease log p build)
    (hrun : (StoreWrite.markReleaseSucceeded p hash time).run w.db = .ok db) :
    ReleasesMirrored { w with db := db }
      ((t, ⟨.write (.markReleaseSucceeded p hash time), .ok ()⟩) :: log) := by
  obtain ⟨build, hreport⟩ := hg
  have hl := hlast build hreport
  obtain ⟨row, hrow, hpending, hlog, hevents, hpayouts⟩ := markReleaseSucceeded_eq_ok hrun
  -- the row holds the last build, which is the one the request has seen paid
  have hbuild : row.build = build := (hcons.row _ row hrow).unique hl.lastSaved
  rw [hbuild] at hpayouts
  have hpendingOp : w.db.opStatus (.release p) = some .pending :=
    DB.opStatus_eq_some.mpr ⟨row, hrow, hpending⟩
  -- no release was recorded under this hash, so no payout has it yet
  have hfresh : ∀ n p', ¬ Records log n p' hash := fun n p' =>
    h.fresh hj hcons hm hreport hl hpendingOp
  have hdone : db.opStatus (.release p) = some .succeeded := by
    rw [DB.opStatus, hlog, DB.setOp_opLog, Function.update_self]
    rfl
  have hstatus : ∀ p', p' ≠ p → db.opStatus (.release p') = w.db.opStatus (.release p') :=
    fun p' hne => StoreWrite.run_opStatus hrun fun heq => hne (OpKey.release.inj heq)
  have hnot : ∀ id, ¬ SavesRelease id ⟨.write (.markReleaseSucceeded p hash time), .ok ()⟩ := by
    rintro id ⟨q, b, -, heq⟩
    cases heq
  have hold : (w.db.payouts.filter fun row => row.txHash = hash) = [] := by
    rw [List.filter_eq_nil_iff]
    intro row' hrow' heq
    obtain ⟨n, p', hrec⟩ := h.paid row' hrow'
    rw [of_decide_eq_true heq] at hrec
    exact hfresh n p' hrec
  refine ⟨?_, ?_, ?_, ?_⟩
  · intro p' b' hlast' id team hteam
    obtain ⟨prize, hprize, hof, hwinner⟩ :=
      h.assigned p' b' (hlast'.of_cons_not (hnot _)) id team hteam
    obtain ⟨prize', hprize', hof', hkept | ⟨q, b'', heq, -⟩⟩ := StoreWrite.run_winner hrun hprize
    · exact ⟨prize', hprize', hof'.trans hof, hkept.trans hwinner⟩
    · cases heq
  · intro row' hrow'
    have hrow' : row' ∈ w.db.payouts ++ build.winners.map (payoutRow hash) := hpayouts ▸ hrow'
    rcases List.mem_append.mp hrow' with hmem | hmem
    · obtain ⟨n, p', hrec⟩ := h.paid row' hmem
      exact ⟨n, p', hrec.cons⟩
    · obtain ⟨l, -, rfl⟩ := List.mem_map.mp hmem
      exact ⟨t, p, time, List.mem_cons_self⟩
  · intro p' hst
    by_cases hp : p' = p
    · subst hp
      exact ⟨t, hash, time, List.mem_cons_self⟩
    · obtain ⟨n, hash', hrec⟩ := h.succeeded p' ((hstatus p' hp).symm.trans hst)
      exact ⟨n, hash', hrec.cons⟩
  · rintro n p' hash' ⟨time', hmem⟩
    rcases List.mem_cons.mp hmem with heq | hmem
    · cases heq
      obtain ⟨-, eid, -, ⟨event, hevent, -⟩, -⟩ := hreport.onEvent hj hcons hm
      refine ⟨build, hreport.cons, hl.cons (hnot _), completeEvent_closed hevent hevents, ?_, ?_⟩
      · rw [hdone]
        decide
      · rw [hpayouts, List.filter_append, hold, List.nil_append, filter_payoutRow, if_pos rfl]
    · obtain ⟨build', hr⟩ := h.recorded n p' hash' ⟨time', hmem⟩
      have hne : p' ≠ p := by
        rintro rfl
        exact hr.done hpendingOp
      refine ⟨build', hr.reported.cons, hr.last.cons (hnot _), ?_, ?_, ?_⟩
      · exact le_trans hr.closed (StoreWrite.eventRank_le hrun _)
      · rw [hstatus p' hne]
        exact hr.done
      · have hother : hash ≠ hash' := by
          rintro rfl
          exact hfresh n p' ⟨time', hmem⟩
        rw [hpayouts, List.filter_append, filter_payoutRow, if_neg hother, List.append_nil]
        exact hr.payouts

/-- A call keeps the invariant, if it records only the release its request had verified. -/
theorem Performed.releasesMirrored {w' : World} {op : Op} {r : op.Res} (hp : Performed w op r w')
    (hj : Justified Permitted log) (hcons : Consistent w log) (hm : Mirror w log)
    (hperm : Permitted (historyOf t log) op)
    (hlast : ∀ p hash time, (⟨op, r⟩ : Done) = ⟨.write (.markReleaseSucceeded p hash time), .ok ()⟩ →
      ∀ build, ReportedSuccess (historyOf t log) (.release p) build hash →
        LastRelease log p build)
    (h : ReleasesMirrored w log) : ReleasesMirrored w' ((t, ⟨op, r⟩) :: log) := by
  by_cases hop : op.IsWrite
  · cases hp with
    | @wrote x db run =>
        cases x with
        | saveReleaseBuild p b => exact h.saved run
        | markReleaseSucceeded p hash time =>
            exact h.marked hj hcons hm hperm.2 (hlast p hash time rfl) run
        | _ =>
            have hleft : ReleasesMirrored { w with db := db } log :=
              h.of_leaves (StoreWrite.leavesReleases run (fun _ _ => nofun) fun _ _ _ => nofun)
            refine hleft.cons ?_ ?_
            · rintro id ⟨q, b, -, heq⟩
              cases heq
            · intro p hash time heq
              cases heq
    | refused =>
        refine h.cons ?_ ?_
        · rintro id ⟨q, b, -, heq⟩
          cases heq
        · intro p hash time heq
          cases heq
    | _ => exact absurd hop id
  · refine (h.of_leaves (hp.db hop ▸ LeavesReleases.refl _)).cons ?_ ?_
    · rintro id ⟨q, b, -, heq⟩
      exact hop ((Interleave.Done.mk.inj heq).1 ▸ trivial)
    · intro p hash time heq
      exact hop ((Interleave.Done.mk.inj heq).1 ▸ trivial)

/-- Nothing outside the service touches what releases rest on. -/
theorem Moved.releasesMirrored {w' : World} {event : EnvEvent own} (hmove : Moved w event w')
    (h : ReleasesMirrored w log) : ReleasesMirrored w' log := by
  rcases hmove.db with heq | ⟨e, hrun⟩
  · exact h.of_leaves (heq ▸ LeavesReleases.refl _)
  · exact h.of_leaves (WebEvent.leavesReleases hrun)

end Invariant

/-- The invariant holds after every run that records only verified last builds. -/
theorem ServiceRun.releasesMirrored (hr : ServiceRun own deps chain clock tr c)
    (hC : ∀ t ∈ tr, RecordsLast t) : ReleasesMirrored c.world c.log := by
  have hall : Consistent c.world c.log ∧ Mirror c.world c.log ∧
      ReleasesMirrored c.world c.log := by
    refine hr.invariant
      (I := fun w log => Consistent w log ∧ Mirror w log ∧ ReleasesMirrored w log) hC
      ⟨consistent_deployment, mirror_deployment, releasesMirrored_deployment⟩ ?_ ?_
    · rintro c t op r w p hcond hj ⟨hcons, hm, hreleases⟩ hperm hp
      refine ⟨hp.consistent hcons, hp.mirror hj hcons hperm hm,
        hp.releasesMirrored hj hcons hm hperm ?_ hreleases⟩
      intro p' hash time heq build hreport
      cases heq
      exact hcond.last hreport
    · rintro c event w - hj ⟨hcons, hm, hreleases⟩ hmove
      exact ⟨hmove.consistent hcons, hmove.mirror hm, hmove.releasesMirrored hreleases⟩
  exact hall.2.2

/-! ## The split the chain has paid -/

/-- The tables record the build: the payouts under the hash are its lines, and each prize it
names is won by the team it names. -/
def RecordsBuild (db : DB) (hash : TxHash) (build : ReleaseBuild) : Prop :=
  (db.payouts.filter fun row => row.txHash = hash) = build.winners.map (payoutRow hash) ∧
    ∀ l ∈ build.winners, winnerTeam db l.prizeID = teamOf build.winners l.prizeID

instance (db : DB) (hash : TxHash) (build : ReleaseBuild) :
    Decidable (RecordsBuild db hash build) := inferInstanceAs (Decidable (_ ∧ _))

/-- In every run in which each release that is recorded finds the build its request has sent
and seen confirmed as the last one saved for the event: a release row that has succeeded was
recorded under the hash of a confirmed transaction, and the tables record the build whose host
function that transaction carries. -/
theorem release_mirrored (hr : ServiceRun own deps chain clock tr c)
    (hC : ∀ t ∈ tr, RecordsLast t) :
    (∀ p, c.world.db.opStatus (.release p) = some .succeeded →
      ∃ n hash, Records c.log n p hash) ∧
    ∀ n p hash, Records c.log n p hash →
      ∃ build, ReportedSuccess (historyOf n c.log) (.release p) build hash ∧
        c.world.Confirmed hash ∧ hash.hostFunction = some (ReleaseBuild.hostFunctionXDR build) ∧
        RecordsBuild c.world.db hash build := by
  have h := hr.releasesMirrored hC
  refine ⟨h.succeeded, fun n p hash hrec => ?_⟩
  obtain ⟨build, hrecorded⟩ := h.recorded n p hash hrec
  obtain ⟨hconfirmed, hhf⟩ := hrecorded.reported.confirmed hr.consistent
  refine ⟨build, hrecorded.reported, hconfirmed, hhf, hrecorded.payouts, fun l hl => ?_⟩
  have hnamed : (build.winners.find? fun w => w.prizeID = l.prizeID).isSome := by
    rw [List.find?_isSome]
    exact ⟨l, hl, decide_eq_true rfl⟩
  obtain ⟨w, hw⟩ := Option.isSome_iff_exists.mp hnamed
  have hteam : teamOf build.winners l.prizeID = some w.teamID := by rw [teamOf, hw]; rfl
  obtain ⟨prize, hprize, -, hwinner⟩ := h.assigned p build hrecorded.last _ _ hteam
  rw [hteam, winnerTeam, hprize]
  exact hwinner

namespace Sample

/-- Two teams of one enter the sample event, and the judging starts. -/
def judged : Script :=
  [.event (.web (.registerTeam "team" eventText
      [("member", ⟨"team", 0, 10000, Escrow.Sample.winner⟩)])),
   .event (.web (.registerTeam "team-2" eventText
      [("member-2", ⟨"team-2", 0, 10000, .account 7⟩)])),
   .event (.web (.startJudging eventText))]

/-- Request `t` builds the release with the prize for one team. -/
def releaseBuildOf (t : ℕ) (team : RowId) : Script :=
  [request 4 (.releaseBuild eventText (some [⟨1, team⟩])), .call t .ok, .call t .ok] ++
    buildUnsigned t ++ [.call t .ok]

/-- Request `t` sends the release of the first team, which the ledger applies. -/
def releaseSent (t : ℕ) : Script :=
  [request 4 (.releaseSubmit eventText (some (signed releaseTx))), .call t .ok, .call t .ok,
   .call t (.sent .pending ""),
   .event (.confirm releaseTx (Escrow.Sample.env 6 [Escrow.Sample.judge]))]

/-- Request `t` finds the transaction confirmed and records the release. -/
def releaseRecorded (t : ℕ) : Script :=
  [.call t .ok, .call t (.found .success), .call t .ok, .call t .ok]

/-- The release of the first team is built, paid and recorded. -/
def releasedOnce : List (ServiceTransition Escrow.Sample.escrow) × ServiceConfig :=
  after begun (drafted ++ created ++ started ++ judged ++ releaseBuildOf 4 "team" ++
    releaseSent 5 ++ releaseRecorded 5)

theorem run_releasedOnce :
    ServiceRun Escrow.Sample.escrow setup contract 0 releasedOnce.1 releasedOnce.2 :=
  run_after begun _ _

end Sample

/-- The sample release is recorded as it was paid. -/
theorem release_mirrored_once :
    Sample.releasedOnce.2.world.db.opStatus (.release Sample.eventID) = some .succeeded ∧
      ∃ n hash build, Records Sample.releasedOnce.2.log n Sample.eventID hash ∧
        Sample.releasedOnce.2.world.Confirmed hash ∧
        RecordsBuild Sample.releasedOnce.2.world.db hash build := by
  have hrun : Sample.releasedOnce.2.world.db.opStatus (.release Sample.eventID)
      = some .succeeded ∧ ∀ t ∈ Sample.releasedOnce.1, RecordsLast t := by decide +kernel
  obtain ⟨hst, hlast⟩ := hrun
  have h := release_mirrored Sample.run_releasedOnce hlast
  obtain ⟨n, hash, hrec⟩ := h.1 Sample.eventID hst
  obtain ⟨build, -, hconfirmed, -, hbuild⟩ := h.2 n Sample.eventID hash hrec
  exact ⟨hst, n, hash, build, hrec, hconfirmed, hbuild⟩

/-! ## A rebuild while a submit is polling -/

namespace Sample

/-- The release is rebuilt for the second team before it is recorded. -/
def releasedOther : List (ServiceTransition Escrow.Sample.escrow) × ServiceConfig :=
  after begun (drafted ++ created ++ started ++ judged ++ releaseBuildOf 4 "team" ++
    releaseSent 5 ++ releaseBuildOf 6 "team-2" ++ releaseRecorded 5)

theorem run_releasedOther :
    ServiceRun Escrow.Sample.escrow setup contract 0 releasedOther.1 releasedOther.2 :=
  run_after begun _ _

end Sample

/-- The release of the first team is paid, and the one of the second team is recorded under
its hash. -/
theorem recorded_other_split : ∃ tr c,
    ServiceRun Escrow.Sample.escrow Sample.setup Sample.contract 0 tr c ∧
      c.world.db.opStatus (.release Sample.eventID) = some .succeeded ∧
      ∃ n hash, Records c.log n Sample.eventID hash ∧ c.world.Confirmed hash ∧
        hash.hostFunction = some Sample.releaseRow.hostFunctionXDR ∧
        ∀ build, ReportedSuccess (historyOf n c.log) (.release Sample.eventID) build hash →
          (c.world.db.payouts.filter fun row => row.txHash = hash)
              ≠ build.winners.map (payoutRow hash) ∧
            ∃ l ∈ build.winners,
              winnerTeam c.world.db l.prizeID ≠ teamOf build.winners l.prizeID := by
  -- in the end the tables hold the rebuild's line and winner
  have hrun : (Verified (historyOf 5 Sample.releasedOther.2.log) (.release Sample.eventID)
        Sample.releaseRow Sample.releaseTx ∧
      (5, (⟨.write (.markReleaseSucceeded Sample.eventID Sample.releaseTx 0), .ok ()⟩ : Done)) ∈
        Sample.releasedOther.2.log ∧
      Sample.releasedOther.2.world.db.opStatus (.release Sample.eventID) = some .succeeded ∧
      Sample.releasedOther.2.world.Confirmed Sample.releaseTx) ∧
      (Sample.releasedOther.2.world.db.payouts.filter fun row =>
        row.txHash = Sample.releaseTx) ≠
          Sample.releaseRow.winners.map (payoutRow Sample.releaseTx) ∧
      ∃ l ∈ Sample.releaseRow.winners, winnerTeam Sample.releasedOther.2.world.db l.prizeID ≠
        teamOf Sample.releaseRow.winners l.prizeID := by
    decide +kernel
  obtain ⟨⟨hread, hrec, hsucceeded, hconfirmed⟩, hother⟩ := hrun
  refine ⟨_, _, Sample.run_releasedOther, hsucceeded, 5, Sample.releaseTx, ⟨0, hrec⟩, hconfirmed,
    by decide +kernel, ?_⟩
  rintro build ⟨response, ⟨tx, signatures, hv, -⟩, -⟩
  obtain rfl : Sample.releaseRow = build := by
    cases hread.unique Sample.run_releasedOther.justified hv
    rfl
  exact hother

end Service
