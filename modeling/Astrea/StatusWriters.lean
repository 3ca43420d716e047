/-
# Two writers of one state machine

The web application moves the status of an event or a prize by a conditional update, along
the edges of its transition tables.  The service writes the same columns with statements of
its own.  A row is locked from the statement that finds it on, so a write method of the
service takes place at once; between two of them the web application may make any of its
transitions.  Which changes of the service are edges is read off what each method does to
an event (`StoreWrite.run_event`) and to a prize (`StoreWrite.run_prize`).
-/
import Astrea.NetworkMoves
import Astrea.ServiceRun

open Guard

namespace Service

/-! ## The transition tables -/

/-- `EVENT_TRANSITIONS`. -/
def eventTransitions : EventStatus → List EventStatus
  | .draft => [.created]
  | .created => [.live, .disputed, .cancelled]
  | .live => [.judging, .disputed, .cancelled]
  | .judging => [.completed, .disputed, .cancelled]
  | .completed => []
  | .disputed => [.completed, .cancelled]
  | .cancelled => []

/-- `PRIZE_TRANSITIONS`. -/
def prizeTransitions : PrizeStatus → List PrizeStatus
  | .pending => [.assigned]
  | .assigned => [.released, .disputed]
  | .released => [.paidOut]
  | .paidOut => []
  | .disputed => [.paidOut]

def canTransitionEvent (old new : EventStatus) : Bool := new ∈ eventTransitions old

def canTransitionPrize (old new : PrizeStatus) : Bool := new ∈ prizeTransitions old

/-- `status::text`. -/
def PrizeStatus.text : PrizeStatus → String
  | .pending => "PENDING"
  | .assigned => "ASSIGNED"
  | .released => "RELEASED"
  | .paidOut => "PAID_OUT"
  | .disputed => "DISPUTED"

/-- `InvalidTransitionError`. -/
def invalidTransition (entity old new : String) : Message :=
  ⟨"Invalid %s transition: %s -> %s", [.text entity, .text old, .text new]⟩

def assertEventTransition (old new : EventStatus) : Except Message Unit :=
  ensure (canTransitionEvent old new = true) (invalidTransition "Event" old.text new.text)

def assertPrizeTransition (old new : PrizeStatus) : Except Message Unit :=
  ensure (canTransitionPrize old new = true) (invalidTransition "Prize" old.text new.text)

/-! ## The transitions of the web application -/

/-- One conditional update; a row that is not in the expected status is left alone. -/
def transitionEvent (db : DB) (eventId : RowId) (old new : EventStatus) : Except Message DB := do
  assertEventTransition old new
  let stale : Message :=
    ⟨"Event %s was not in status %s — concurrent transition or stale read",
      [.text eventId, .text old.text]⟩
  let event ← expect (db.events.lookup eventId) stale
  ensure (event.status = old) stale
  return db.setEvent eventId { event with status := new }

/-- The same for a prize; a release also records its time, and its hash when one is given. -/
def transitionPrize (db : DB) (prizeId : RowId) (old new : PrizeStatus)
    (releaseTxHash : Option TxHash) (now : Time) : Except Message DB := do
  assertPrizeTransition old new
  let stale : Message :=
    ⟨"Prize %s was not in status %s — concurrent transition or stale read",
      [.text prizeId, .text old.text]⟩
  let prize ← expect (db.prizes.lookup prizeId) stale
  ensure (prize.status = old) stale
  return db.setPrize prizeId
    (if new = .released then
      { prize with
        status := new
        releasedAt := some now
        releaseTxHash := releaseTxHash.or prize.releaseTxHash }
    else { prize with status := new })

/-- An event is moved along an edge, from the status that was expected. -/
theorem transitionEvent_eq_ok {db db' : DB} {id : RowId} {old new : EventStatus} :
    transitionEvent db id old new = .ok db' ↔
      canTransitionEvent old new = true ∧ ∃ event, db.events.lookup id = some event ∧
        event.status = old ∧ db' = db.setEvent id { event with status := new } := by
  simp only [transitionEvent, assertEventTransition, bind_eq_ok, ensure_eq_ok, expect_eq_ok,
    exists_const, pure_eq_ok]
  constructor
  · rintro ⟨hedge, event, hevent, hold, rfl⟩
    exact ⟨hedge, event, hevent, hold, rfl⟩
  · rintro ⟨hedge, event, hevent, hold, rfl⟩
    exact ⟨hedge, event, hevent, hold, rfl⟩

/-- A prize is moved along an edge, from the status that was expected. -/
theorem transitionPrize_eq_ok {db db' : DB} {id : RowId} {old new : PrizeStatus}
    {hash : Option TxHash} {now : Time} (h : transitionPrize db id old new hash now = .ok db') :
    canTransitionPrize old new = true ∧ ∃ prize prize', db.prizes.lookup id = some prize ∧
      prize.status = old ∧ prize'.status = new ∧ db' = db.setPrize id prize' := by
  simp only [transitionPrize, assertPrizeTransition, bind_eq_ok, ensure_eq_ok, expect_eq_ok,
    exists_const, pure_eq_ok] at h
  obtain ⟨hedge, prize, hprize, hold, rfl⟩ := h
  refine ⟨hedge, prize, _, hprize, hold, ?_, rfl⟩
  split
  · rfl
  · rfl

/-! ## What a write method does to a prize -/

/-- What a write of the service does to prize `id`: a saved build assigns the prizes it
names, a confirmed release releases those of its row. -/
inductive PrizeMove (db : DB) (id : RowId) :
    StoreWrite → Option PrizeRow → Option PrizeRow → Prop
  | untouched {w : StoreWrite} {o : Option PrizeRow}
      (save : ∀ p b, w = .saveReleaseBuild p b → ∀ l ∈ b.winners, l.prizeID ≠ id)
      (mark : ∀ p h t row, w = .markReleaseSucceeded p h t → db.opLog (.release p) = some row →
        ∀ l ∈ ReleaseBuild.winners row.build, l.prizeID ≠ id) : PrizeMove db id w o o
  | assign {p : PathID} {b : ReleaseBuild} {prize : PrizeRow} {team : RowId}
      (named : ∃ l ∈ b.winners, l.prizeID = id) (of_event : prize.eventId = p.uuid)
      (team_eq : teamOf b.winners id = some team) :
      PrizeMove db id (.saveReleaseBuild p b) (some prize)
        (some { prize with winnerTeamId := some team, status := .assigned })
  | release {p : PathID} {h : TxHash} {t : Time} {prize : PrizeRow} {row : OpRow (.release p)}
      (row_eq : db.opLog (.release p) = some row)
      (named : ∃ l ∈ ReleaseBuild.winners row.build, l.prizeID = id) :
      PrizeMove db id (.markReleaseSucceeded p h t) (some prize)
        (some { prize with
          status := .released, releaseTxHash := some h, releasedAt := some t })

/-- A prize that a list leaves alone, its tail leaves alone behind the first line. -/
theorem unnamed_tail {id : RowId} {seen : List RowId} {w : ReleaseWinner} {ws : List ReleaseWinner}
    (h : id ∈ seen ∨ ∀ l ∈ w :: ws, l.prizeID ≠ id) :
    id ∈ w.prizeID :: seen ∨ ∀ l ∈ ws, l.prizeID ≠ id :=
  h.imp (List.mem_cons_of_mem _) fun hnone => (List.forall_mem_cons.mp hnone).2

/-- A prize that is named and not seen before is one of the event and is assigned, the
others stay. -/
theorem assignPrizes_prize {eventId : RowId} {seen : List RowId} {db db' : DB}
    {ws : List ReleaseWinner} (h : assignPrizes eventId seen db ws = .ok db') (id : RowId) :
    ((id ∈ seen ∨ ∀ l ∈ ws, l.prizeID ≠ id) → db'.prizes.lookup id = db.prizes.lookup id) ∧
    (id ∉ seen → (∃ l ∈ ws, l.prizeID = id) → ∃ prize team,
      db.prizes.lookup id = some prize ∧ prize.eventId = eventId ∧ teamOf ws id = some team ∧
      db'.prizes.lookup id = some { prize with winnerTeamId := some team, status := .assigned }) := by
  induction ws generalizing seen db with
  | nil =>
      obtain rfl := Except.ok.inj h
      refine ⟨fun _ => rfl, ?_⟩
      rintro - ⟨l, hl, -⟩
      exact absurd hl List.not_mem_nil
  | cons w ws ih =>
      -- a prize is assigned at its first line and skipped at the later ones
      by_cases hseen : w.prizeID ∈ seen
      · rw [assignPrizes, if_pos hseen] at h
        obtain ⟨hstays, hassigned⟩ := ih h
        refine ⟨?_, ?_⟩
        · rintro (hid | hid)
          · exact hstays (.inl hid)
          · exact hstays (.inr fun l hl => hid l (List.mem_cons_of_mem _ hl))
        · rintro hid ⟨l, hl, rfl⟩
          have hne : w.prizeID ≠ l.prizeID := fun heq => hid (heq ▸ hseen)
          rcases List.mem_cons.mp hl with rfl | hl
          · exact absurd rfl hne
          · rw [teamOf_cons_ne hne]
            exact hassigned hid ⟨l, hl, rfl⟩
      · rw [assignPrizes, if_neg hseen] at h
        simp only [bind_eq_ok, expect_eq_ok, ensure_eq_ok, exists_const] at h
        obtain ⟨prize, hprize, hevent, -, hrest⟩ := h
        obtain ⟨hstays, hassigned⟩ := ih hrest
        by_cases heq : id = w.prizeID
        · subst heq
          refine ⟨?_, fun _ _ => ⟨prize, w.teamID, hprize, hevent, teamOf_cons_self, ?_⟩⟩
          · rintro (hid | hid)
            · exact absurd hid hseen
            · exact absurd rfl (hid w List.mem_cons_self)
          · rw [hstays (.inl List.mem_cons_self), DB.setPrize_prizes, AList.lookup_insert]
        · rw [DB.setPrize_prizes, AList.lookup_insert_ne heq] at hstays hassigned
          rw [teamOf_cons_ne (Ne.symm heq)]
          refine ⟨fun hid => hstays (unnamed_tail hid), ?_⟩
          · rintro hid ⟨l, hl, rfl⟩
            rcases List.mem_cons.mp hl with rfl | hl
            · exact absurd rfl heq
            · refine hassigned ?_ ⟨l, hl, rfl⟩
              intro hmem
              rcases List.mem_cons.mp hmem with h | h
              · exact heq h
              · exact hid h

/-- Releasing a prize changes that prize only. -/
theorem releasePrize_lookup (db : DB) (id : RowId) (hash : TxHash) (t : Time) :
    (∀ id', id' ≠ id →
      (releasePrize db id hash t).prizes.lookup id' = db.prizes.lookup id') ∧
    (releasePrize db id hash t).prizes.lookup id = (db.prizes.lookup id).map fun prize =>
      { prize with status := .released, releaseTxHash := some hash, releasedAt := some t } := by
  unfold releasePrize
  cases hprize : db.prizes.lookup id with
  | none =>
      rw [Option.map_none]
      exact ⟨fun _ _ => rfl, hprize⟩
  | some prize =>
      refine ⟨fun id' hne => ?_, ?_⟩
      · rw [DB.setPrize_prizes, AList.lookup_insert_ne hne]
      · rw [DB.setPrize_prizes, AList.lookup_insert]
        rfl

/-- A prize that is named and not seen before is released, the others stay. -/
theorem recordPayouts_prize {hash : TxHash} {t : Time} {seen : List RowId} {db db' : DB}
    {ws : List ReleaseWinner} (h : recordPayouts hash t seen db ws = .ok db') (id : RowId) :
    ((id ∈ seen ∨ ∀ l ∈ ws, l.prizeID ≠ id) → db'.prizes.lookup id = db.prizes.lookup id) ∧
    (id ∉ seen → (∃ l ∈ ws, l.prizeID = id) → ∃ prize,
      db.prizes.lookup id = some prize ∧ db'.prizes.lookup id = some { prize with
        status := .released, releaseTxHash := some hash, releasedAt := some t }) := by
  induction ws generalizing seen db with
  | nil =>
      obtain rfl := Except.ok.inj h
      refine ⟨fun _ => rfl, ?_⟩
      rintro - ⟨l, hl, -⟩
      exact absurd hl List.not_mem_nil
  | cons w ws ih =>
      simp only [recordPayouts, bind_eq_ok, ensure_eq_ok, exists_const] at h
      obtain ⟨hfits, hrest⟩ := h
      obtain ⟨hstays, hreleased⟩ := ih hrest
      rw [DB.addPayout_prizes] at hstays hreleased
      -- the payout refers to the prize, so the prize exists
      have hexists := hfits.1
      by_cases hseen : w.prizeID ∈ seen
      · rw [if_pos hseen] at hstays hreleased
        refine ⟨fun hid => hstays (unnamed_tail hid), ?_⟩
        · rintro hid ⟨l, hl, rfl⟩
          have hne : l.prizeID ≠ w.prizeID := fun heq => hid (heq ▸ hseen)
          rcases List.mem_cons.mp hl with rfl | hl
          · exact absurd rfl hne
          · exact hreleased (fun hmem => (List.mem_cons.mp hmem).elim hne hid) ⟨l, hl, rfl⟩
      · rw [if_neg hseen] at hstays hreleased hexists
        obtain ⟨hother, hself⟩ :=
          releasePrize_lookup db w.prizeID hash t
        by_cases heq : id = w.prizeID
        · subst heq
          refine ⟨?_, fun _ _ => ?_⟩
          · rintro (hid | hid)
            · exact absurd hid hseen
            · exact absurd rfl (hid w List.mem_cons_self)
          · cases hprize : db.prizes.lookup w.prizeID with
            | none =>
                rw [hself, hprize] at hexists
                exact absurd rfl hexists
            | some prize =>
                refine ⟨prize, rfl, ?_⟩
                rw [hstays (.inl List.mem_cons_self), hself, hprize]
                rfl
        · rw [hother id heq] at hstays hreleased
          refine ⟨fun hid => hstays (unnamed_tail hid), ?_⟩
          · rintro hid ⟨l, hl, rfl⟩
            rcases List.mem_cons.mp hl with rfl | hl
            · exact absurd rfl heq
            · exact hreleased (fun hmem => (List.mem_cons.mp hmem).elim heq hid) ⟨l, hl, rfl⟩

/-- A successful write does one of the listed things to every prize. -/
theorem StoreWrite.run_prize {db db' : DB} {w : StoreWrite} (h : w.run db = .ok db')
    (id : RowId) : PrizeMove db id w (db.prizes.lookup id) (db'.prizes.lookup id) := by
  have hquiet : db'.prizes = db.prizes → (∀ p b, w ≠ .saveReleaseBuild p b) →
      (∀ p hash t, w ≠ .markReleaseSucceeded p hash t) →
      PrizeMove db id w (db.prizes.lookup id) (db'.prizes.lookup id) := by
    intro hprizes hsave hmark
    rw [hprizes]
    exact .untouched (fun p b heq => absurd heq (hsave p b))
      fun p hash t _ heq => absurd heq (hmark p hash t)
  cases w with
  | saveCreateBuild p b =>
      obtain ⟨event, -, -, -, -, rfl⟩ := saveCreateBuild_eq_ok h
      exact hquiet rfl (by simp) (by simp)
  | saveDepositBuild o b =>
      obtain ⟨-, rfl⟩ := saveDepositBuild_eq_ok h
      exact hquiet rfl (by simp) (by simp)
  | saveStartBuild p b =>
      obtain ⟨event, -, -, -, -, rfl⟩ := saveStartBuild_eq_ok h
      exact hquiet rfl (by simp) (by simp)
  | saveReleaseBuild p b =>
      simp only [StoreWrite.run, Service.saveReleaseBuild, bind_eq_ok, ensure_eq_ok, expect_eq_ok,
        exists_const, upsertBuild_eq_ok] at h
      obtain ⟨-, event, -, -, db₁, ⟨-, rfl⟩, hassign⟩ := h
      obtain ⟨hstays, hassigned⟩ := assignPrizes_prize hassign id
      by_cases hnamed : ∃ l ∈ b.winners, l.prizeID = id
      · obtain ⟨prize, team, hold, hevent, hteam, hnew⟩ := hassigned List.not_mem_nil hnamed
        rw [DB.setOp_prizes] at hold
        rw [hold, hnew]
        exact .assign hnamed hevent hteam
      · have hnot : ∀ l ∈ b.winners, l.prizeID ≠ id := fun l hl heq => hnamed ⟨l, hl, heq⟩
        rw [hstays (.inr hnot), DB.setOp_prizes]
        refine .untouched ?_ (by simp)
        intro p' b' heq
        cases heq
        exact hnot
  | markCreateSucceeded p eid t =>
      obtain ⟨row, event, -, -, -, -, -, -, rfl⟩ := markCreateSucceeded_eq_ok h
      exact hquiet rfl (by simp) (by simp)
  | markDepositSucceeded o =>
      obtain ⟨row, -, -, rfl⟩ := markDepositSucceeded_eq_ok h
      exact hquiet rfl (by simp) (by simp)
  | markStartSucceeded p hf t =>
      obtain ⟨row, event, -, -, -, -, -, rfl⟩ := markStartSucceeded_eq_ok (t := t) h
      exact hquiet rfl (by simp) (by simp)
  | markReleaseSucceeded p hash t =>
      simp only [StoreWrite.run, Service.markReleaseSucceeded, bind_eq_ok, expect_eq_ok,
        ensure_eq_ok, exists_const, pure_eq_ok] at h
      obtain ⟨row, hrow, -, db₁, hrecord, rfl⟩ := h
      have hcomplete : (completeEvent db₁ p.uuid).prizes = db₁.prizes := by
        unfold completeEvent
        split <;> rfl
      rw [hcomplete]
      obtain ⟨hstays, hreleased⟩ := recordPayouts_prize hrecord id
      by_cases hnamed : ∃ l ∈ ReleaseBuild.winners row.build, l.prizeID = id
      · obtain ⟨prize, hold, hnew⟩ := hreleased List.not_mem_nil hnamed
        rw [DB.setOp_prizes] at hold
        rw [hold, hnew]
        exact .release hrow hnamed
      · have hnot : ∀ l ∈ ReleaseBuild.winners row.build, l.prizeID ≠ id :=
          fun l hl heq => hnamed ⟨l, hl, heq⟩
        rw [hstays (.inr hnot), DB.setOp_prizes]
        refine .untouched (by simp) ?_
        intro p' hash' t' row' heq hrow'
        cases heq
        rw [Option.some_inj.mp (hrow'.symm.trans hrow)]
        exact hnot
  | markFailed k reason =>
      rw [run_markFailed] at h
      obtain ⟨row, -, rfl⟩ := markFailed_eq_ok.mp h
      exact hquiet rfl (by simp) (by simp)

/-! ## Both writers at work -/

/-- A write of one of the two writers: a method of the service, a transition of the web
application, or another of its writes. -/
inductive Writer where
  | store (w : StoreWrite)
  | transitionEvent (eventId : RowId) (old new : EventStatus)
  | transitionPrize (prizeId : RowId) (old new : PrizeStatus) (releaseTxHash : Option TxHash)
      (now : Time)
  | web (e : WebEvent)

/-- A write that succeeds. -/
inductive WriterStep : DB → Writer → DB → Prop
  | store {db db' : DB} {w : StoreWrite} (ok : w.run db = .ok db') : WriterStep db (.store w) db'
  | event {db db' : DB} {id : RowId} {old new : EventStatus}
      (ok : Service.transitionEvent db id old new = .ok db') :
      WriterStep db (.transitionEvent id old new) db'
  | prize {db db' : DB} {id : RowId} {old new : PrizeStatus} {hash : Option TxHash} {now : Time}
      (ok : Service.transitionPrize db id old new hash now = .ok db') :
      WriterStep db (.transitionPrize id old new hash now) db'
  | web {db db' : DB} {e : WebEvent} (ok : e.run db = some db') : WriterStep db (.web e) db'

/-- What the service changes in the step is an edge of the tables. -/
def LegalChange (t : Transition DB Writer) : Prop :=
  match t.label with
  | .store _ =>
      (∀ id e e', t.pre.events.lookup id = some e → t.post.events.lookup id = some e' →
        e.status ≠ e'.status → canTransitionEvent e.status e'.status = true) ∧
      ∀ id z z', t.pre.prizes.lookup id = some z → t.post.prizes.lookup id = some z' →
        z.status ≠ z'.status → canTransitionPrize z.status z'.status = true
  | _ => True

/-- The web application has not overtaken the step: a build is not saved for a prize that is
released, paid out or disputed, and a release is not recorded for a cancelled event or a prize
that is disputed or paid out. -/
def NotOvertaken (t : Transition DB Writer) : Prop :=
  match t.label with
  | .store (.saveReleaseBuild _ b) =>
      ∀ l ∈ b.winners, ∀ z, t.pre.prizes.lookup l.prizeID = some z →
        z.status ≠ .released ∧ z.status ≠ .paidOut ∧ z.status ≠ .disputed
  | .store (.markReleaseSucceeded p _ _) =>
      (∀ e, t.pre.events.lookup p.uuid = some e → e.status ≠ .cancelled) ∧
      ∀ row, t.pre.opLog (.release p) = some row → ∀ l ∈ ReleaseBuild.winners row.build,
        ∀ z, t.pre.prizes.lookup l.prizeID = some z → z.status ≠ .disputed ∧ z.status ≠ .paidOut
  | _ => True

/-! ## Where a release finds its rows -/

/-- The status is one that an event under judging can be in later. -/
def PastLive (st : EventStatus) : Prop :=
  st = .judging ∨ st = .completed ∨ st = .disputed ∨ st = .cancelled

instance (st : EventStatus) : Decidable (PastLive st) :=
  inferInstanceAs (Decidable (_ ∨ _ ∨ _ ∨ _))

/-- No edge leads back before the judging. -/
theorem PastLive.transition {old new : EventStatus} (h : PastLive old)
    (hedge : canTransitionEvent old new = true) : PastLive new := by
  revert h hedge
  cases old <;> cases new <;> decide

/-- An event with a release build has been under judging, and the prizes of the build have
been assigned. -/
structure RowsAssigned (db : DB) : Prop where
  event : ∀ p row, db.opLog (.release p) = some row →
    ∃ e, db.events.lookup p.uuid = some e ∧ PastLive e.status
  prizes : ∀ p row, db.opLog (.release p) = some row → ∀ l ∈ ReleaseBuild.winners row.build,
    ∃ z, db.prizes.lookup l.prizeID = some z ∧ z.status ≠ .pending

/-- A write that saves no build of a release keeps the statuses in place. -/
theorem RowsAssigned.mono {db db' : DB} (h : RowsAssigned db)
    (hrows : ∀ p row', db'.opLog (.release p) = some row' →
      ∃ row, db.opLog (.release p) = some row ∧ row.build = row'.build)
    (hevents : ∀ id e, db.events.lookup id = some e → PastLive e.status →
      ∃ e', db'.events.lookup id = some e' ∧ PastLive e'.status)
    (hprizes : ∀ id z, db.prizes.lookup id = some z → z.status ≠ .pending →
      ∃ z', db'.prizes.lookup id = some z' ∧ z'.status ≠ .pending) : RowsAssigned db' where
  event p row' hrow' := by
    obtain ⟨row, hrow, -⟩ := hrows p row' hrow'
    obtain ⟨e, he, hpast⟩ := h.event p row hrow
    exact hevents _ e he hpast
  prizes p row' hrow' l hl := by
    obtain ⟨row, hrow, hbuild⟩ := hrows p row' hrow'
    obtain ⟨z, hz, hne⟩ := h.prizes p row hrow l (hbuild ▸ hl)
    exact hprizes _ z hz hne

section Store

variable {db db' : DB} {w : StoreWrite}

/-- No write of the store leads back either. -/
theorem StoreWrite.pastLive (hrun : w.run db = .ok db') {id : RowId} {e : EventRow}
    (he : db.events.lookup id = some e) (hpast : PastLive e.status) :
    ∃ e', db'.events.lookup id = some e' ∧ PastLive e'.status := by
  have hmove := w.run_event hrun id
  rw [he] at hmove
  generalize db'.events.lookup id = o at hmove
  cases hmove with
  | untouched => exact ⟨e, rfl, hpast⟩
  | create uuid_eq draft free => exact absurd hpast (by rw [draft]; decide)
  | start uuid_eq created => exact absurd hpast (by rw [created]; decide)
  | complete uuid_eq => exact ⟨_, rfl, .inr (.inl rfl)⟩

/-- And none makes a prize pending again. -/
theorem StoreWrite.not_pending (hrun : w.run db = .ok db') {id : RowId} {z : PrizeRow}
    (hz : db.prizes.lookup id = some z) (hne : z.status ≠ .pending) :
    ∃ z', db'.prizes.lookup id = some z' ∧ z'.status ≠ .pending := by
  have hmove := w.run_prize hrun id
  rw [hz] at hmove
  generalize db'.prizes.lookup id = o at hmove
  cases hmove with
  | untouched save mark => exact ⟨z, rfl, hne⟩
  | assign named => exact ⟨_, rfl, by simp⟩
  | release row_eq named => exact ⟨_, rfl, by simp⟩

/-- A write keeps a release row's build, or it is the save of the row's build. -/
theorem StoreWrite.release_row (hrun : w.run db = .ok db') {p : PathID} {row' : OpRow (.release p)}
    (hrow' : db'.opLog (.release p) = some row') :
    (∃ row, db.opLog (.release p) = some row ∧ row.build = row'.build) ∨
      w = .saveReleaseBuild p row'.build := by
  obtain ⟨hother, hthis⟩ := w.run_opLog hrun
  by_cases hkey : OpKey.release p = w.key
  · cases w with
    | saveReleaseBuild p' b =>
        cases hkey
        have hnew : db'.opLog (.release p) = _ := hthis.2
        rw [Option.some_inj.mp (hrow'.symm.trans hnew)]
        exact .inr rfl
    | markReleaseSucceeded p' hash t =>
        cases hkey
        obtain ⟨row, hrow, -, hnew⟩ := hthis
        rw [Option.some_inj.mp (hrow'.symm.trans hnew)]
        exact .inl ⟨row, hrow, rfl⟩
    | markFailed k reason =>
        cases hkey
        obtain ⟨row, hrow, hnew⟩ := hthis
        rw [Option.some_inj.mp (hrow'.symm.trans hnew)]
        exact .inl ⟨row, hrow, rfl⟩
    | _ => exact nomatch hkey
  · rw [hother _ hkey] at hrow'
    exact .inl ⟨row', hrow', rfl⟩

/-- A write of the store keeps what the builds of releases rest on. -/
theorem RowsAssigned.store (hs : RowsAssigned db) (hrun : w.run db = .ok db') :
    RowsAssigned db' where
  event p row' hrow' := by
    rcases w.release_row hrun hrow' with ⟨row, hrow, -⟩ | rfl
    · obtain ⟨e, he, hpast⟩ := hs.event p row hrow
      exact StoreWrite.pastLive hrun he hpast
    · obtain ⟨e, -, he, hjudging, -⟩ := saveReleaseBuild_eq_ok hrun
      exact StoreWrite.pastLive hrun he (.inl hjudging)
  prizes p row' hrow' l hl := by
    rcases w.release_row hrun hrow' with ⟨row, hrow, hbuild⟩ | rfl
    · obtain ⟨z, hz, hne⟩ := hs.prizes p row hrow l (hbuild ▸ hl)
      exact StoreWrite.not_pending hrun hz hne
    · have hmove := StoreWrite.run_prize hrun l.prizeID
      generalize db.prizes.lookup l.prizeID = o, db'.prizes.lookup l.prizeID = o' at hmove
      cases hmove with
      | untouched save mark => exact absurd rfl (save _ _ rfl l hl)
      | assign named => exact ⟨_, rfl, by simp⟩

end Store

/-- And so does every writer. -/
theorem WriterStep.rowsAssigned {db db' : DB} {l : Writer} (h : WriterStep db l db')
    (hs : RowsAssigned db) : RowsAssigned db' := by
  cases h with
  | store ok => exact hs.store ok
  | @event _ id old new ok =>
      obtain ⟨hedge, e, he, hold, rfl⟩ := transitionEvent_eq_ok.mp ok
      refine hs.mono (fun p row' hrow' => ⟨row', hrow', rfl⟩) ?_ fun _ z hz hne => ⟨z, hz, hne⟩
      intro j e' he' hpast
      refine StoreWrite.lookup_after db
        (P := fun o => ∃ e', o = some e' ∧ PastLive e'.status) (fun _ => ⟨e', he', hpast⟩) ?_
      rintro rfl
      obtain rfl := Option.some_inj.mp (he.symm.trans he')
      exact ⟨_, rfl, hpast.transition (hold ▸ hedge)⟩
  | @prize _ id old new hash now ok =>
      obtain ⟨hedge, z, z', hz, hold, hnew, rfl⟩ := transitionPrize_eq_ok ok
      refine hs.mono (fun p row' hrow' => ⟨row', hrow', rfl⟩) (fun _ e he hpast => ⟨e, he, hpast⟩) ?_
      intro j y hy hne
      rw [DB.setPrize_prizes]
      by_cases heq : j = id
      · subst heq
        refine ⟨z', AList.lookup_insert _, ?_⟩
        -- no edge leads back to PENDING
        rw [hnew]
        rintro rfl
        revert hedge
        cases old <;> decide
      · rw [AList.lookup_insert_ne heq]
        exact ⟨y, hy, hne⟩
  | @web _ e ok =>
      obtain ⟨hlog, -, hprizes⟩ := WebEvent.run_tables ok
      refine hs.mono (fun p row' hrow' => ⟨row', by rw [← hlog, hrow'], rfl⟩) ?_
        fun id z hz hne => ⟨z, hprizes id z hz, hne⟩
      intro id event hevent hpast
      have hmove := WebEvent.run_event ok id
      rw [hevent] at hmove
      generalize db'.events.lookup id = o at hmove
      cases hmove with
      | untouched => exact ⟨event, rfl, hpast⟩
      | deadline => exact ⟨_, rfl, hpast⟩
      | judging live => exact absurd hpast (by rw [live]; decide)

/-! ## When the changes are edges -/

/-- Completing an event is an edge, or no change, unless it is cancelled. -/
theorem complete_edge_iff {st : EventStatus} (h : PastLive st) :
    (st ≠ .completed → canTransitionEvent st .completed = true) ↔ st ≠ .cancelled := by
  revert h
  cases st <;> decide

/-- Assigning a prize is an edge, or no change, unless it is released, paid out or disputed. -/
theorem assign_edge_iff (st : PrizeStatus) :
    (st ≠ .assigned → canTransitionPrize st .assigned = true) ↔
      st ≠ .released ∧ st ≠ .paidOut ∧ st ≠ .disputed := by
  cases st <;> decide

/-- Releasing a prize that was assigned is an edge, or no change, unless it is disputed or
paid out. -/
theorem release_edge_iff {st : PrizeStatus} (h : st ≠ .pending) :
    (st ≠ .released → canTransitionPrize st .released = true) ↔
      st ≠ .disputed ∧ st ≠ .paidOut := by
  revert h
  cases st <;> decide

/-- The event of a saved release is past `LIVE`, since it was saved in `JUDGING`. -/
theorem RowsAssigned.past_live {db : DB} (hs : RowsAssigned db) {p : PathID}
    {row : OpRow (.release p)} {e : EventRow} (hrow : db.opLog (.release p) = some row)
    (he : db.events.lookup p.uuid = some e) : PastLive e.status := by
  obtain ⟨e₀, he₀, hpast⟩ := hs.event p row hrow
  obtain rfl := Option.some_inj.mp (he₀.symm.trans he)
  exact hpast

/-- The prizes of a saved release have left `PENDING`. -/
theorem RowsAssigned.not_pending {db : DB} (hs : RowsAssigned db) {p : PathID}
    {row : OpRow (.release p)} (hrow : db.opLog (.release p) = some row) {l : ReleaseWinner}
    (hl : l ∈ ReleaseBuild.winners row.build) {z : PrizeRow}
    (hz : db.prizes.lookup l.prizeID = some z) : z.status ≠ .pending := by
  obtain ⟨z₀, hz₀, hpending⟩ := hs.prizes p row hrow l hl
  obtain rfl := Option.some_inj.mp (hz₀.symm.trans hz)
  exact hpending

/-- A legal change has not been overtaken. -/
theorem notOvertaken_of_legal {db db' : DB} {w : StoreWrite} (ok : w.run db = .ok db')
    (hs : RowsAssigned db) (hlegal : LegalChange ⟨db, .store w, db'⟩) :
    NotOvertaken ⟨db, .store w, db'⟩ := by
  obtain ⟨hevents, hprizes⟩ := hlegal
  cases w with
  | saveReleaseBuild p b =>
      intro l hl z hz
      have hmove := StoreWrite.run_prize ok l.prizeID
      have hedge := hprizes l.prizeID z
      rw [hz] at hmove
      simp only at hedge
      generalize db'.prizes.lookup l.prizeID = o' at hmove hedge
      cases hmove with
      | untouched save mark => exact absurd rfl (save _ _ rfl l hl)
      | assign named => exact (assign_edge_iff z.status).mp (hedge _ hz rfl)
  | markReleaseSucceeded p hash t =>
      refine ⟨?_, ?_⟩
      · intro e he
        obtain ⟨row, hrow, -, -, hcomplete, -⟩ := markReleaseSucceeded_eq_ok ok
        have hpost : db'.events.lookup p.uuid = some { e with status := .completed } := by
          simp only [hcomplete, completeEvent, show db.events.lookup p.uuid = some e from he,
            DB.setEvent_events, AList.lookup_insert]
        exact (complete_edge_iff (hs.past_live hrow he)).mp (hevents _ e _ he hpost)
      · intro row hrow l hl z hz
        have hmove := StoreWrite.run_prize ok l.prizeID
        have hedge := hprizes l.prizeID z
        rw [hz] at hmove
        simp only at hedge
        generalize db'.prizes.lookup l.prizeID = o' at hmove hedge
        cases hmove with
        | untouched save mark => exact absurd rfl (mark _ _ _ _ rfl hrow l hl)
        | release row_eq named =>
            exact (release_edge_iff (hs.not_pending hrow hl hz)).mp (hedge _ hz rfl)
  | _ => trivial

/-- A write that was not overtaken is a legal change. -/
theorem legal_of_notOvertaken {db db' : DB} {w : StoreWrite} (ok : w.run db = .ok db')
    (hs : RowsAssigned db) (hnot : NotOvertaken ⟨db, .store w, db'⟩) :
    LegalChange ⟨db, .store w, db'⟩ := by
  refine ⟨?_, ?_⟩
  · intro id e e' he he' hne
    simp only at he he'
    have hmove := w.run_event ok id
    rw [he, he'] at hmove
    cases hmove with
    | untouched => exact absurd rfl hne
    | create uuid_eq draft free =>
        rw [draft]
        rfl
    | start uuid_eq created =>
        rw [created]
        rfl
    | complete uuid_eq =>
        obtain ⟨row, hrow, -, -, -, -⟩ := markReleaseSucceeded_eq_ok ok
        subst uuid_eq
        exact (complete_edge_iff (hs.past_live hrow he)).mpr (hnot.1 e he) hne
  · intro id z z' hz hz' hne
    simp only at hz hz'
    have hmove := w.run_prize ok id
    rw [hz, hz'] at hmove
    cases hmove with
    | untouched save mark => exact absurd rfl hne
    | assign named =>
        obtain ⟨l, hl, rfl⟩ := named
        exact (assign_edge_iff z.status).mpr (hnot l hl z hz) hne
    | release row_eq named =>
        obtain ⟨l, hl, rfl⟩ := named
        exact (release_edge_iff (hs.not_pending row_eq hl hz)).mpr (hnot.2 _ row_eq l hl z hz) hne

/-- In a state whose release rows are in place, a step changes statuses along edges exactly
when the web application has not overtaken it. -/
theorem WriterStep.legal_iff {db db' : DB} {l : Writer} (h : WriterStep db l db')
    (hs : RowsAssigned db) : LegalChange ⟨db, l, db'⟩ ↔ NotOvertaken ⟨db, l, db'⟩ := by
  cases h with
  | event ok => exact Iff.rfl
  | prize ok => exact Iff.rfl
  | web ok => exact Iff.rfl
  | store ok => exact ⟨notOvertaken_of_legal ok hs, legal_of_notOvertaken ok hs⟩

/-- The service leaves what the tables never leave: a cancelled event, and a disputed or
paid out prize. -/
def KeepsClosed (t : Transition DB Writer) : Prop :=
  match t.label with
  | .store _ =>
      (∀ id e e', t.pre.events.lookup id = some e → t.post.events.lookup id = some e' →
        e.status = .cancelled → e'.status ≠ .completed) ∧
      ∀ id z z', t.pre.prizes.lookup id = some z → t.post.prizes.lookup id = some z' →
        z.status = .disputed ∨ z.status = .paidOut →
        z'.status ≠ .assigned ∧ z'.status ≠ .released
  | _ => True

/-- Legal changes keep what is closed. -/
theorem LegalChange.keepsClosed {t : Transition DB Writer} (h : LegalChange t) :
    KeepsClosed t := by
  obtain ⟨db, l, db'⟩ := t
  cases l with
  | store w =>
      refine ⟨?_, ?_⟩
      · intro id e e' he he' hcancelled hcompleted
        have hedge := h.1 id e e' he he'
        rw [hcancelled, hcompleted] at hedge
        exact absurd (hedge (by decide)) (by decide)
      · intro id z z' hz hz' hclosed
        have hedge := h.2 id z z' hz hz'
        refine ⟨fun hnew => ?_, fun hnew => ?_⟩ <;> rw [hnew] at hedge <;>
          rcases hclosed with hold | hold <;> rw [hold] at hedge <;>
          exact absurd (hedge (by decide)) (by decide)
  | _ => trivial

/-- In every run of the two writers from empty tables, the service changes statuses along
edges of the tables only if and only if no save of a release build meets a prize that is
released, paid out or disputed and no record of a release meets a cancelled event or a
prize that is disputed or paid out; and then it never completes a cancelled event nor takes
a disputed or paid out prize back. -/
theorem status_edges {tr : List (Transition DB Writer)} {db : DB}
    (hr : Run WriterStep emptyTables tr db) :
    ((∀ t ∈ tr, LegalChange t) ↔ ∀ t ∈ tr, NotOvertaken t) ∧
      ((∀ t ∈ tr, NotOvertaken t) → ∀ t ∈ tr, KeepsClosed t) := by
  have hsteps := hr.forall_mem (I := RowsAssigned)
    ⟨fun _ _ h => (nomatch h), fun _ _ h => (nomatch h)⟩ fun _ _ _ hs hstep => hstep.rowsAssigned hs
  have hiff : (∀ t ∈ tr, LegalChange t) ↔ ∀ t ∈ tr, NotOvertaken t :=
    forall₂_congr fun t ht => (hsteps t ht).2.legal_iff (hsteps t ht).1
  exact ⟨hiff, fun h t ht => (hiff.mpr h t ht).keepsClosed⟩

instance (t : Transition DB Writer) : Decidable (NotOvertaken t) :=
  match t with
  | ⟨pre, .store (.saveReleaseBuild _ b), _⟩ =>
      inferInstanceAs (Decidable (∀ l ∈ b.winners, ∀ z, pre.prizes.lookup l.prizeID = some z →
        z.status ≠ .released ∧ z.status ≠ .paidOut ∧ z.status ≠ .disputed))
  | ⟨pre, .store (.markReleaseSucceeded p _ _), _⟩ =>
      inferInstanceAs (Decidable
        ((∀ e, pre.events.lookup p.uuid = some e → e.status ≠ .cancelled) ∧
        ∀ row, pre.opLog (.release p) = some row → ∀ l ∈ ReleaseBuild.winners row.build,
          ∀ z, pre.prizes.lookup l.prizeID = some z → z.status ≠ .disputed ∧ z.status ≠ .paidOut))
  | ⟨_, .store (.saveCreateBuild ..), _⟩ | ⟨_, .store (.saveDepositBuild ..), _⟩
  | ⟨_, .store (.saveStartBuild ..), _⟩ | ⟨_, .store (.markCreateSucceeded ..), _⟩
  | ⟨_, .store (.markDepositSucceeded ..), _⟩ | ⟨_, .store (.markStartSucceeded ..), _⟩
  | ⟨_, .store (.markFailed ..), _⟩ | ⟨_, .transitionEvent .., _⟩ | ⟨_, .transitionPrize .., _⟩
  | ⟨_, .web _, _⟩ => inferInstanceAs (Decidable True)

/-- Run a write; `none` when it is refused. -/
def Writer.run (db : DB) : Writer → Option DB
  | .store w => (w.run db).toOption
  | .transitionEvent eventId old new => (Service.transitionEvent db eventId old new).toOption
  | .transitionPrize prizeId old new releaseTxHash now =>
      (Service.transitionPrize db prizeId old new releaseTxHash now).toOption
  | .web e => e.run db

theorem Writer.step {db db' : DB} {l : Writer} (h : l.run db = some db') :
    WriterStep db l db' := by
  have hok : ∀ {ε : Type} {x : Except ε DB}, x.toOption = some db' → x = .ok db' := by
    intro ε x hx
    cases x with
    | error e => exact nomatch hx
    | ok db₀ => exact congrArg _ (Option.some_inj.mp hx)
  cases l with
  | store w => exact .store (hok h)
  | transitionEvent eventId old new => exact .event (hok h)
  | transitionPrize prizeId old new releaseTxHash now => exact .prize (hok h)
  | web e => exact .web h

namespace Sample

/-- The build that releases the sample prize to a team of one. -/
def releaseRow : ReleaseBuild where
  hostFunctionXDR := .invokeEscrow
    (.releaseReward Escrow.Sample.judge eid [⟨1, .ofNat 600, Escrow.Sample.winner⟩])
  sourceAccount := Escrow.Sample.judge
  winners := [⟨"prize", "team", "member", Escrow.Sample.winner, 600, 1⟩]

def releaseTx : Transaction := invoke 4 41 releaseRow.hostFunctionXDR

def startRow : StartBuild where
  hostFunctionXDR := setEventInProgressHostFunction Escrow.Sample.organizer eid 100
  sourceAccount := Escrow.Sample.organizer
  judgingDeadline := 100
  fee := 3

/-- The sample event up to the save of its release. -/
def releaseSaved : List Writer :=
  [.web (.createDraftEvent eventText Escrow.Sample.organizer Escrow.Sample.judge (100 * Service.second)
      [("prize", 1, bytes "0.00006")]),
   .store (.saveCreateBuild eventID createRow), .store (.markCreateSucceeded eventID eid 1),
   .store (.saveStartBuild eventID startRow),
   .store (.markStartSucceeded eventID startRow.hostFunctionXDR 2),
   .web (.registerTeam "team" eventText [("member", ⟨"team", 0, 10000, Escrow.Sample.winner⟩)]),
   .transitionEvent eventText .live .judging, .store (.saveReleaseBuild eventID releaseRow)]

def recordRelease : Writer := .store (.markReleaseSucceeded eventID releaseTx 3)

/-- The release is recorded next. -/
def recorded : List (Transition DB Writer) × DB :=
  (Run.follow Writer.run emptyTables (releaseSaved ++ [recordRelease])).get (by decide +kernel)

/-- The web application disputes the prize and cancels the event first. -/
def overtaken : List (Transition DB Writer) × DB :=
  (Run.follow Writer.run emptyTables (releaseSaved ++
    [.transitionPrize "prize" .assigned .disputed none 3,
     .transitionEvent eventText .judging .cancelled])).get (by decide +kernel)

def recordedLate : DB := (recordRelease.run overtaken.2).get (by decide +kernel)

end Sample

/-- Nothing overtakes the sample release. -/
theorem status_edges_sample : ∃ tr db, Run WriterStep emptyTables tr db ∧ tr.length = 9 ∧
    (∀ t ∈ tr, LegalChange t) ∧ ∀ t ∈ tr, KeepsClosed t := by
  have hrun : Run WriterStep emptyTables Sample.recorded.1 Sample.recorded.2 :=
    Run.of_follow (fun _ _ _ => Writer.step) (Option.some_get _).symm
  have hnot : ∀ t ∈ Sample.recorded.1, NotOvertaken t := by decide +kernel
  have h := status_edges hrun
  exact ⟨_, _, hrun, by decide +kernel, h.1.mpr hnot, h.2 hnot⟩

/-- The web application disputes the sample prize and cancels the event before the release is
recorded: the service releases the prize and completes the event. -/
theorem status_off_edges : ∃ tr db, Run WriterStep emptyTables tr db ∧
    ∃ t ∈ tr, ¬ LegalChange t ∧
      (t.pre.events.lookup Sample.eventText).map (·.status) = some .cancelled ∧
      (t.post.events.lookup Sample.eventText).map (·.status) = some .completed ∧
      (t.pre.prizes.lookup "prize").map (·.status) = some .disputed ∧
      (t.post.prizes.lookup "prize").map (·.status) = some .released := by
  have hrun : Run WriterStep emptyTables Sample.overtaken.1 Sample.overtaken.2 :=
    Run.of_follow (fun _ _ _ => Writer.step) (Option.some_get _).symm
  have hstep : WriterStep Sample.overtaken.2 Sample.recordRelease Sample.recordedLate :=
    Writer.step (Option.some_get _).symm
  have hpre : (Sample.overtaken.2.events.lookup Sample.eventText).map (·.status)
      = some .cancelled := by decide +kernel
  have hpost : (Sample.recordedLate.events.lookup Sample.eventText).map (·.status)
      = some .completed := by decide +kernel
  refine ⟨_, _, hrun.snoc hstep, _, List.mem_append_right _ (List.mem_singleton_self _), ?_,
    hpre, hpost, by decide +kernel, by decide +kernel⟩
  rintro ⟨hevents, -⟩
  obtain ⟨e, he, hcancelled⟩ := Option.map_eq_some_iff.mp hpre
  obtain ⟨e', he', hcompleted⟩ := Option.map_eq_some_iff.mp hpost
  have hedge := hevents _ e e' he he'
  rw [hcancelled, hcompleted] at hedge
  exact absurd (hedge (by decide)) (by decide)

end Service
