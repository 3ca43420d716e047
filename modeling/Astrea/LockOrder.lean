/-
# The lock order of the write transactions

A save locks the event and then the op log row, a confirmation the op log row and then the
event, so a save and a confirmation of one operation can wait for each other
(`save_mark_deadlock`).  This is the only way to a deadlock (`no_deadlock`): while no save
and no confirmation of one operation hold locks at once, the waits go from prizes to prizes of
higher rank, from there to events and from events to op log rows.

The prizes are locked in the order of their ranks because a build that the service assembles
lists them in this order (`AllocationSucceeds.listed`).
-/
import Astrea.StoreLocks
import Astrea.StatusWriters
import Astrea.ReleaseAllocation
import Mathlib.Order.WithBot
import Mathlib.Data.Int.ConditionallyCompleteOrder

open Guard RowLocks

namespace Service

/-! ## The lanes of the event's operations -/

/-- The operations that have one row for each event. -/
inductive Lane where
  | create
  | start
  | release
  deriving DecidableEq

def Lane.key : Lane → PathID → OpKey
  | .create, p => .create p
  | .start, p => .start p
  | .release, p => .release p

/-- The key of an operation tells its lane and its event. -/
theorem Lane.key_inj {lane lane' : Lane} {p p' : PathID} :
    lane.key p = lane'.key p' ↔ lane = lane' ∧ p = p' := by
  cases lane <;> cases lane' <;> simp [Lane.key]

/-- In what order a write locks its rows. -/
inductive LockPlan where
  | once (k : OpKey)
  | save (lane : Lane) (eventID : PathID)
  | confirm (lane : Lane) (eventID : PathID)
  deriving DecidableEq

def StoreWrite.plan : StoreWrite → LockPlan
  | .saveCreateBuild eventID _ => .save .create eventID
  | .saveDepositBuild opID _ => .once (.deposit opID)
  | .saveStartBuild eventID _ => .save .start eventID
  | .saveReleaseBuild eventID _ => .save .release eventID
  | .markCreateSucceeded eventID _ _ => .confirm .create eventID
  | .markDepositSucceeded opID => .once (.deposit opID)
  | .markStartSucceeded eventID _ _ => .confirm .start eventID
  | .markReleaseSucceeded eventID _ _ => .confirm .release eventID
  | .markFailed k _ => .once k

/-- Operations that lock rows in common: those with one op log row, and the releases of one
event under any spelling of its id. -/
def SameOperation (lane : Lane) (p : PathID) (lane' : Lane) (p' : PathID) : Prop :=
  lane = lane' ∧ (p = p' ∨ lane = .release ∧ p.uuid = p'.uuid)

instance (lane : Lane) (p : PathID) (lane' : Lane) (p' : PathID) :
    Decidable (SameOperation lane p lane' p') := inferInstanceAs (Decidable (_ ∧ _))

theorem SameOperation.symm {lane lane' : Lane} {p p' : PathID}
    (h : SameOperation lane p lane' p') : SameOperation lane' p' lane p := by
  obtain ⟨rfl, rfl | ⟨hlane, huuid⟩⟩ := h
  · exact ⟨rfl, .inl rfl⟩
  · exact ⟨rfl, .inr ⟨hlane, huuid.symm⟩⟩

/-- A save and a confirmation of one operation. -/
def LockPlan.Clash : LockPlan → LockPlan → Prop
  | .save lane p, .confirm lane' p' => SameOperation lane p lane' p'
  | .confirm lane p, .save lane' p' => SameOperation lane p lane' p'
  | _, _ => False

instance : (a b : LockPlan) → Decidable (a.Clash b)
  | .save lane p, .confirm lane' p' => inferInstanceAs (Decidable (SameOperation lane p lane' p'))
  | .confirm lane p, .save lane' p' => inferInstanceAs (Decidable (SameOperation lane p lane' p'))
  | .once _, _ => isFalse id
  | .save .., .once _ => isFalse id
  | .save .., .save .. => isFalse id
  | .confirm .., .once _ => isFalse id
  | .confirm .., .confirm .. => isFalse id

theorem LockPlan.Clash.symm {a b : LockPlan} (h : a.Clash b) : b.Clash a := by
  cases a with
  | once k => exact h.elim
  | save lane p =>
      cases b with
      | confirm lane' p' => exact SameOperation.symm h
      | _ => exact h.elim
  | confirm lane p =>
      cases b with
      | save lane' p' => exact SameOperation.symm h
      | _ => exact h.elim

/-- The two writes are a save and a confirmation of one operation. -/
def Clash (w w' : StoreWrite) : Prop := w.plan.Clash w'.plan

instance (w w' : StoreWrite) : Decidable (Clash w w') :=
  inferInstanceAs (Decidable (w.plan.Clash w'.plan))

/-! ## The order of a plan -/

/-- The event and the rank of every prize, which no write changes. -/
abbrev PrizeFrame : Type := RowId → Option (RowId × ℤ)

def prizeFrame (db : DB) : PrizeFrame := fun id =>
  (db.prizes.lookup id).map fun prize => (prize.eventId, prize.rank.toInt)

section Order

variable {frame : PrizeFrame}

/-- What a plan locks next, given what it holds. -/
inductive Allowed (frame : PrizeFrame) : LockPlan → List LockedRow → LockedRow → Prop
  | once {k : OpKey} : Allowed frame (.once k) [] (.op k)
  | event {lane : Lane} {p : PathID} : Allowed frame (.save lane p) [] (.event p.uuid)
  | upsert {lane : Lane} {p : PathID} :
      Allowed frame (.save lane p) [.event p.uuid] (.op (lane.key p))
  | assign {p : PathID} {held : List LockedRow} {z : RowId} {rank : ℤ}
      (op : .op (.release p) ∈ held) (of_event : frame z = some (p.uuid, rank)) :
      Allowed frame (.save .release p) held (.prize z)
  | succeed {lane : Lane} {p : PathID} : Allowed frame (.confirm lane p) [] (.op (lane.key p))
  | release {p : PathID} {held : List LockedRow} {z : RowId} {rank : ℤ}
      (op : .op (.release p) ∈ held) (early : .event p.uuid ∉ held)
      (of_event : frame z = some (p.uuid, rank))
      (above : ∀ z' rank', .prize z' ∈ held → frame z' = some (p.uuid, rank') → rank' < rank) :
      Allowed frame (.confirm .release p) held (.prize z)
  | transition {lane : Lane} {p : PathID} {held : List LockedRow}
      (op : .op (lane.key p) ∈ held) (early : .event p.uuid ∉ held) :
      Allowed frame (.confirm lane p) held (.event p.uuid)

/-- The plan is about the op log row. -/
def LockPlan.Logs : LockPlan → OpKey → Prop
  | .once k, k' => k' = k
  | .save lane p, k' => k' = lane.key p
  | .confirm lane p, k' => k' = lane.key p

/-- The plan is about the event. -/
def LockPlan.About : LockPlan → RowId → Prop
  | .once _, _ => False
  | .save _ p, id => id = p.uuid
  | .confirm _ p, id => id = p.uuid

/-- The plan is a release of the event. -/
def LockPlan.Releases (plan : LockPlan) (id : RowId) : Prop :=
  ∃ p, p.uuid = id ∧ (plan = .save .release p ∨ plan = .confirm .release p)

/-- The rows a plan has locked are its own. -/
theorem owned_of_built {plan : LockPlan} {held : List LockedRow}
    (h : Built (Allowed frame plan) held) :
    (∀ k, .op k ∈ held → plan.Logs k) ∧ (∀ id, .event id ∈ held → plan.About id) ∧
      ∀ z, .prize z ∈ held → ∃ id rank, frame z = some (id, rank) ∧ plan.Releases id := by
  induction h with
  | nil => exact ⟨nofun, nofun, nofun⟩
  | @cons r held ok built ih =>
      obtain ⟨hop, hevent, hprize⟩ := ih
      refine ⟨fun k hk => ?_, fun id hid => ?_, fun z hz => ?_⟩
      · rcases List.mem_cons.mp hk with rfl | hk
        · cases ok <;> rfl
        · exact hop k hk
      · rcases List.mem_cons.mp hid with rfl | hid
        · cases ok <;> rfl
        · exact hevent id hid
      · rcases List.mem_cons.mp hz with rfl | hz
        · cases ok with
          | assign op of_event => exact ⟨_, _, of_event, _, rfl, .inl rfl⟩
          | release op early of_event above => exact ⟨_, _, of_event, _, rfl, .inr rfl⟩
        · exact hprize z hz

/-- A save that holds anything holds its event. -/
theorem event_mem_of_built {lane : Lane} {p : PathID} {held : List LockedRow}
    (h : Built (Allowed frame (.save lane p)) held) (hne : held ≠ []) :
    .event p.uuid ∈ held := by
  induction h with
  | nil => exact absurd rfl hne
  | @cons r held ok built ih =>
      cases ok with
      | event => exact List.mem_cons_self
      | upsert => exact List.mem_cons_of_mem _ List.mem_cons_self
      | assign op of_event => exact List.mem_cons_of_mem _ (ih (List.ne_nil_of_mem op))

/-! ## The programs keep the order -/

/-- The lines of a release are for prizes of the event, in the order of their ranks. -/
structure Listed (frame : PrizeFrame) (id : RowId) (ws : List ReleaseWinner) : Prop where
  of_event : ∀ w ∈ ws, ∃ rank, frame w.prizeID = some (id, rank)
  in_order : ws.Pairwise fun w w' => w.prizeID = w'.prizeID ∨
    ∀ x ∈ frame w.prizeID, ∀ x' ∈ frame w'.prizeID, x.2 < x'.2

/-- The tables have these prizes, and every release in the op log is listed. -/
structure Framed (frame : PrizeFrame) (db : DB) : Prop where
  prizes : prizeFrame db = frame
  builds : ∀ p row, db.opLog (.release p) = some row →
    Listed frame p.uuid (ReleaseBuild.winners row.build)

/-- What is written keeps the tables framed. -/
def Safe (frame : PrizeFrame) (acc : DB → DB) : Prop := ∀ db, Framed frame db → Framed frame (acc db)

/-- A prize that keeps its event and rank keeps the frame. -/
theorem prizeFrame_setPrize {db : DB} {id : RowId} {prize prize' : PrizeRow}
    (h : db.prizes.lookup id = some prize) (hevent : prize'.eventId = prize.eventId)
    (hrank : prize'.rank = prize.rank) : prizeFrame (db.setPrize id prize') = prizeFrame db := by
  funext id'
  rw [prizeFrame, prizeFrame, DB.setPrize_prizes]
  by_cases heq : id' = id
  · subst heq
    rw [AList.lookup_insert, h, Option.map_some, Option.map_some, hevent, hrank]
  · rw [AList.lookup_insert_ne heq]

/-- And so the database stays framed. -/
theorem Framed.setPrize {db : DB} {id : RowId} {prize prize' : PrizeRow} (hdb : Framed frame db)
    (h : db.prizes.lookup id = some prize) (hevent : prize'.eventId = prize.eventId)
    (hrank : prize'.rank = prize.rank) : Framed frame (db.setPrize id prize') :=
  ⟨(prizeFrame_setPrize h hevent hrank).trans hdb.prizes, hdb.builds⟩

theorem Framed.setEvent {db : DB} {id : RowId} {event : EventRow} (hdb : Framed frame db) :
    Framed frame (db.setEvent id event) := ⟨hdb.prizes, hdb.builds⟩

theorem Framed.addPayout {db : DB} {payout : PayoutRow} (hdb : Framed frame db) :
    Framed frame (db.addPayout payout) := ⟨hdb.prizes, hdb.builds⟩

/-- A row is written whose build is listed, if it is a release. -/
theorem Framed.setOp {db : DB} {k : OpKey} {row : OpRow k} (hdb : Framed frame db)
    (hrow : ∀ p row', (∃ h : k = .release p, h ▸ row = row') →
      Listed frame p.uuid (ReleaseBuild.winners row'.build)) : Framed frame (db.setOp k row) := by
  refine ⟨hdb.prizes, fun p row' hrow' => ?_⟩
  rcases DB.setOp_opLog_eq_some.mp hrow' with hnew | ⟨-, hold⟩
  · exact hrow p row' hnew
  · exact hdb.builds p row' hold

/-- A row keeps its build. -/
theorem Framed.setOp_same {db : DB} {k : OpKey} {row row' : OpRow k} (hdb : Framed frame db)
    (h : db.opLog k = some row) (hbuild : row'.build = row.build) :
    Framed frame (db.setOp k row') := by
  refine hdb.setOp ?_
  rintro p _ ⟨rfl, rfl⟩
  simp only [hbuild]
  exact hdb.builds p row h

section Keeps

variable {plan : LockPlan} {held : List LockedRow} {acc : DB → DB}

/-- A program keeps the order of a plan. -/
abbrev KeepsOrder (frame : PrizeFrame) (plan : LockPlan) (held : List LockedRow)
    (acc : DB → DB) (txn : StoreTxn) : Prop := txn.Keeps (Framed frame) (Allowed frame plan) held acc

/-- A check takes no lock. -/
theorem keeps_check {result : Except StoreError Unit} {next : StoreTxn}
    (h : KeepsOrder frame plan held acc next) :
    KeepsOrder frame plan held acc (check result next) := by
  cases result with
  | error e => exact True.intro
  | ok _ => exact h

/-- A row is locked in order when its lock comes next. -/
theorem keeps_onRow {α : Type} {row : LockedRow} {find : DB → Option α} {write : α → DB → DB}
    {missing : StoreTxn} {found : α → DB → StoreTxn}
    (hmissing : KeepsOrder frame plan held (whenFound find write ∘ acc) missing)
    (hfound : ∀ db a, Framed frame db → find (acc db) = some a → Allowed frame plan held row ∧
      KeepsOrder frame plan (row :: held) (whenFound find write ∘ acc) (found a (acc db))) :
    KeepsOrder frame plan held acc (onRow row find write missing found) := by
  intro db hdb
  refine ⟨fun r hr => ?_, ?_⟩
  · obtain ⟨a, hfind, rfl⟩ := Option.map_eq_some_iff.mp hr
    exact (hfound db a hdb hfind).1
  · cases hfind : find (acc db) with
    | none =>
        simp only [hfind]
        exact hmissing
    | some a =>
        simp only [hfind]
        exact (hfound db a hdb hfind).2

theorem safe_id : Safe frame id := fun _ hdb => hdb

/-- A write of what is found is safe after what is, if it is safe on every find. -/
theorem Safe.whenFound {α : Type} {find : DB → Option α} {write : α → DB → DB}
    (hacc : Safe frame acc)
    (h : ∀ db a, Framed frame db → find db = some a → Framed frame (write a db)) :
    Safe frame (whenFound find write ∘ acc) := by
  intro db hdb
  have hdb' := hacc db hdb
  simp only [Function.comp_apply, Service.whenFound]
  split
  · exact hdb'
  · rename_i a hfind
    exact h _ a hdb' hfind

/-- A save locks its event and its row, and what follows starts from the upsert. -/
theorem keeps_saveBuildTxn (lane : Lane) {p : PathID} {build : (lane.key p).Build}
    {eventFits : EventRow → Except StoreError Unit} {next : StoreTxn}
    (hnext : ∀ acc, (∀ db, acc db = upsertRow (lane.key p) build db) →
      KeepsOrder frame (.save lane p) [.op (lane.key p), .event p.uuid] acc next) :
    KeepsOrder frame (.save lane p) [] id
      (saveBuildTxn (lane.key p) build p.uuid eventFits next) := by
  intro db hdb
  refine ⟨nofun, keeps_check (keeps_onRow True.intro ?_)⟩
  intro db' event hdb' hevent
  refine ⟨.event, keeps_check ?_⟩
  intro db'' hdb''
  refine ⟨?_, keeps_check (hnext _ fun db => ?_)⟩
  · intro r hr
    obtain rfl := Option.some_inj.mp hr
    exact .upsert
  · have hread : whenFound (·.events.lookup p.uuid) (fun _ => id) db = db := by
      unfold whenFound
      split <;> rfl
    simp only [Function.comp_apply, id, hread]

/-- The upsert of a build is safe when a release's build is listed. -/
theorem Framed.upsertRow {db : DB} {k : OpKey} {build : k.Build} (hdb : Framed frame db)
    (h : ∀ p (b : (OpKey.release p).Build), (∃ hk : k = .release p, hk ▸ build = b) →
      Listed frame p.uuid (ReleaseBuild.winners b)) :
    Framed frame (upsertRow k build db) := by
  unfold Service.upsertRow
  split
  · exact hdb
  · refine hdb.setOp ?_
    rintro p _ ⟨rfl, rfl⟩
    exact h p build ⟨rfl, rfl⟩

/-- The updates of the prizes keep the order, whatever it is. -/
theorem keeps_assignPrizesTxn {p : PathID} {seen : List RowId} {ws : List ReleaseWinner}
    (hop : .op (.release p) ∈ held)
    (hframe : ∀ db, Framed frame db → prizeFrame (acc db) = frame)
    (hseen : ∀ z ∈ seen, ∃ rank, frame z = some (p.uuid, rank))
    (hfinal : ∀ db, Framed frame db → (∀ w ∈ ws, ∃ rank, frame w.prizeID = some (p.uuid, rank)) →
      Framed frame (acc db)) :
    KeepsOrder frame (.save .release p) held acc (assignPrizesTxn p.uuid seen ws) := by
  induction ws generalizing seen held acc with
  | nil => exact fun db hdb => hfinal db hdb nofun
  | cons w ws ih =>
      rw [assignPrizesTxn]
      split
      · rename_i hw
        refine ih hop hframe hseen fun db hdb hws => hfinal db hdb ?_
        exact List.forall_mem_cons.mpr ⟨hseen _ hw, hws⟩
      · refine keeps_onRow True.intro ?_
        intro db prize hdb hprize
        -- the statement finds the prize only under its event, so the frame has its rank
        obtain ⟨hprize, hevent⟩ := Option.filter_eq_some_iff.mp hprize
        have hof : frame w.prizeID = some (p.uuid, prize.rank.toInt) := by
          rw [← hframe db hdb, prizeFrame, hprize, ← of_decide_eq_true hevent]
          rfl
        refine ⟨.assign hop hof, keeps_check (ih (List.mem_cons_of_mem _ hop) ?_ ?_ ?_)⟩
        · intro db' hdb'
          simp only [Function.comp_apply, whenFound]
          split
          · exact hframe db' hdb'
          · rename_i prize' hprize'
            obtain ⟨hprize', -⟩ := Option.filter_eq_some_iff.mp hprize'
            exact (prizeFrame_setPrize hprize' (by rfl) (by rfl)).trans (hframe db' hdb')
        · exact List.forall_mem_cons.mpr ⟨⟨_, hof⟩, hseen⟩
        · intro db' hdb' hws
          have hdb'' := hfinal db' hdb' (List.forall_mem_cons.mpr ⟨⟨_, hof⟩, hws⟩)
          simp only [Function.comp_apply, whenFound]
          split
          · exact hdb''
          · rename_i prize' hprize'
            exact hdb''.setPrize (Option.filter_eq_some_iff.mp hprize').1 rfl rfl

/-- A confirmation locks its row first, and what follows starts from a stored build. -/
theorem keeps_succeedTxn {k : OpKey} {confirms : k.Build → Bool} {replaced : StoreError}
    {next : OpRow k → StoreTxn} (hallowed : Allowed frame plan [] (.op k))
    (hnext : ∀ db row acc, Framed frame db → db.opLog k = some row → Safe frame acc →
      KeepsOrder frame plan [.op k] acc (next row)) :
    KeepsOrder frame plan [] id (succeedTxn k confirms replaced next) := by
  refine keeps_onRow True.intro ?_
  intro db row hdb hrow
  refine ⟨hallowed, hnext db row _ hdb (Option.filter_eq_some_iff.mp hrow).1 ?_⟩
  refine Safe.whenFound safe_id ?_
  intro db' row' hdb' hrow'
  exact hdb'.setOp_same (Option.filter_eq_some_iff.mp hrow').1 rfl

/-- A transition locks the event last. -/
theorem keeps_transitionTxn {lane : Lane} {p : PathID} {expected : EventStatus}
    {update : EventRow → EventRow} {raced : StoreError} {violates : DB → Except StoreError Unit}
    (hacc : Safe frame acc) :
    KeepsOrder frame (.confirm lane p) [.op (lane.key p)] acc
      (transitionTxn p.uuid expected update raced violates) := by
  refine keeps_onRow True.intro fun db event hdb hevent => ?_
  refine ⟨.transition List.mem_cons_self (by simp), keeps_check ?_⟩
  exact Safe.whenFound hacc fun db' event' hdb' hevent' => hdb'.setEvent

/-- The updates of the prizes of a listed build keep the order. -/
theorem keeps_recordPayoutsTxn {p : PathID} {txHash : TxHash} {paidAt : Time}
    {seen : List RowId} {ws : List ReleaseWinner} (hacc : Safe frame acc)
    (hop : .op (.release p) ∈ held) (hearly : .event p.uuid ∉ held)
    (hseen : ∀ z, .prize z ∈ held → z ∈ seen) (hws : Listed frame p.uuid ws)
    (habove : ∀ w ∈ ws, ∀ z ∈ seen, z = w.prizeID ∨
      ∀ x ∈ frame z, ∀ x' ∈ frame w.prizeID, x.2 < x'.2) :
    KeepsOrder frame (.confirm .release p) held acc
      (recordPayoutsTxn p.uuid txHash paidAt seen ws) := by
  induction ws generalizing seen held acc with
  | nil =>
      refine keeps_onRow ?_ fun db event hdb hevent => ⟨.transition hop hearly, ?_⟩
      · exact Safe.whenFound hacc fun db' event' hdb' hevent' => hdb'.setEvent
      · exact Safe.whenFound hacc fun db' event' hdb' hevent' => hdb'.setEvent
  | cons w ws ih =>
      obtain ⟨hfirst, hrest⟩ := List.pairwise_cons.mp hws.in_order
      -- the payout locks no row, and the rest of the list follows it
      have hinsert : ∀ held acc, Safe frame acc → .op (.release p) ∈ held →
          .event p.uuid ∉ held → (∀ z, .prize z ∈ held → z ∈ w.prizeID :: seen) →
          KeepsOrder frame (.confirm .release p) held acc (insertPayoutTxn txHash w
            (recordPayoutsTxn p.uuid txHash paidAt (w.prizeID :: seen) ws)) := by
        intro held acc hacc hop hearly hseen db hdb
        refine ⟨nofun, keeps_check (ih ?_ hop hearly hseen ?_ ?_)⟩
        · exact fun db' hdb' => (hacc db' hdb').addPayout
        · exact ⟨fun w' hw' => hws.of_event w' (List.mem_cons_of_mem _ hw'), hrest⟩
        · intro w' hw' z hz
          rcases List.mem_cons.mp hz with rfl | hz
          · exact hfirst w' hw'
          · exact habove w' (List.mem_cons_of_mem _ hw') z hz
      rw [recordPayoutsTxn]
      split
      · exact hinsert held acc hacc hop hearly fun z hz => List.mem_cons_of_mem _ (hseen z hz)
      · rename_i hw
        have hsafe : Safe frame (whenFound (·.prizes.lookup w.prizeID) (fun prize db =>
            db.setPrize w.prizeID { prize with
              status := .released, releaseTxHash := some txHash, releasedAt := some paidAt })
              ∘ acc) :=
          Safe.whenFound hacc fun db' prize' hdb' hprize' => hdb'.setPrize hprize' rfl rfl
        refine keeps_onRow ?_ fun db prize hdb hprize => ⟨?_, ?_⟩
        · exact hinsert held _ hsafe hop hearly fun z hz => List.mem_cons_of_mem _ (hseen z hz)
        · obtain ⟨rank, hrank⟩ := hws.of_event w List.mem_cons_self
          refine .release hop hearly hrank fun z' rank' hz' hrank' => ?_
          -- the prizes held were seen, and those rank below this one
          rcases habove w List.mem_cons_self z' (hseen z' hz') with rfl | hlt
          · exact absurd (hseen _ hz') hw
          · exact hlt _ hrank' _ hrank
        · refine hinsert _ _ hsafe (List.mem_cons_of_mem _ hop) ?_ ?_
          · simpa using hearly
          · intro z hz
            rcases List.mem_cons.mp hz with heq | hz
            · cases heq
              exact List.mem_cons_self
            · exact List.mem_cons_of_mem _ (hseen z hz)

end Keeps

/-- The release builds that are saved list their prizes in the order of their ranks. -/
def InRankOrder (frame : PrizeFrame) : StoreWrite → Prop
  | .saveReleaseBuild _ build => build.winners.Pairwise fun w w' => w.prizeID = w'.prizeID ∨
      ∀ x ∈ frame w.prizeID, ∀ x' ∈ frame w'.prizeID, x.2 < x'.2
  | _ => True

instance : DecidablePred (InRankOrder frame)
  | .saveReleaseBuild _ build => inferInstanceAs (Decidable (build.winners.Pairwise _))
  | .saveCreateBuild .. => isTrue True.intro
  | .saveDepositBuild .. => isTrue True.intro
  | .saveStartBuild .. => isTrue True.intro
  | .markCreateSucceeded .. => isTrue True.intro
  | .markDepositSucceeded _ => isTrue True.intro
  | .markStartSucceeded .. => isTrue True.intro
  | .markReleaseSucceeded .. => isTrue True.intro
  | .markFailed .. => isTrue True.intro

/-- Every transaction keeps the order of its plan. -/
theorem keeps_txn {w : StoreWrite} (hw : InRankOrder frame w) :
    KeepsOrder frame w.plan [] id w.txn := by
  cases w with
  | saveCreateBuild p b =>
      refine keeps_saveBuildTxn .create fun acc hacc db hdb => ?_
      rw [hacc]
      exact hdb.upsertRow fun q b ⟨hq, _⟩ => nomatch hq
  | saveDepositBuild o b =>
      intro db hdb
      refine ⟨?_, keeps_check fun db' hdb' => ?_⟩
      · intro r hr
        obtain ⟨-, hr⟩ := Option.ite_none_right_eq_some.mp hr
        obtain rfl := Option.some_inj.mp hr
        exact .once
      · simp only [Function.comp_apply, id]
        split
        · refine hdb'.setOp ?_
          rintro q _ ⟨h, -⟩
          exact nomatch h
        · exact hdb'
  | saveStartBuild p b =>
      refine keeps_saveBuildTxn .start fun acc hacc db hdb => ?_
      rw [hacc]
      exact hdb.upsertRow fun q b ⟨hq, _⟩ => nomatch hq
  | saveReleaseBuild p b =>
      refine keeps_saveBuildTxn .release fun acc hacc => ?_
      refine keeps_assignPrizesTxn List.mem_cons_self ?_ nofun ?_
      · intro db hdb
        rw [hacc]
        unfold upsertRow
        split
        · exact hdb.prizes
        · exact hdb.prizes
      · intro db hdb hws
        rw [hacc]
        refine hdb.upsertRow ?_
        rintro q _ ⟨hq, rfl⟩
        cases hq
        exact ⟨hws, hw⟩
  | markCreateSucceeded p eid t =>
      have hallowed : Allowed frame (.confirm .create p) [] (.op (.create p)) := .succeed
      exact keeps_succeedTxn hallowed fun _ _ _ _ _ hacc => keeps_transitionTxn hacc
  | markDepositSucceeded o =>
      exact keeps_succeedTxn .once fun _ _ _ _ _ hacc => hacc
  | markStartSucceeded p hf t =>
      have hallowed : Allowed frame (.confirm .start p) [] (.op (.start p)) := .succeed
      exact keeps_succeedTxn hallowed fun _ _ _ _ _ hacc => keeps_transitionTxn hacc
  | markReleaseSucceeded p txHash t =>
      have hallowed : Allowed frame (.confirm .release p) [] (.op (.release p)) := .succeed
      refine keeps_succeedTxn hallowed fun db row acc hdb hrow hacc => ?_
      refine keeps_recordPayoutsTxn hacc List.mem_cons_self (by simp) (by simp)
        (hdb.builds p row hrow) nofun
  | markFailed k reason =>
      refine keeps_onRow True.intro fun db row hdb hrow => ⟨.once, ?_⟩
      refine Safe.whenFound safe_id ?_
      exact fun db' row' hdb' hrow' => hdb'.setOp_same hrow' rfl

/-! ## Chains of waits -/

/-- In the middle of a chain of waits, a plan waits for a row that another holds. -/
structure Blocked (frame : PrizeFrame) (a : LockPlan) (ha : List LockedRow) (r : LockedRow)
    (b : LockPlan) (hb : List LockedRow) : Prop where
  built : Built (Allowed frame a) ha
  holds : ha ≠ []
  wants : Allowed frame a ha r
  built' : Built (Allowed frame b) hb
  held : r ∈ hb
  exclusive : ∀ x ∈ ha, x ∉ hb
  apart : ¬ a.Clash b

variable {a b c : LockPlan} {ha hb hc : List LockedRow} {r r' : LockedRow}

/-- A save never waits for a prize: who holds it is a release of the same event, a save would
hold the event too, and confirmations are kept apart. -/
theorem Blocked.not_assign {lane : Lane} {p : PathID} {z : RowId}
    (h : Blocked frame (.save lane p) ha (.prize z) b hb) : False := by
  obtain ⟨built, holds, wants, built', held, exclusive, apart⟩ := h
  cases wants with
  | assign op of_event =>
      obtain ⟨id, rank', hz, p', hp', hplan⟩ := (owned_of_built built').2.2 z held
      have hid : id = p.uuid := congrArg Prod.fst (Option.some_inj.mp (hz.symm.trans of_event))
      rcases hplan with rfl | rfl
      · refine exclusive _ (event_mem_of_built built holds) ?_
        rw [← hid, ← hp']
        exact event_mem_of_built built' (List.ne_nil_of_mem held)
      · exact apart ⟨rfl, .inr ⟨rfl, by rw [hp', hid]⟩⟩

/-- How late a row comes in a chain of waits: prizes by rank, then events, then op log rows. -/
def stage (frame : PrizeFrame) : Option LockedRow → WithTop (WithTop ℤ)
  | some (.prize z) =>
      match frame z with
      | some x => ((x.2 : WithTop ℤ) : WithTop (WithTop ℤ))
      | none => ⊤
  | some (.event _) => ((⊤ : WithTop ℤ) : WithTop (WithTop ℤ))
  | _ => ⊤

/-- Prizes are locked in the order of their ranks. -/
theorem stage_prize {z : RowId} {id : RowId} {rank : ℤ} (h : frame z = some (id, rank)) :
    stage frame (some (.prize z)) = ((rank : WithTop ℤ) : WithTop (WithTop ℤ)) := by
  simp only [stage, h]

/-- In a chain of waits, a row is waited for later than the one before it. -/
theorem Blocked.stage_lt (h : Blocked frame a ha r b hb) (h' : Blocked frame b hb r' c hc) :
    stage frame (some r) < stage frame (some r') := by
  obtain ⟨built, holds, wants, built', held, exclusive, apart⟩ := h
  cases wants with
  | once => exact absurd rfl holds
  | event => exact absurd rfl holds
  | succeed => exact absurd rfl holds
  | @upsert lane p =>
      -- whoever holds the op log row has the event too, is done, or is kept apart
      have hlogs := (owned_of_built built').1 _ held
      cases b with
      | once k =>
          have hwants := h'.wants
          have hholds := h'.holds
          cases hwants
          exact absurd rfl hholds
      | save lane' p' =>
          obtain ⟨rfl, rfl⟩ := Lane.key_inj.mp hlogs
          exact absurd (event_mem_of_built built' (List.ne_nil_of_mem held))
            (exclusive _ List.mem_cons_self)
      | confirm lane' p' =>
          obtain ⟨rfl, rfl⟩ := Lane.key_inj.mp hlogs
          exact absurd ⟨rfl, .inl rfl⟩ apart
  | assign op of_event => exact (Blocked.not_assign
      ⟨built, holds, .assign op of_event, built', held, exclusive, apart⟩).elim
  | @release p _ z rank op early of_event above =>
      obtain ⟨id, rank', hz, p', hp', hplan⟩ := (owned_of_built built').2.2 z held
      obtain ⟨rfl, rfl⟩ := Prod.mk.inj (Option.some_inj.mp (hz.symm.trans of_event))
      rw [stage_prize hz]
      rcases hplan with rfl | rfl
      · exact absurd ⟨rfl, .inr ⟨rfl, hp'.symm⟩⟩ apart
      · obtain ⟨-, holds', wants', -, -, -, -⟩ := h'
        cases wants' with
        | succeed => exact absurd rfl holds'
        | release op' early' of_event' above' =>
            rw [stage_prize of_event']
            have hlt := above' z _ held (by rw [hz, hp'])
            exact WithTop.coe_lt_coe.mpr (WithTop.coe_lt_coe.mpr hlt)
        | transition op' early' => exact WithTop.coe_lt_coe.mpr (WithTop.coe_lt_top _)
  | @transition lane p _ op early =>
      -- whoever holds the event has locked all it needs, or wants the op log row
      have habout := (owned_of_built built').2.1 _ held
      have hwants := h'.wants
      have hholds := h'.holds
      cases hwants with
      | once => exact absurd rfl hholds
      | event => exact absurd rfl hholds
      | succeed => exact absurd rfl hholds
      | upsert => exact WithTop.coe_lt_top _
      | assign op' of_event' => exact h'.not_assign.elim
      | release op' early' of_event' above' => exact absurd (habout ▸ held) early'
      | transition op' early' => exact absurd (habout ▸ held) early'

end Order

/-! ## No deadlock -/

section Runs

variable {frame : PrizeFrame} {s : State DB LockedRow StoreError StoreWrite}

/-- In an orderly state without clashing holders no transactions wait in a circle. -/
theorem not_deadlocked_of_orderly
    (hs : Orderly (Framed frame) (fun w : StoreWrite => Allowed frame w.plan) s)
    (hapart : KeptApart Clash s) : ¬ s.Deadlocked := by
  -- one that is waited for and waits is blocked
  have hblocked : ∀ w t u, s.Waits w t → s.Waits t u → ∃ r l m, s.wants t = some r ∧
      s.live.lookup t = some l ∧ s.live.lookup u = some m ∧
      Blocked frame l.call.plan l.held r m.call.plan m.held := by
    rintro w t u ⟨-, r₀, -, l₀, hl₀, hr₀⟩ ⟨hne, r, hr, m, hm, hrm⟩
    obtain ⟨l, hl, hallowed⟩ := hs.wants_allowed hr
    obtain rfl := Option.some_inj.mp (hl₀.symm.trans hl)
    refine ⟨r, l₀, m, hr, hl, hm, hs.built t l₀ hl, List.ne_nil_of_mem hr₀, hallowed,
      hs.built u m hm, hrm, fun x hx => hs.exclusive t u l₀ m hl hm hne x hx, ?_⟩
    exact hapart t u l₀ m hl hm hne (List.ne_nil_of_mem hr₀) (List.ne_nil_of_mem hrm)
  refine RowLocks.not_deadlocked (φ := fun t => stage frame (s.wants t)) ?_
  intro w t u v hw ht hu
  obtain ⟨r, l, m, hr, hl, hm, hb⟩ := hblocked w t u hw ht
  obtain ⟨r', m', n, hr', hm', hn, hb'⟩ := hblocked t u v ht hu
  obtain rfl := Option.some_inj.mp (hm.symm.trans hm')
  rw [hr, hr']
  exact hb.stage_lt hb'

/-- In every run in which no save and no confirmation of one operation hold locks at once, and
in which the builds saved list their prizes by rank, no transactions ever wait for each other
in a circle. -/
theorem no_deadlock {db₀ : DB} {tr : List (Transition (State DB LockedRow StoreError StoreWrite)
    (Label StoreWrite))}
    (hlog : ∀ p row, db₀.opLog (.release p) = some row →
      Listed (prizeFrame db₀) p.uuid (ReleaseBuild.winners row.build))
    (hrun : Run (Step StoreWrite.txn) ⟨db₀, ∅⟩ tr s)
    (hbegun : ∀ t ∈ tr, t.label.Fit (InRankOrder (prizeFrame db₀)))
    (hapart : ∀ t ∈ tr, t.pre.Apart Clash t.label) : ¬ s.Deadlocked := by
  have hrestricted := hrun.restrict (C := fun t => t.label.Fit (InRankOrder (prizeFrame db₀)) ∧
    t.pre.Apart Clash t.label) fun t ht => ⟨hbegun t ht, hapart t ht⟩
  have hinv : Orderly (Framed (prizeFrame db₀)) (fun w : StoreWrite =>
      Allowed (prizeFrame db₀) w.plan) s ∧ KeptApart Clash s := by
    refine hrestricted.invariant
      (I := fun s => Orderly (Framed (prizeFrame db₀)) (fun w : StoreWrite =>
        Allowed (prizeFrame db₀) w.plan) s ∧ KeptApart Clash s)
      ⟨.empty ⟨rfl, hlog⟩, fun _ _ _ _ hl => nomatch hl⟩ ?_
    rintro s l s' ⟨horderly, hkept⟩ ⟨hstep, hfit, hclear⟩
    exact ⟨hstep.orderly (fun w hw => keeps_txn hw) horderly hfit,
      hstep.keptApart (fun _ _ => LockPlan.Clash.symm) hkept hclear⟩
  exact not_deadlocked_of_orderly hinv.1 hinv.2

end Runs

/-! ## The builds of the service -/

/-- The prizes the service reads are those of the event, by rank. -/
theorem loadPrizes_framed (db : DB) (p : PathID) :
    (∀ prize ∈ loadPrizes db p.uuid,
      prizeFrame db prize.id = some (p.uuid, prize.rank.toInt)) ∧
    (loadPrizes db p.uuid).Pairwise fun q q' => q.rank.toInt ≤ q'.rank.toInt := by
  constructor
  · intro prize hprize
    rw [loadPrizes, List.mem_insertionSort] at hprize
    obtain ⟨e, he, rfl⟩ := List.mem_map.mp hprize
    obtain ⟨hmem, hevent⟩ := List.mem_filter.mp he
    rw [prizeFrame, KeyTable.lookup_of_mem_entries hmem, Option.map_some,
      of_decide_eq_true hevent]
  · have hsorted : (loadPrizes db p.uuid).Pairwise fun q q' => q.rank ≤ q'.rank :=
      List.pairwise_insertionSort _ _
    exact hsorted.imp fun hle => Int64.le_iff_toInt_le.mp hle

/-- A build that the service assembles from the prizes of an event lists them by rank. -/
theorem AllocationSucceeds.listed {db : DB} {p : PathID} {event : EventForRelease}
    {rows : List (RowId × TeamMember)} {assignments : List Assignment} {reward : Int64}
    {rws : List ReleaseWinner} (h : AllocationSucceeds event rows assignments reward rws)
    (hprizes : event.prizes = loadPrizes db p.uuid) : Listed (prizeFrame db) p.uuid rws := by
  obtain ⟨positions, teams, ws, hinput, hallocate, hmap⟩ := h.allocated
  obtain ⟨-, rfl, rfl, -⟩ := allocationOf_eq_ok.mp hinput
  obtain ⟨-, -, -, hplaces, -, -, -, hws⟩ := allocateWinners_eq_ok.mp hallocate
  obtain ⟨hframe, hsorted⟩ := loadPrizes_framed db p
  rw [← hprizes] at hframe hsorted
  -- one line for each share of each prize
  have hflat : ws = (event.prizes.flatMap fun q => ((assignedMembers event assignments q.rank).zip
      (splitOf (prizeStroops q) (assignedMembers event assignments q.rank))).map fun e =>
        (q, e)).map fun c => ⟨placeOf c.1.rank, c.2.2, c.2.1.address⟩ := by
    rw [hws, List.map_flatMap]
    simp only [List.map_map, linesOf]
    rfl
  rw [hflat] at hmap
  have hids := mapWinners_map (π := (·.prizeID)) (g := fun c => c.1.id) ?_ hmap
  · rw [List.map_flatMap] at hids
    constructor
    · intro w hw
      have hmem := List.mem_map_of_mem (f := (·.prizeID)) hw
      rw [hids] at hmem
      obtain ⟨q, hq, hmem⟩ := List.mem_flatMap.mp hmem
      obtain ⟨c, hc, heq⟩ := List.mem_map.mp hmem
      obtain ⟨e, -, rfl⟩ := List.mem_map.mp hc
      rw [← heq]
      exact ⟨_, hframe q hq⟩
    · have hpair : (rws.map (·.prizeID)).Pairwise fun z z' => z = z' ∨
          ∀ x ∈ prizeFrame db z, ∀ x' ∈ prizeFrame db z', x.2 < x'.2 := by
        have hranks : event.prizes.Pairwise fun q q' => q.rank ≠ q'.rank :=
          (List.pairwise_map.mp hplaces).imp fun hne heq => hne (congrArg placeOf heq)
        rw [hids, List.pairwise_flatMap]
        constructor
        · intro q _
          simp only [List.map_map]
          exact List.pairwise_map.mpr (List.pairwise_of_forall fun _ _ => .inl rfl)
        · refine (hsorted.and hranks).imp_of_mem fun {q q'} hq hq' hlt z hz z' hz' => .inr ?_
          obtain ⟨c, hc, rfl⟩ := List.mem_map.mp hz
          obtain ⟨e, -, rfl⟩ := List.mem_map.mp hc
          obtain ⟨c', hc', rfl⟩ := List.mem_map.mp hz'
          obtain ⟨e', -, rfl⟩ := List.mem_map.mp hc'
          intro x hx x' hx'
          rw [hframe q hq] at hx
          rw [hframe q' hq'] at hx'
          obtain rfl := Option.some_inj.mp hx
          obtain rfl := Option.some_inj.mp hx'
          exact lt_of_le_of_ne hlt.1 fun heq => hlt.2 (Int64.toInt_inj.mp heq)
      exact List.pairwise_map.mp hpair
  · intro c hc rw' hrw
    obtain ⟨q, hq, hc⟩ := List.mem_flatMap.mp hc
    obtain ⟨e, -, rfl⟩ := List.mem_map.mp hc
    simp only [mapWinner, bind_eq_ok, expect_eq_ok, pure_eq_ok] at hrw
    obtain ⟨info, -, q', hq', rfl⟩ := hrw
    rw [prize_of_place hplaces hq hq']

namespace Sample

/-- The sample event, judged, with its prize and a team of one. -/
def judgingTables : DB where
  events := AList.singleton eventText
    ⟨.judging, some eid, Escrow.Sample.organizer, some (100 * Service.second), some 1⟩
  judges := [⟨eventText, Escrow.Sample.judge, true⟩]
  prizes := AList.singleton "prize"
    ⟨eventText, 1, bytes "0.00006", .pending, none, none, none⟩
  teams := AList.singleton "team" eventText
  teamMembers := AList.singleton "member" ⟨"team", 0, 10000, Escrow.Sample.winner⟩
  payouts := []
  opLog := fun _ => none

/-- A save runs to its end; a second one has locked the event, and a third waits for it. -/
def savesQueue : List (Label StoreWrite) :=
  [.begin 0 (.saveReleaseBuild eventID releaseRow), .advance 0, .advance 0, .advance 0,
   .advance 0, .finish 0, .begin 1 (.saveReleaseBuild eventID releaseRow),
   .begin 2 (.saveReleaseBuild eventID releaseRow), .advance 1, .advance 1, .advance 2]

/-- A save has locked the event, and a confirmation the op log row and the prize. -/
def saveMeetsMark : List (Label StoreWrite) :=
  [.begin 0 (.saveReleaseBuild eventID releaseRow),
   .begin 1 (.markReleaseSucceeded eventID releaseTx 3), .advance 0, .advance 0, .advance 1,
   .advance 1, .advance 1]

/-- The tables once the sample release is saved. -/
def saved : List (Transition DB Writer) × DB :=
  (Run.follow Writer.run emptyTables releaseSaved).get (by decide +kernel)

def queued := (Run.follow (move StoreWrite.txn) ⟨judgingTables, ∅⟩ savesQueue).get
  (by decide +kernel)

def crossed := (Run.follow (move StoreWrite.txn) ⟨saved.2, ∅⟩ saveMeetsMark).get
  (by decide +kernel)

end Sample

/-- Two saves of the sample release: the later one waits, and nothing is in a circle. -/
theorem no_deadlock_queued : ∃ tr s, Run (Step StoreWrite.txn) ⟨Sample.judgingTables, ∅⟩ tr s ∧
    tr.length = 11 ∧ s.Waits 2 1 ∧ ¬ s.Deadlocked := by
  have hrun : Run (Step StoreWrite.txn) ⟨Sample.judgingTables, ∅⟩ Sample.queued.1
      Sample.queued.2 := Run.of_follow (fun _ _ _ => Step.of_move) (Option.some_get _).symm
  refine ⟨_, _, hrun, by decide +kernel, by decide +kernel, ?_⟩
  exact no_deadlock (fun _ _ (hrow : none = some _) => nomatch hrow) hrun (by decide +kernel)
    (by decide +kernel)

/-- A save of the sample release that has locked the event and a confirmation that has locked
the op log row wait for each other. -/
theorem save_mark_deadlock : ∃ tr₀ db₀ tr s, Run WriterStep emptyTables tr₀ db₀ ∧
    Run (Step StoreWrite.txn) ⟨db₀, ∅⟩ tr s ∧
    (∀ t ∈ tr, t.label.Fit (InRankOrder (prizeFrame db₀))) ∧
    s.Waits 0 1 ∧ s.Waits 1 0 ∧ s.Deadlocked := by
  have hsaved : Run WriterStep emptyTables Sample.saved.1 Sample.saved.2 :=
    Run.of_follow (fun _ _ _ => Writer.step) (Option.some_get _).symm
  have hrun : Run (Step StoreWrite.txn) ⟨Sample.saved.2, ∅⟩ Sample.crossed.1
      Sample.crossed.2 := Run.of_follow (fun _ _ _ => Step.of_move) (Option.some_get _).symm
  have hsave : Sample.crossed.2.Waits 0 1 := by decide +kernel
  have hmark : Sample.crossed.2.Waits 1 0 := by decide +kernel
  exact ⟨_, _, _, _, hsaved, hrun, by decide +kernel, hsave, hmark, 0,
    .tail (.single hsave) hmark⟩

end Service
