/-
# The share freeze

Once judging begins the members of a team stay as they are, as long as no statement moves a
member out of a frozen team or deletes, renames or re-points the team itself.  The freeze
trigger looks up the team a member row is in after a change, and there is none on `teams`.
-/
import Astrea.TeamTables
import Astrea.StatusWriters

open Guard Service

namespace TeamTables

/-! ## Steps -/

/-- What changes the tables: a statement on the teams or their members, and a status change of an
event. -/
inductive TeamOp where
  | statement (s : Statement)
  | status (eventId : RowId) (old new : EventStatus)

/-- The row changes a step asks for. -/
def TeamOp.changes : TeamOp → List RowChange
  | .statement s => s.changes
  | .status .. => []

/-- A statement that is accepted, or a change along the event state machine. -/
inductive TeamStep : Tables → TeamOp → Tables → Prop
  | statement {db db' : Tables} {s : Statement} {cs : List RowChange}
      (h : db.exec s = .ok (db', cs)) : TeamStep db (.statement s) db'
  | status {db : Tables} {eventId : RowId} {old new : EventStatus}
      (hold : db.events.lookup eventId = some old) (hedge : canTransitionEvent old new = true) :
      TeamStep db (.status eventId old new) { db with events := db.events.insert eventId new }

/-- The event of the team is past `LIVE`. -/
def Tables.Frozen (db : Tables) (teamId : RowId) : Prop :=
  ∃ status ∈ db.eventStatus teamId, PastLive status

/-- The members of a team: row, wallet, share and ordinal. -/
def Tables.memberSet (db : Tables) (teamId : RowId) : Set (RowId × RowId × ℤ × ℤ) :=
  {x | ∃ id m, db.teamMembers.lookup id = some m ∧ m.teamId = teamId ∧
    x = (id, m.walletId, m.shareBasisPoints, m.ordinal)}

/-- The row change does not take a member out of a frozen team, and leaves the rows of frozen
teams alone. -/
def RowChange.LeavesFrozen (db : Tables) : RowChange → Prop
  | .team (some e) new => db.Frozen e.1 → new = some e
  | .teamMember (some e) (some e') => db.Frozen e.2.teamId → e'.2.teamId = e.2.teamId
  | _ => True

/-- All row changes of a step do so. -/
def LeavesFrozen (t : Transition Tables TeamOp) : Prop :=
  ∀ c ∈ t.label.changes, c.LeavesFrozen t.pre

/-! ## Frozen teams -/

/-- The team is still in the event, which is past `LIVE`, and its members are those given. -/
structure Settled (teamId eventId : RowId) (members : Set (RowId × RowId × ℤ × ℤ))
    (db : Tables) : Prop where
  team : db.teams.lookup teamId = some ⟨eventId⟩
  past : ∃ status, db.events.lookup eventId = some status ∧ PastLive status
  members : db.memberSet teamId = members

variable {teamId eventId : RowId} {members : Set (RowId × RowId × ℤ × ℤ)} {db db' : Tables}

theorem Settled.frozen (h : Settled teamId eventId members db) : db.Frozen teamId := by
  obtain ⟨status, hstatus, hpast⟩ := h.past
  refine ⟨status, ?_, hpast⟩
  simp only [Tables.eventStatus, h.team, Option.mem_def]
  exact hstatus

/-- A status past `LIVE` is none of those the trigger allows. -/
theorem not_allowed_of_pastLive {status : EventStatus} (h : PastLive status) :
    status ∉ [EventStatus.draft, .created, .live] := by
  revert h
  cases status <;> decide

/-- A change of other teams' rows leaves a team's members as they are. -/
theorem memberSet_replace {old new : Option (RowId × TeamMemberRow)}
    (h : KeyTable.Replaceable db.teamMembers old new) (hold : ∀ e ∈ old, e.2.teamId ≠ teamId)
    (hnew : ∀ e ∈ new, e.2.teamId ≠ teamId) :
    ({ db with teamMembers := db.teamMembers.replace old new } : Tables).memberSet teamId
      = db.memberSet teamId := by
  ext x
  constructor
  · rintro ⟨id, m, hlookup, hteam, rfl⟩
    rcases (KeyTable.lookup_replace h).mp hlookup with rfl | ⟨-, hlookup⟩
    · exact absurd hteam (hnew _ rfl)
    · exact ⟨id, m, hlookup, hteam, rfl⟩
  · rintro ⟨id, m, hlookup, hteam, rfl⟩
    refine ⟨id, m, (KeyTable.lookup_replace h).mpr (.inr ⟨?_, hlookup⟩), hteam, rfl⟩
    rintro rfl
    exact hold _ rfl hteam

/-- A row change that leaves frozen teams alone keeps a team settled. -/
theorem Settled.change {pre : Tables} {c : RowChange} (h : Settled teamId eventId members db)
    (hpre : pre.Frozen teamId) (hleaves : c.LeavesFrozen pre) (hc : db.change c = .ok db') :
    Settled teamId eventId members db' := by
  cases c with
  | team old new =>
      obtain ⟨hreplace, rfl⟩ := change_team_eq_ok.mp hc
      refine ⟨(KeyTable.lookup_replace hreplace).mpr ?_, h.past, h.members⟩
      by_cases hold : old = some (teamId, ⟨eventId⟩)
      · subst hold
        exact .inl (hleaves hpre)
      · exact .inr ⟨hold, h.team⟩
  | teamMember old new =>
      obtain ⟨hmember, rfl⟩ := change_teamMember_eq_ok.mp hc
      obtain ⟨status, hstatus, hpast⟩ := h.frozen
      -- the trigger refuses a change that it looks up this team for
      have htrigger : Tables.triggerTeamId old new ≠ some teamId := fun heq =>
        not_allowed_of_pastLive hpast (hmember.notFrozen teamId status heq hstatus)
      have hnew : ∀ e ∈ new, e.2.teamId ≠ teamId := by
        rintro e rfl rfl
        exact htrigger rfl
      have hold : ∀ e ∈ old, e.2.teamId ≠ teamId := by
        rintro e rfl rfl
        cases new with
        | none => exact htrigger rfl
        | some e' => exact hnew e' rfl (hleaves hpre)
      exact ⟨h.team, h.past, (memberSet_replace hmember.replaceable hold hnew).trans h.members⟩

/-- So does an accepted statement. -/
theorem Settled.exec {s : Statement} {cs : List RowChange}
    (h : Settled teamId eventId members db) (hleaves : ∀ c ∈ s.changes, c.LeavesFrozen db)
    (hexec : db.exec s = .ok (db', cs)) : Settled teamId eventId members db' := by
  obtain ⟨changed, hchanged, hcascade, -, -⟩ := exec_eq_ok.mp hexec
  have hfirst : Settled teamId eventId members changed :=
    changeAll_keeps (fun c hc db₁ db₂ hdb hstep => hdb.change h.frozen (hleaves c hc) hstep)
      h hchanged
  refine changeAll_keeps (fun c hc db₁ db₂ hdb hstep => hdb.change h.frozen ?_ hstep)
    hfirst hcascade
  -- a cascade only deletes
  obtain ⟨e, rfl, -⟩ := mem_cascade hc
  trivial

/-- And so does a status change. -/
theorem Settled.status {changed : RowId} {old new : EventStatus}
    (h : Settled teamId eventId members db) (hold : db.events.lookup changed = some old)
    (hedge : canTransitionEvent old new = true) :
    Settled teamId eventId members { db with events := db.events.insert changed new } := by
  obtain ⟨status, hstatus, hpast⟩ := h.past
  refine ⟨h.team, ?_, h.members⟩
  by_cases heq : eventId = changed
  · subst heq
    rw [hold] at hstatus
    obtain rfl := Option.some_inj.mp hstatus
    exact ⟨new, AList.lookup_insert _, hpast.transition hedge⟩
  · exact ⟨status, (AList.lookup_insert_ne heq).trans hstatus, hpast⟩

/-- Once an event has left `LIVE`, and while no step moves a member out of a frozen team or
changes the row of one, the members of its teams stay as they were. -/
theorem share_freeze {db₀ : Tables} {before after : List (Transition Tables TeamOp)}
    {t : Transition Tables TeamOp} {old new : EventStatus}
    (hrun : Run TeamStep db₀ (before ++ t :: after) db) (ht : t.label = .status eventId old new)
    (hnew : PastLive new)
    (hteam : t.post.teams.lookup teamId = some ⟨eventId⟩)
    (hleaves : ∀ t' ∈ after, LeavesFrozen t') :
    db.memberSet teamId = t.post.memberSet teamId := by
  obtain ⟨-, hstep, hafter⟩ := hrun.split
  have hstart : Settled teamId eventId (t.post.memberSet teamId) t.post := by
    refine ⟨hteam, ?_, rfl⟩
    obtain ⟨pre, label, post⟩ := t
    simp only at ht hstep ⊢
    subst ht
    cases hstep with
    | status hlookup hedge => exact ⟨new, AList.lookup_insert _, hnew⟩
  have hend := (hafter.restrict hleaves).invariant hstart ?_
  · exact hend.members
  · rintro db₁ l db₂ hdb ⟨hstep, hkept⟩
    cases hstep with
    | statement hexec => exact hdb.exec hkept hexec
    | status hlookup hedge => exact hdb.status hlookup hedge

/-- A step, `none` when it is refused. -/
def TeamOp.run (db : Tables) : TeamOp → Option Tables
  | .statement s => (db.exec s).toOption.map (·.1)
  | .status eventId old new =>
      if db.events.lookup eventId = some old ∧ canTransitionEvent old new = true then
        some { db with events := db.events.insert eventId new }
      else none

theorem TeamOp.step {db db' : Tables} {op : TeamOp} (h : op.run db = some db') :
    TeamStep db op db' := by
  cases op with
  | statement s =>
      simp only [TeamOp.run] at h
      cases hexec : db.exec s with
      | error e =>
          rw [hexec] at h
          exact nomatch h
      | ok r =>
          rw [hexec] at h
          obtain rfl := Option.some_inj.mp h
          exact .statement hexec
  | status eventId old new =>
      simp only [TeamOp.run] at h
      split at h
      · rename_i hguard
        obtain rfl := Option.some_inj.mp h
        exact .status hguard.1 hguard.2
      · exact nomatch h

namespace Sample

/-- A team of two registers for the first event, a team of one for the other. -/
def registered : List TeamOp :=
  register.map TeamOp.statement ++
    [.statement (.teams [(none, some ("team'", ⟨"other"⟩))]),
     .statement (.teamMembers
      [(none, some ("member''", ⟨"team'", "other", "wallet''", 10000, 0⟩))])]

/-- Judging of the first event begins. -/
def judging : TeamOp := .status "event" .live .judging

/-- The other team's member changes its place. -/
def renumber : TeamOp :=
  .statement (.teamMembers [(some ("member''", ⟨"team'", "other", "wallet''", 10000, 0⟩),
    some ("member''", ⟨"team'", "other", "wallet''", 10000, 7⟩))])

/-- A member of the frozen team joins the other one, whose shares make room for it. -/
def moveOut : Statement :=
  .teamMembers [(some ("member''", ⟨"team'", "other", "wallet''", 10000, 0⟩),
      some ("member''", ⟨"team'", "other", "wallet''", 6000, 0⟩)),
    (some member', some ("member'", ⟨"team'", "other", "wallet'", 4000, 1⟩))]

/-- The frozen team is deleted. -/
def deleteTeam : Statement := .teams [(some ("team", ⟨"event"⟩), none)]

def atJudging : List (Transition Tables TeamOp) × Tables :=
  (Run.follow TeamOp.run opened registered).get (by decide +kernel)

def judged : Tables := (judging.run atJudging.2).get (by decide +kernel)

def renumbered : Tables := (renumber.run judged).get (by decide +kernel)

def movedOut : Tables := ((TeamOp.statement moveOut).run judged).get (by decide +kernel)

def deleted : Tables := ((TeamOp.statement deleteTeam).run judged).get (by decide +kernel)

theorem judging_begins : TeamStep atJudging.2 judging judged :=
  TeamOp.step (Option.some_get _).symm

theorem atJudging_run : Run TeamStep opened atJudging.1 atJudging.2 := by
  have hfollow : Run.follow TeamOp.run opened registered = some atJudging :=
    (Option.some_get _).symm
  exact Run.of_follow (fun _ _ _ => TeamOp.step) hfollow

end Sample

/-- A change in another event's team leaves the frozen one as it was. -/
theorem share_freeze_renumbered :
    Sample.renumbered.memberSet "team" = Sample.judged.memberSet "team" := by
  have hrun : Run TeamStep Sample.opened
      (Sample.atJudging.1 ++ ⟨Sample.atJudging.2, Sample.judging, Sample.judged⟩
        :: [⟨Sample.judged, Sample.renumber, Sample.renumbered⟩]) Sample.renumbered := by
    rw [List.append_cons]
    exact (Sample.atJudging_run.snoc Sample.judging_begins).snoc
      (TeamOp.step (Option.some_get _).symm)
  refine share_freeze hrun rfl (.inl rfl) (by decide +kernel) ?_
  intro t ht c hc
  rw [List.mem_singleton.mp ht] at hc ⊢
  rw [List.mem_singleton.mp hc]
  exact fun _ => rfl

/-- After judging has begun a member of a frozen team is moved to another event's team, or the
frozen team is deleted and its members with it; either statement commits. -/
theorem freeze_evaded :
    (∃ tr, Run TeamStep Sample.opened tr Sample.judged) ∧
      (∃ status, Sample.judged.eventStatus "team" = some status ∧ PastLive status) ∧
      TeamStep Sample.judged (.statement Sample.moveOut) Sample.movedOut ∧
      (Sample.judged.transact [Sample.moveOut]).toOption.isSome ∧
      Sample.movedOut.memberSet "team" ≠ Sample.judged.memberSet "team" ∧
      TeamStep Sample.judged (.statement Sample.deleteTeam) Sample.deleted ∧
      (Sample.judged.transact [Sample.deleteTeam]).toOption.isSome ∧
      Sample.deleted.memberSet "team" ≠ Sample.judged.memberSet "team" := by
  have hmember : ("member'", "wallet'", 4000, 1) ∈ Sample.judged.memberSet "team" :=
    ⟨"member'", ⟨"team", "event", "wallet'", 4000, 1⟩, by decide +kernel, rfl, rfl⟩
  have hgone : ∀ db : Tables, (db.teamMembers.lookup "member'").map (·.teamId) ≠ some "team" →
      db.memberSet "team" ≠ Sample.judged.memberSet "team" := by
    intro db hdb heq
    rw [← heq] at hmember
    obtain ⟨id, m, hlookup, hteam, hx⟩ := hmember
    obtain ⟨rfl, -⟩ := Prod.mk.inj hx
    exact hdb (by rw [hlookup, Option.map_some, hteam])
  exact ⟨⟨_, Sample.atJudging_run.snoc Sample.judging_begins⟩,
    ⟨.judging, by decide +kernel, .inl rfl⟩, TeamOp.step (Option.some_get _).symm,
    by decide +kernel, hgone _ (by decide +kernel), TeamOp.step (Option.some_get _).symm,
    by decide +kernel, hgone _ (by decide +kernel)⟩

end TeamTables
