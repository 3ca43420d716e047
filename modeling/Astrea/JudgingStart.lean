/-
# The start of the judging

Only the organizer starts the judging of a live event, and no team is inserted for the event from
then on (`judging_closes_registration`).  A team whose rows were already inserted may still be
committed afterwards: the trigger looks at the event without locking it.
-/
import Astrea.Registration

open Interleave
open Service (RowId EventStatus JsString jsText PastLive)
open TeamTables (Tables)

namespace EventPage

variable {ν : Type} {d : Deployment ν} {tr tr' : List (PageTransition ν)} {c c' : PageConfig ν}

/-! ## Who moves an event from live to judged -/

section Step

variable {s s' : Site ν} {eventId : RowId}

/-- A call that starts the judging is the update that does so. -/
theorem Performed.startsJudging {op : Op ν} {r : op.Res} (hp : Performed d.server s op r s')
    (hlive : s.db.events.lookup eventId = some .live)
    (hjudging : s'.db.events.lookup eventId = some .judging) :
    (⟨op, r⟩ : Done ν) = ⟨.updateEventStatus eventId .live .judging, (1 : ℕ)⟩ := by
  have hsame : s'.db.events = s.db.events → False := by
    intro heq
    rw [heq, hlive] at hjudging
    exact nomatch hjudging
  cases hp with
  | @moved id old new status =>
      by_cases heq : eventId = id
      · subst heq
        rw [hlive] at status
        rw [AList.lookup_insert] at hjudging
        cases status
        cases hjudging
        rfl
      · rw [AList.lookup_insert_ne heq, hlive] at hjudging
        exact nomatch hjudging
  | _ => exact (hsame rfl).elim

/-- No other part of the application does. -/
theorem Moved.not_startsJudging {event : EnvEvent} (hm : Moved s event s')
    (hlive : s.db.events.lookup eventId = some .live) :
    s'.db.events.lookup eventId ≠ some .judging := by
  intro hjudging
  cases hm with
  | draft fresh unknown =>
      rw [lookup_insert_of_none fresh hlive] at hjudging
      exact nomatch hjudging
  | @status id old new status change =>
      by_cases heq : eventId = id
      · subst heq
        rw [hlive] at status
        rw [AList.lookup_insert] at hjudging
        cases status
        cases hjudging
        exact absurd change (by decide)
      · rw [AList.lookup_insert_ne heq, hlive] at hjudging
        exact nomatch hjudging
  | wallet fresh =>
      rw [hlive] at hjudging
      exact nomatch hjudging
  | refer =>
      rw [hlive] at hjudging
      exact nomatch hjudging

end Step

/-- The organizer's request started the judging. -/
def StartedByOrganizer (tr : List (PageTransition ν)) (e : PageTransition ν) (eventId : RowId) :
    Prop :=
  ∃ t req text wallet info, e.label = .did t ⟨.updateEventStatus eventId .live .judging, (1 : ℕ)⟩ ∧
    (requestsOf tr)[t]? = some req ∧ req.action = .startJudging text ∧
    uuidOf text = some eventId ∧ SessionOf (historyOf t e.pre.log) req wallet ∧
    e.pre.world.events.lookup eventId = some info ∧ info.organizerWalletId = wallet.id

/-- Only a session of the organizer moves a live event to judging. -/
theorem PageRun.startedByOrganizer (hr : PageRun d tr c) {e : PageTransition ν} (he : e ∈ tr)
    {eventId : RowId} (hlive : e.pre.world.db.events.lookup eventId = some .live)
    (hjudging : e.post.world.db.events.lookup eventId = some .judging) :
    StartedByOrganizer tr e eventId := by
  obtain ⟨t, hl⟩ : ∃ t, e.label = .did t ⟨.updateEventStatus eventId .live .judging, (1 : ℕ)⟩ := by
    obtain ⟨before, after, rfl⟩ := List.append_of_mem he
    obtain ⟨-, hstep, -⟩ := hr.split
    obtain ⟨pre, label, post⟩ := e
    simp only at hlive hjudging hstep ⊢
    cases hstep with
    | spawn =>
        rw [Config.spawn, hlive] at hjudging
        cases hjudging
    | env moved => exact absurd hjudging ((environment_eq_some moved).not_startsJudging hlive)
    | @did t op next choice r w thread performed =>
        exact ⟨t, congrArg _ ((perform_eq_some performed).startsJudging hlive hjudging)⟩
  obtain ⟨req, before, after, -, hrun, hreq, ⟨-, -, text, wallet, event, haction, htext, hsession,
    hread, horganizer⟩, -⟩ := hr.at_call he hl
  have hseen := hrun.eventsSound.read t _ event (mem_historyOf.mp hread)
  exact ⟨t, req, text, wallet, _, hl, hreq, haction, htext, hsession, hseen.info, horganizer⟩

/-! ## Events past `LIVE` -/

/-- No team of the event is there, or on its way, that was not there or on its way before. -/
structure NoNewTeams (eventId : RowId) (s s' : Site ν) : Prop where
  inserted : ∀ i ∈ s'.inserted, i.team.eventId = eventId → i ∈ s.inserted
  teams : ∀ teamId, s'.db.teams.lookup teamId = some ⟨eventId⟩ →
    s.db.teams.lookup teamId = some ⟨eventId⟩ ∨
      ∃ i ∈ s.inserted, i.teamId = teamId ∧ i.team.eventId = eventId

/-- A call inserts no team for an event that is past `LIVE`. -/
theorem Performed.noNewTeams {s₀ s s' : Site ν} {op : Op ν} {r : op.Res} {eventId : RowId}
    {status : EventStatus} (hp : Performed d.server s op r s') (h : NoNewTeams eventId s₀ s)
    (hstatus : s.db.events.lookup eventId = some status) (hpast : PastLive status) :
    NoNewTeams eventId s₀ s' := by
  cases hp with
  | @inserted i tables cs team member accepted =>
      refine ⟨fun j hj hevent => ?_, h.teams⟩
      rcases List.mem_append.mp hj with hj | hj
      · exact h.inserted j hj hevent
      · -- the trigger has refused it
        rw [List.mem_singleton.mp hj] at hevent
        rw [← hevent] at hstatus
        exact absurd (execAll_statements accepted hstatus)
          (TeamTables.not_allowed_of_pastLive hpast)
  | closed there => exact ⟨fun j hj => h.inserted j (List.mem_filter.mp hj).1, h.teams⟩
  | @committed i r there free =>
      refine ⟨fun j hj => h.inserted j (List.mem_filter.mp hj).1, fun teamId hteam => ?_⟩
      rcases KeyTable.lookup_insert_eq_some.mp hteam with ⟨rfl, hrow⟩ | ⟨-, hold⟩
      · have hevent : i.team.eventId = eventId := (congrArg TeamTables.TeamRow.eventId hrow).symm
        exact .inr ⟨i, h.inserted i there hevent, rfl, hevent⟩
      · exact h.teams teamId hold
  | _ => exact ⟨h.inserted, h.teams⟩

/-- Past its live time an event gets no new teams. -/
theorem PageRun.noNewTeams (hr : PageRun d tr c) (hr' : Run (PageStep d) c tr' c')
    {eventId : RowId} {status : EventStatus}
    (hstatus : c.world.db.events.lookup eventId = some status) (hpast : PastLive status) :
    NoNewTeams eventId c.world c'.world := by
  induction hr' with
  | nil => exact ⟨fun _ hi _ => hi, fun _ hteam => .inl hteam⟩
  | @snoc tr' s l s' run step ih =>
      obtain ⟨status', hstatus', -, hpast'⟩ := (hr.forward run).status eventId status hstatus
      cases step with
      | spawn => exact ih
      | env moved =>
          cases environment_eq_some moved <;> exact ⟨ih.inserted, ih.teams⟩
      | did thread performed =>
          exact (perform_eq_some performed).noNewTeams ih hstatus' (hpast' hpast)

/-! ## Teams stay -/

/-- The teams that are committed stay. -/
theorem PageRun.teams_stay (hr' : Run (PageStep d) c tr' c') {rows : List (Inserted ν)}
    (h : TeamsSound c.world c.log rows) :
    ∃ rows', rows ⊆ rows' ∧ TeamsSound c'.world c'.log rows' := by
  induction hr' with
  | nil => exact ⟨rows, fun _ hi => hi, h⟩
  | @snoc tr' s l s' run step ih =>
      obtain ⟨rows', hsub, h'⟩ := ih
      cases step with
      | spawn => exact ⟨rows', hsub, h'⟩
      | env moved => exact ⟨rows', hsub, h'.moved (environment_eq_some moved)⟩
      | @did t op next choice r w thread performed =>
          rcases h'.step (t := t) (perform_eq_some performed) with h'' | ⟨i, -, h''⟩
          · exact ⟨rows', hsub, h''⟩
          · exact ⟨i :: rows', fun _ hx => List.mem_cons_of_mem _ (hsub hx), h''⟩

/-- The members of a committed team. -/
theorem TeamsSound.memberSet {s : Site ν} {log : Log ν} {rows : List (Inserted ν)}
    (h : TeamsSound s log rows) {i : Inserted ν} (hi : i ∈ rows) :
    s.db.memberSet i.teamId = {(i.memberId, i.memberRow.walletId, i.memberRow.shareBasisPoints,
      i.memberRow.ordinal)} := by
  ext x
  rw [Set.mem_singleton_iff]
  constructor
  · rintro ⟨id, m, hm, hteam, rfl⟩
    obtain ⟨j, hj, rfl, rfl⟩ := (h.members id m).mp hm
    obtain rfl := h.distinct j i (.inl hj) (.inl hi) (.inl hteam)
    rfl
  · rintro rfl
    exact ⟨i.memberId, i.memberRow, (h.members _ _).mpr ⟨i, hi, rfl, rfl⟩, rfl, rfl⟩

/-- **The start of the judging.**  A live event comes to be judged by a request of its organizer;
from then on every team of it is one that was there or on its way, and the teams that were there
stay as they were. -/
theorem judging_closes_registration {before after : List (PageTransition ν)} {e : PageTransition ν}
    {eventId : RowId} (hr : PageRun d (before ++ e :: after) c)
    (hlive : e.pre.world.db.events.lookup eventId = some .live)
    (hjudging : e.post.world.db.events.lookup eventId = some .judging) :
    StartedByOrganizer (before ++ e :: after) e eventId ∧
      NoNewTeams eventId e.pre.world c.world ∧
      ∀ teamId row, e.pre.world.db.teams.lookup teamId = some row →
        c.world.db.teams.lookup teamId = some row ∧
        c.world.db.memberSet teamId = e.pre.world.db.memberSet teamId := by
  obtain ⟨hbefore, hstep, hafter⟩ := hr.split
  have hstarted := hr.startedByOrganizer (List.mem_append_right _ List.mem_cons_self) hlive hjudging
  have hclosed := PageRun.noNewTeams (hbefore.snoc hstep) hafter hjudging (.inl rfl)
  refine ⟨hstarted, ?_, fun teamId row hrow => ?_⟩
  · -- the step that starts the judging touches no team
    obtain ⟨t, -, -, -, -, hl, -⟩ := hstarted
    obtain ⟨-, -, -, -, -, -, -, hp⟩ := hr.at_call (List.mem_append_right _ List.mem_cons_self) hl
    generalize e.pre.world = s at hp hlive ⊢
    generalize e.post.world = s' at hp hclosed
    cases hp with
    | moved => exact ⟨hclosed.inserted, hclosed.teams⟩
  · obtain ⟨rows, h⟩ := PageRun.teamsSound hbefore
    obtain ⟨rows', hsub, h'⟩ := PageRun.teams_stay ((Run.single hstep).append hafter) h
    obtain ⟨i, hi, rfl, rfl⟩ := (h.teams teamId row).mp hrow
    exact ⟨(h'.teams _ _).mpr ⟨i, hsub hi, rfl, rfl⟩,
      (h'.memberSet (hsub hi)).trans (h.memberSet hi).symm⟩

/-! ## A late commit -/

namespace Sample

/-- The rows of a team are inserted, and the organizer has asked for the start of the judging. -/
def wait : List (Move Request (Choice ℤ) EnvEvent) :=
  [.event (.wallet walletId (.account 1))] ++ goLive false ++ register 0 [] ++
    [.request ⟨some organizerId, .startJudging eventId⟩, .call 1 .ok, .call 1 .ok]

theorem wait_plays : (play (serve deployment) (Site.perform server) Site.environment
    (start launched) wait).isSome = true := by decide +kernel

def waiting : List (PageTransition ℤ) × PageConfig ℤ :=
  played (serve deployment) (Site.perform server) Site.environment (start launched) wait wait_plays

theorem judging_plays : (stepOf (serve deployment) (Site.perform server) Site.environment waiting.2
    (.call 1 .ok)).isSome = true := by decide +kernel

/-- The judging begins. -/
def judged : PageLabel ℤ × PageConfig ℤ :=
  (stepOf (serve deployment) (Site.perform server) Site.environment waiting.2 (.call 1 .ok)).get
    judging_plays

theorem commit_plays : (play (serve deployment) (Site.perform server) Site.environment judged.2
    [.call 0 .ok]).isSome = true := by decide +kernel

/-- The team is committed. -/
def late : List (PageTransition ℤ) × PageConfig ℤ :=
  played (serve deployment) (Site.perform server) Site.environment judged.2 [.call 0 .ok] commit_plays

theorem late_ends : late.2.world.db.teams.lookup "team" = some ⟨eventId⟩ ∧
    waiting.2.world.db.teams.lookup "team" = none ∧
    waiting.2.world.db.events.lookup eventId = some .live ∧
    judged.2.world.db.events.lookup eventId = some .judging := by decide +kernel

theorem late_run : PageRun deployment (waiting.1 ++ ⟨waiting.2, judged.1, judged.2⟩ :: late.1)
    late.2 := by
  have hbefore : PageRun deployment waiting.1 waiting.2 := run_played _ _ _ wait_plays
  have hstep : PageStep deployment waiting.2 judged.1 judged.2 :=
    step_of_stepOf (serve deployment) (Site.perform server) Site.environment
      (Option.some_get judging_plays).symm
  have hafter : Run (PageStep deployment) judged.2 late.1 late.2 := run_played _ _ _ commit_plays
  rw [List.append_cons]
  exact (hbefore.snoc hstep).append hafter

end Sample

/-- A team that was on its way is committed after the judging has begun. -/
theorem judging_closes_registration_late :
    Sample.late.2.world.db.teams.lookup "team" = some ⟨Sample.eventId⟩ ∧
      Sample.waiting.2.world.db.teams.lookup "team" = none ∧
      NoNewTeams Sample.eventId Sample.waiting.2.world Sample.late.2.world := by
  obtain ⟨hlate, hwaiting, hlive, hjudging⟩ := Sample.late_ends
  exact ⟨hlate, hwaiting, (judging_closes_registration Sample.late_run hlive hjudging).2.1⟩

end EventPage
