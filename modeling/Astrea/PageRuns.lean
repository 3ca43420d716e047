/-
# Runs of the page

Any number of requests take turns with each other and with the rest of the application.  Events
only go forward: one that was live is live or past it (`Forward`).  So a status that a function
read long ago still says something, and together with the trigger that looks at the event once
more it says that a team is inserted while its event is live (`PageRun.inserted_live`).
-/
import Astrea.EventPageObligations
import Astrea.TeamFreeze

open Guard Interleave
open Service (RowId EventStatus canTransitionEvent PastLive)
open TeamTables (Tables)

namespace EventPage

variable {ν : Type} {d : Deployment ν}

/-! ## Runs -/

abbrev PageConfig (ν : Type) : Type := Interleave.Config (Site ν) (Op ν) Op.Res Outcome

abbrev PageLabel (ν : Type) : Type := Interleave.Label (Op ν) Op.Res Request EnvEvent

/-- One step of the page. -/
abbrev PageStep (d : Deployment ν) : PageConfig ν → PageLabel ν → PageConfig ν → Prop :=
  Interleave.Step (serve d) (Site.perform d.server) Site.environment

abbrev PageTransition (ν : Type) : Type := Transition (PageConfig ν) (PageLabel ν)

/-- A run of the page from its launch. -/
abbrev PageRun (d : Deployment ν) (tr : List (PageTransition ν)) (c : PageConfig ν) : Prop :=
  Run (PageStep d) (start launched) tr c

/-- Some request may make the call. -/
def Orderly (d : Deployment ν) (h : List (Done ν)) (op : Op ν) : Prop := ∃ req, MayCall d req h op

/-- Every action makes only orderly calls. -/
theorem serve_orderly (d : Deployment ν) (req : Request) :
    (serve d req).Safe (Orderly d) [] fun _ _ => True :=
  ((serve_ends d req).weaken fun _ _ hop => ⟨req, hop⟩).mono fun _ _ _ => trivial

variable {tr : List (PageTransition ν)} {c : PageConfig ν}

/-- The invariant rule: a property of the world and the log that every orderly call and every
move of the environment keep. -/
theorem PageRun.invariant {I : Site ν → Log ν → Prop} (hr : PageRun d tr c) (h₀ : I launched [])
    (hcall : ∀ s s' log t op (r : op.Res), I s log → Orderly d (historyOf t log) op →
      Performed d.server s op r s' → I s' ((t, ⟨op, r⟩) :: log))
    (henv : ∀ s s' log event, I s log → Moved s event s' → I s' log) : I c.world c.log :=
  invariant_of_calls (C := fun _ => True) (serve_orderly d) hr (fun _ _ => trivial) h₀
    (fun c t op _ r w _ _ _ hI hop hperf => hcall c.world w c.log t op r hI hop (perform_eq_some hperf))
    (fun c event w _ _ hI hmove => henv c.world w c.log event hI (environment_eq_some hmove))

/-! ## Events go forward -/

/-- Of an event that was live one knows where it is, what does not change has not, and wallets
stay. -/
structure Forward (s s' : Site ν) : Prop where
  status : ∀ id old, s.db.events.lookup id = some old → ∃ new, s'.db.events.lookup id = some new ∧
    (old = .live → new = .live ∨ PastLive new) ∧ (PastLive old → PastLive new)
  infos : ∀ id info, s.events.lookup id = some info → s'.events.lookup id = some info
  wallets : ∀ id address, s.db.wallets.lookup id = some address →
    s'.db.wallets.lookup id = some address

section Forward

variable {s s' s'' : Site ν}

theorem Forward.of_eq (hevents : s'.db.events = s.db.events) (hinfos : s'.events = s.events)
    (hwallets : s'.db.wallets = s.db.wallets) : Forward s s' where
  status := fun id old hold => ⟨old, by rw [hevents]; exact hold, .inl, fun h => h⟩
  infos := fun id info hinfo => by rw [hinfos]; exact hinfo
  wallets := fun id address haddress => by rw [hwallets]; exact haddress

theorem Forward.trans (h : Forward s s') (h' : Forward s' s'') : Forward s s'' where
  status := by
    intro id old hold
    obtain ⟨mid, hmid, hlive, hpast⟩ := h.status id old hold
    obtain ⟨new, hnew, hlive', hpast'⟩ := h'.status id mid hmid
    refine ⟨new, hnew, fun hold => ?_, fun hold => hpast' (hpast hold)⟩
    exact (hlive hold).elim hlive' fun hmid => .inr (hpast' hmid)
  infos := fun id info hinfo => h'.infos id info (h.infos id info hinfo)
  wallets := fun id address haddress => h'.wallets id address (h.wallets id address haddress)

/-- A status is replaced by a later one. -/
theorem Forward.setStatus {id : RowId} {old new : EventStatus}
    (hold : s.db.events.lookup id = some old) (hlive : old = .live → PastLive new)
    (hpast : PastLive old → PastLive new) :
    Forward s { s with db := { s.db with events := s.db.events.insert id new } } where
  status := by
    intro id' old' hold'
    by_cases heq : id' = id
    · subst heq
      obtain rfl := Option.some_inj.mp (hold.symm.trans hold')
      exact ⟨new, AList.lookup_insert _, fun h => .inr (hlive h), hpast⟩
    · exact ⟨old', (AList.lookup_insert_ne heq).trans hold', .inl, fun h => h⟩
  infos := fun _ _ hinfo => hinfo
  wallets := fun _ _ haddress => haddress

theorem lookup_insert_of_none {κ α : Type} [DecidableEq κ] {t : KeyTable κ α} {k k' : κ} {v v' : α}
    (hfresh : t.lookup k = none) (h : t.lookup k' = some v') :
    (t.insert k v).lookup k' = some v' := by
  refine KeyTable.lookup_insert_eq_some.mpr (.inr ⟨?_, h⟩)
  rintro rfl
  rw [hfresh] at h
  exact nomatch h

/-- Every call takes events forward. -/
theorem Performed.forward {op : Op ν} {r : op.Res} {h : List (Done ν)}
    (hp : Performed d.server s op r s') (hop : Orderly d h op) : Forward s s' := by
  cases hp with
  | moved status =>
      obtain ⟨req, rfl, rfl, -⟩ := hop
      exact .setStatus status (fun _ => .inl rfl) fun _ => .inl rfl
  | _ => exact .of_eq rfl rfl rfl

/-- And so does everything else that happens. -/
theorem Moved.forward {event : EnvEvent} (hm : Moved s event s') : Forward s s' := by
  cases hm with
  | wallet fresh =>
      exact ⟨(Forward.of_eq rfl rfl rfl).status, fun _ _ hinfo => hinfo,
        fun _ _ haddress => lookup_insert_of_none fresh haddress⟩
  | draft fresh unknown =>
      refine ⟨fun id old hold => ⟨old, lookup_insert_of_none fresh hold, .inl, fun h => h⟩,
        fun _ _ hinfo => lookup_insert_of_none unknown hinfo, fun _ _ haddress => haddress⟩
  | @status id old new status change =>
      refine .setStatus status ?_ ?_
      · rintro rfl
        rcases change with ⟨hedge, hother⟩ | ⟨hpast, rfl⟩
        · revert hedge hother
          cases new <;> decide
        · exact absurd hpast (by decide)
      · intro hpast
        rcases change with ⟨hedge, -⟩ | ⟨-, rfl⟩
        · exact hpast.transition hedge
        · exact .inr (.inl rfl)
  | refer => exact .of_eq rfl rfl rfl

/-- So they do over a whole run. -/
theorem PageRun.forward {tr' : List (PageTransition ν)} {c' : PageConfig ν} (hr : PageRun d tr c)
    (hr' : Run (PageStep d) c tr' c') : Forward c.world c'.world := by
  induction hr' with
  | nil => exact .of_eq rfl rfl rfl
  | @snoc tr' s l s' run step ih =>
      refine ih.trans ?_
      cases step with
      | spawn => exact .of_eq rfl rfl rfl
      | env moved => exact (environment_eq_some moved).forward
      | did thread performed =>
          exact (perform_eq_some performed).forward
            ((obeys_of_run (serve_orderly d) (hr.append run)).permitted thread)

end Forward

/-! ## What was read of events and wallets -/

/-- What was read of an event still holds, its status in so far as it goes forward. -/
structure SeenAs (s : Site ν) (id : RowId) (event : EventFields) : Prop where
  status : ∃ status, s.db.events.lookup id = some status ∧
    (event.status = .live → status = .live ∨ PastLive status)
  info : s.events.lookup id = some ⟨event.organizerWalletId, event.requireGithub⟩

/-- The log agrees with the events and the wallets. -/
structure EventsSound (s : Site ν) (log : Log ν) : Prop where
  read : ∀ t id event, (t, ⟨.findEvent id, some event⟩) ∈ log → SeenAs s id event
  judged : ∀ t id (count : ℕ), (t, ⟨.updateEventStatus id .live .judging, count⟩) ∈ log →
    count ≠ 0 → ∃ status, s.db.events.lookup id = some status ∧ PastLive status
  sessions : ∀ t id w, (t, ⟨.findWallet id, .ok (some w)⟩) ∈ log →
    s.db.wallets.lookup w.id = some w.address ∧ w.id ≠ ""

section Step

variable {s s' : Site ν} {log : Log ν}

/-- What was seen of an event stays seen as events go forward. -/
theorem SeenAs.forward {id : RowId} {event : EventFields} (h : SeenAs s id event)
    (hf : Forward s s') : SeenAs s' id event := by
  obtain ⟨⟨status, hstatus, hlive⟩, hinfo⟩ := h
  obtain ⟨new, hnew, hlive', hpast'⟩ := hf.status id status hstatus
  exact ⟨⟨new, hnew, fun h => (hlive h).elim hlive' fun h' => .inr (hpast' h')⟩, hf.infos _ _ hinfo⟩

theorem EventsSound.forward (h : EventsSound s log) (hf : Forward s s') : EventsSound s' log where
  read := fun t id event hmem => (h.read t id event hmem).forward hf
  judged := by
    intro t id count hmem hcount
    obtain ⟨status, hstatus, hpast⟩ := h.judged t id count hmem hcount
    obtain ⟨new, hnew, -, hpast'⟩ := hf.status id status hstatus
    exact ⟨new, hnew, hpast' hpast⟩
  sessions := fun t id w hmem =>
    ⟨hf.wallets _ _ (h.sessions t id w hmem).1, (h.sessions t id w hmem).2⟩

theorem seenAs_eventFields {id : RowId} {event : EventFields} (h : s.eventFields id = some event) :
    SeenAs s id event := by
  unfold Site.eventFields at h
  split at h
  · rename_i status info hstatus hinfo
    cases h
    exact ⟨⟨status, hstatus, .inl⟩, hinfo⟩
  · exact nomatch h

/-- A `uuid` is not the empty text. -/
theorem toLower_ne_empty {id : String} (h : Service.uuidPattern id = true) : id.toLower ≠ "" := by
  intro heq
  have hlower : id.toLower.toList = id.toList.map Char.toLower := String.toList_map
  have hlength := (Service.PathID.mk id h).length
  rw [heq] at hlower
  have hempty : id.toList = [] := List.map_eq_nil_iff.mp hlower.symm
  rw [hempty, List.length_nil] at hlength
  omega

/-- A call keeps what was read of events sound. -/
theorem EventsSound.step {t : ℕ} {op : Op ν} {r : op.Res} (h : EventsSound s log)
    (hop : Orderly d (historyOf t log) op) (hp : Performed d.server s op r s') :
    EventsSound s' ((t, ⟨op, r⟩) :: log) := by
  have hf := hp.forward hop
  have hold := h.forward hf
  constructor
  · intro t' id event hmem
    rcases List.mem_cons.mp hmem with heq | hmem
    · cases heq
      cases hp with
      | eventFound stored => exact seenAs_eventFields stored.symm
    · exact hold.read t' id event hmem
  · intro t' id count hmem hcount
    rcases List.mem_cons.mp hmem with heq | hmem
    · cases heq
      cases hp with
      | moved status => exact ⟨.judging, AList.lookup_insert _, .inl rfl⟩
      | stale => exact absurd rfl hcount
    · exact hold.judged t' id count hmem hcount
  · intro t' id w hmem
    rcases List.mem_cons.mp hmem with heq | hmem
    · cases heq
      cases hp with
      | walletFound stored =>
          obtain ⟨hwallet, huuid, hid⟩ := stored w rfl
          exact ⟨hwallet, hid ▸ toLower_ne_empty huuid⟩
    · exact hold.sessions t' id w hmem

end Step

/-- In every run the log agrees with the events. -/
theorem PageRun.eventsSound (hr : PageRun d tr c) : EventsSound c.world c.log :=
  hr.invariant ⟨fun _ _ _ h => absurd h List.not_mem_nil, fun _ _ _ h => absurd h List.not_mem_nil,
      fun _ _ _ h => absurd h List.not_mem_nil⟩
    (fun _ _ _ _ _ _ hI hop hp => hI.step hop hp) fun _ _ _ _ hI hm => hI.forward hm.forward

/-! ## A team is inserted while its event is live -/

/-- One row is inserted into a table, and nothing else happens. -/
theorem exec_insert {db db' : Tables} {statement : TeamTables.Statement}
    {change : TeamTables.RowChange} {cs : List TeamTables.RowChange}
    (hchanges : statement.changes = [change]) (hnone : change.deletedTeam = none)
    (h : db.exec statement = .ok (db', cs)) : db.change change = .ok db' := by
  obtain ⟨changed, hchanged, hcascade, -, -⟩ := TeamTables.exec_eq_ok.mp h
  have hempty : TeamTables.cascade changed statement.changes = [] := by
    rw [TeamTables.cascade, hchanges, List.filterMap_cons_none hnone, List.filterMap_nil,
      List.flatMap_nil]
  rw [hempty] at hcascade
  obtain rfl := Except.ok.inj hcascade
  rw [hchanges, Tables.changeAll, bind_eq_ok] at hchanged
  obtain ⟨db₁, hchange, heq⟩ := hchanged
  obtain rfl := Except.ok.inj heq
  exact hchange

/-- What the database accepts, it accepts for an event that is not past `LIVE`. -/
theorem execAll_statements {db db' : Tables} {i : Inserted ν} {cs : List TeamTables.RowChange}
    (h : db.execAll i.statements = .ok (db', cs)) {status : EventStatus}
    (hstatus : db.events.lookup i.team.eventId = some status) :
    status ∈ [EventStatus.draft, .created, .live] := by
  simp only [Inserted.statements, Tables.execAll, bind_eq_ok, pure_eq_ok, Prod.exists] at h
  obtain ⟨db₁, cs₁, hteam, db₂, cs₂, ⟨db₃, cs₃, hmember, -⟩, -⟩ := h
  obtain ⟨-, rfl⟩ := TeamTables.change_team_eq_ok.mp (exec_insert rfl rfl hteam)
  obtain ⟨hchange, -⟩ := TeamTables.change_teamMember_eq_ok.mp (exec_insert rfl rfl hmember)
  refine hchange.notFrozen i.teamId status rfl ?_
  rw [Tables.eventStatus]
  have hrow : (db.teams.replace none (some (i.teamId, i.teamRow))).lookup i.teamId
      = some i.teamRow := AList.lookup_insert _
  simp only [hrow]
  exact hstatus

/-- A call of a run is permitted to its request, and is made in the world it finds. -/
theorem PageRun.at_call (hr : PageRun d tr c) {e : PageTransition ν} (he : e ∈ tr) {t : ℕ}
    {dn : Done ν} (hl : e.label = .did t dn) :
    ∃ req before after, tr = before ++ e :: after ∧ PageRun d before e.pre ∧
      (requestsOf tr)[t]? = some req ∧ MayCall d req (historyOf t e.pre.log) dn.op ∧
      Performed d.server e.pre.world dn.op dn.res e.post.world := by
  obtain ⟨before, after, rfl⟩ := List.append_of_mem he
  obtain ⟨hrun, hstep, -⟩ := hr.split
  rw [hl] at hstep
  obtain ⟨req, hreq, hop⟩ := permitted_of_run (serve_ends d) hrun hstep
  refine ⟨req, before, after, rfl, hrun, requested_append hreq _, hop, ?_⟩
  obtain ⟨pre, label, post⟩ := e
  simp only at hstep ⊢
  cases hstep with
  | did thread performed => exact perform_eq_some performed

/-- The request that inserts a team has passed every check, and its event is still live. -/
theorem PageRun.inserted_live (hr : PageRun d tr c) {e : PageTransition ν} (he : e ∈ tr) {t : ℕ}
    {team : TeamData ν} {teamId : RowId} (hl : e.label = .did t ⟨.insertTeam team, .ok teamId⟩) :
    e.pre.world.db.events.lookup team.eventId = some .live ∧ ∃ req wallet,
      (requestsOf tr)[t]? = some req ∧ Registers d req (historyOf t e.pre.log) wallet team := by
  obtain ⟨req, before, after, -, hrun, hreq, ⟨wallet, hregisters⟩, hp⟩ := hr.at_call he hl
  refine ⟨?_, req, wallet, hreq, hregisters⟩
  -- the event was live when it was read, and the trigger has looked at it again
  obtain ⟨event, hread, hevent, -⟩ := hregisters.event
  obtain ⟨⟨status, hstatus, hlive⟩, -⟩ := hrun.eventsSound.read t _ event (mem_historyOf.mp hread)
  have hopen : status ∈ [EventStatus.draft, .created, .live] := by
    generalize hworld : e.pre.world = s at hp hstatus
    generalize e.post.world = s' at hp
    cases hp with
    | inserted _ _ accepted => exact execAll_statements accepted hstatus
  rcases hlive hevent with rfl | hpast
  · exact hstatus
  · exact absurd hopen (TeamTables.not_allowed_of_pastLive hpast)

end EventPage
