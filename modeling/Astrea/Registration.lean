/-
# Registrations

The tables of teams and members are those of a list of one-member teams: a team whose rows are
committed stays as it is, no wallet is in two teams of an event, and each team was inserted by a
request of its wallet's session that had passed every check while the event was live
(`registration_sound`).  A request that is told `ok` has its team, and one that is refused has
left nothing behind (`replies_sound`).
-/
import Astrea.LinkedAccounts

open Interleave
open Service (RowId EventStatus JsString PastLive jsText trim)
open GithubOAuth (Server)
open TeamTables (Tables TeamMemberRow)

namespace EventPage

variable {ν : Type} {d : Deployment ν} {tr : List (PageTransition ν)} {c : PageConfig ν}

/-! ## The tables of some teams -/

/-- The teams that are committed, or whose transaction is open. -/
def Known (s : Site ν) (rows : List (Inserted ν)) (i : Inserted ν) : Prop :=
  i ∈ rows ∨ i ∈ s.inserted

/-- The tables hold the rows of these teams, no id and no wallet of an event twice, and every
team was inserted by some call. -/
structure TeamsSound (s : Site ν) (log : Log ν) (rows : List (Inserted ν)) : Prop where
  teams : ∀ id team, s.db.teams.lookup id = some team ↔
    ∃ i ∈ rows, i.teamId = id ∧ i.teamRow = team
  members : ∀ id m, s.db.teamMembers.lookup id = some m ↔
    ∃ i ∈ rows, i.memberId = id ∧ i.memberRow = m
  infos : ∀ i ∈ rows, s.teamInfos.lookup i.teamId = some i.info
  distinct : ∀ i j, Known s rows i → Known s rows j →
    i.teamId = j.teamId ∨ i.memberId = j.memberId → i = j
  keys : ∀ i ∈ rows, ∀ j ∈ rows, i.key = j.key → i = j
  drawn : ∀ i, Known s rows i → i.teamId ∈ s.uuids ∧ i.memberId ∈ s.uuids
  logged : ∀ i, Known s rows i → ∃ t, (t, ⟨.insertTeam i.team, .ok i.teamId⟩) ∈ log
  logDrawn : ∀ t team id, (t, ⟨.insertTeam team, .ok id⟩) ∈ log → id ∈ s.uuids
  insertedOnce : ∀ t t' team team' id, (t, ⟨.insertTeam team, .ok id⟩) ∈ log →
    (t', ⟨.insertTeam team', .ok id⟩) ∈ log → t = t' ∧ team = team'
  committed : ∀ t id, (t, ⟨.commitTeam id, .ok ()⟩) ∈ log → ∃ i ∈ rows, i.teamId = id

section Step

variable {s s' : Site ν} {log : Log ν} {rows : List (Inserted ν)} {t : ℕ}

/-- What the log says of teams: that a team was inserted, or committed. -/
def Done.Creates : Done ν → Prop
  | ⟨.insertTeam _, .ok _⟩ => True
  | ⟨.commitTeam _, .ok _⟩ => True
  | _ => False

/-- A call that leaves the tables of the teams alone; it may draw ids and close transactions. -/
theorem TeamsSound.keep (h : TeamsSound s log rows) (hteams : s'.db.teams = s.db.teams)
    (hmembers : s'.db.teamMembers = s.db.teamMembers) (hinfos : s'.teamInfos = s.teamInfos)
    (hinserted : s'.inserted ⊆ s.inserted) (huuids : s.uuids ⊆ s'.uuids) {e : Done ν}
    (he : ¬ Done.Creates e) : TeamsSound s' ((t, e) :: log) rows := by
  have hknown : ∀ i, Known s' rows i → Known s rows i := fun i hi => hi.imp_right fun hi =>
    hinserted hi
  have hold : ∀ {t'} {e' : Done ν}, Done.Creates e' → (t', e') ∈ (t, e) :: log → (t', e') ∈ log := by
    intro t' e' hcreates hmem
    rcases List.mem_cons.mp hmem with heq | hmem
    · cases heq
      exact absurd hcreates he
    · exact hmem
  refine ⟨by rw [hteams]; exact h.teams, by rw [hmembers]; exact h.members,
    by rw [hinfos]; exact h.infos, fun i j hi hj => h.distinct i j (hknown i hi) (hknown j hj),
    h.keys, fun i hi => ?_, fun i hi => ?_, fun t' team id hmem => ?_,
    fun t' t'' team team' id hmem hmem' => ?_, fun t' id hmem => ?_⟩
  · exact ⟨huuids (h.drawn i (hknown i hi)).1, huuids (h.drawn i (hknown i hi)).2⟩
  · obtain ⟨t', hmem⟩ := h.logged i (hknown i hi)
    exact ⟨t', List.mem_cons_of_mem _ hmem⟩
  · exact huuids (h.logDrawn t' team id (hold trivial hmem))
  · exact h.insertedOnce t' t'' team team' id (hold trivial hmem) (hold trivial hmem')
  · exact h.committed t' id (hold trivial hmem)

/-- A team is inserted under new ids. -/
theorem TeamsSound.insert (h : TeamsSound s log rows) {i : Inserted ν} (hteam : i.teamId ∉ s.uuids)
    (hmember : i.memberId ∉ s.uuids) :
    TeamsSound { s with
        uuids := i.teamId :: i.memberId :: s.uuids, inserted := s.inserted ++ [i] }
      ((t, ⟨.insertTeam i.team, .ok i.teamId⟩) :: log) rows := by
  have hknown : ∀ j, j ∈ rows ∨ j ∈ s.inserted ++ [i] → Known s rows j ∨ j = i := by
    rintro j (hj | hj)
    · exact .inl (.inl hj)
    · rcases List.mem_append.mp hj with hj | hj
      · exact .inl (.inr hj)
      · exact .inr (List.mem_singleton.mp hj)
  -- nothing known has one of the new ids
  have hnew : ∀ j, Known s rows j → i.teamId ≠ j.teamId ∧ i.memberId ≠ j.memberId := fun j hj =>
    ⟨fun heq => hteam (heq ▸ (h.drawn j hj).1), fun heq => hmember (heq ▸ (h.drawn j hj).2)⟩
  have hsub : s.uuids ⊆ i.teamId :: i.memberId :: s.uuids := fun _ hx =>
    List.mem_cons_of_mem _ (List.mem_cons_of_mem _ hx)
  refine ⟨h.teams, h.members, h.infos, fun j k hj hk hsame => ?_, h.keys, fun j hj => ?_,
    fun j hj => ?_, fun t' team id hmem => ?_, fun t' t'' team team' id hmem hmem' => ?_,
    fun t' id hmem => ?_⟩
  · rcases hknown j hj with hj' | hj' <;> rcases hknown k hk with hk' | hk'
    · exact h.distinct j k hj' hk' hsame
    · subst hk'
      exact hsame.elim (fun heq => absurd heq.symm (hnew j hj').1)
        fun heq => absurd heq.symm (hnew j hj').2
    · subst hj'
      exact hsame.elim (fun heq => absurd heq (hnew k hk').1)
        fun heq => absurd heq (hnew k hk').2
    · rw [hj', hk']
  · rcases hknown j hj with hj | rfl
    · exact ⟨hsub (h.drawn j hj).1, hsub (h.drawn j hj).2⟩
    · exact ⟨List.mem_cons_self, List.mem_cons_of_mem _ List.mem_cons_self⟩
  · rcases hknown j hj with hj | rfl
    · obtain ⟨t', hmem⟩ := h.logged j hj
      exact ⟨t', List.mem_cons_of_mem _ hmem⟩
    · exact ⟨t, List.mem_cons_self⟩
  · rcases List.mem_cons.mp hmem with heq | hmem
    · cases heq
      exact List.mem_cons_self
    · exact hsub (h.logDrawn t' team id hmem)
  · rcases List.mem_cons.mp hmem with heq | hmem <;> rcases List.mem_cons.mp hmem' with heq' | hmem'
    · cases heq
      cases heq'
      exact ⟨rfl, rfl⟩
    · cases heq
      exact absurd (h.logDrawn t'' team' _ hmem') hteam
    · cases heq'
      exact absurd (h.logDrawn t' team _ hmem) hteam
    · exact h.insertedOnce t' t'' team team' id hmem hmem'
  · rcases List.mem_cons.mp hmem with heq | hmem
    · exact nomatch heq
    · exact h.committed t' id hmem

/-- No member row is found where there is none. -/
theorem memberOf_eq_none {eventId walletId id : RowId} {m : TeamMemberRow}
    (h : s.memberOf eventId walletId = none) (hm : s.db.teamMembers.lookup id = some m) :
    (m.eventId, m.walletId) ≠ (eventId, walletId) := by
  intro heq
  obtain ⟨rfl, rfl⟩ := Prod.mk.injEq .. ▸ heq
  have hnone := List.find?_eq_none.mp (Option.map_eq_none_iff.mp h) ⟨id, m⟩
    (AList.mem_lookup_iff.mp hm)
  simp at hnone

/-- A team whose transaction is open is committed. -/
theorem TeamsSound.commit (h : TeamsSound s log rows) {i : Inserted ν} (hi : i ∈ s.inserted)
    (hfree : s.memberOf i.team.member.eventId i.team.member.walletId = none)
    {r : Except Failure Unit} :
    TeamsSound { s.close i with
        db := i.commit s.db, teamInfos := s.teamInfos.insert i.teamId i.info }
      ((t, ⟨.commitTeam i.teamId, r⟩) :: log) (i :: rows) := by
  have hknown : ∀ j, j ∈ i :: rows ∨ j ∈ (s.close i).inserted → Known s rows j := by
    rintro j (hj | hj)
    · rcases List.mem_cons.mp hj with rfl | hj
      · exact .inr hi
      · exact .inl hj
    · exact .inr (List.mem_filter.mp hj).1
  have hself : Known s rows i := .inr hi
  refine ⟨fun id team => ?_, fun id m => ?_, fun j hj => ?_,
    fun j k hj hk => h.distinct j k (hknown j hj) (hknown k hk), fun j hj k hk hsame => ?_,
    fun j hj => h.drawn j (hknown j hj), fun j hj => ?_, fun t' team id hmem => ?_,
    fun t' t'' team team' id hmem hmem' => ?_, fun t' id hmem => ?_⟩
  · simp only [Inserted.commit, KeyTable.lookup_insert_eq_some, List.mem_cons, exists_eq_or_imp]
    constructor
    · rintro (⟨rfl, rfl⟩ | ⟨-, hold⟩)
      · exact .inl ⟨rfl, rfl⟩
      · exact .inr ((h.teams id team).mp hold)
    · rintro (⟨rfl, rfl⟩ | ⟨j, hj, rfl, rfl⟩)
      · exact .inl ⟨rfl, rfl⟩
      · by_cases heq : j.teamId = i.teamId
        · obtain rfl := h.distinct j i (.inl hj) hself (.inl heq)
          exact .inl ⟨rfl, rfl⟩
        · exact .inr ⟨heq, (h.teams _ _).mpr ⟨j, hj, rfl, rfl⟩⟩
  · simp only [Inserted.commit, KeyTable.lookup_insert_eq_some, List.mem_cons, exists_eq_or_imp]
    constructor
    · rintro (⟨rfl, rfl⟩ | ⟨-, hold⟩)
      · exact .inl ⟨rfl, rfl⟩
      · exact .inr ((h.members id m).mp hold)
    · rintro (⟨rfl, rfl⟩ | ⟨j, hj, rfl, rfl⟩)
      · exact .inl ⟨rfl, rfl⟩
      · by_cases heq : j.memberId = i.memberId
        · obtain rfl := h.distinct j i (.inl hj) hself (.inr heq)
          exact .inl ⟨rfl, rfl⟩
        · exact .inr ⟨heq, (h.members _ _).mpr ⟨j, hj, rfl, rfl⟩⟩
  · rcases List.mem_cons.mp hj with rfl | hj
    · exact AList.lookup_insert _
    · by_cases heq : j.teamId = i.teamId
      · obtain rfl := h.distinct j i (.inl hj) hself (.inl heq)
        exact AList.lookup_insert _
      · exact (AList.lookup_insert_ne heq).trans (h.infos j hj)
  · -- the unique index had room for the new row
    have hroom : ∀ j ∈ rows, j.key ≠ i.key := fun j hj =>
      memberOf_eq_none hfree ((h.members j.memberId j.memberRow).mpr ⟨j, hj, rfl, rfl⟩)
    rcases List.mem_cons.mp hj with hj' | hj' <;> rcases List.mem_cons.mp hk with hk' | hk'
    · rw [hj', hk']
    · exact absurd (hj' ▸ hsame.symm) (hroom k hk')
    · exact absurd (hk' ▸ hsame) (hroom j hj')
    · exact h.keys j hj' k hk' hsame
  · obtain ⟨t', hmem⟩ := h.logged j (hknown j hj)
    exact ⟨t', List.mem_cons_of_mem _ hmem⟩
  · rcases List.mem_cons.mp hmem with heq | hmem
    · exact nomatch heq
    · exact h.logDrawn t' team id hmem
  · rcases List.mem_cons.mp hmem with heq | hmem <;> rcases List.mem_cons.mp hmem' with heq' | hmem'
    · exact nomatch heq
    · exact nomatch heq
    · exact nomatch heq'
    · exact h.insertedOnce t' t'' team team' id hmem hmem'
  · rcases List.mem_cons.mp hmem with heq | hmem
    · cases heq
      exact ⟨i, List.mem_cons_self, rfl⟩
    · obtain ⟨j, hj, hid⟩ := h.committed t' id hmem
      exact ⟨j, List.mem_cons_of_mem _ hj, hid⟩

/-- A call keeps the teams there are, and may add one. -/
theorem TeamsSound.step {srv : Server ν} {op : Op ν} {r : op.Res} (h : TeamsSound s log rows)
    (hp : Performed srv s op r s') :
    TeamsSound s' ((t, ⟨op, r⟩) :: log) rows ∨
      ∃ i ∈ s.inserted, TeamsSound s' ((t, ⟨op, r⟩) :: log) (i :: rows) := by
  cases hp with
  | inserted team member accepted => exact .inl (h.insert team member)
  | committed there free => exact .inr ⟨_, there, h.commit there free⟩
  | closed there =>
      refine .inl (h.keep ?_ ?_ ?_ ?_ ?_ ?_)
      · rfl
      · rfl
      · rfl
      · exact fun _ hj => (List.mem_filter.mp hj).1
      · exact fun _ hx => hx
      · exact id
  | insertRefused =>
      refine .inl (h.keep ?_ ?_ ?_ ?_ ?_ ?_)
      · rfl
      · rfl
      · rfl
      · exact fun _ hj => hj
      · exact fun _ hx => List.mem_cons_of_mem _ (List.mem_cons_of_mem _ hx)
      · exact id
  | _ =>
      refine .inl (h.keep ?_ ?_ ?_ ?_ ?_ ?_) <;>
        first | rfl | exact fun _ hx => hx | exact id

theorem TeamsSound.moved {event : EnvEvent} (h : TeamsSound s log rows) (hm : Moved s event s') :
    TeamsSound s' log rows := by
  cases hm <;> exact ⟨h.teams, h.members, h.infos, h.distinct, h.keys, h.drawn, h.logged,
    h.logDrawn, h.insertedOnce, h.committed⟩

end Step

/-- In every run the tables are those of some teams. -/
theorem PageRun.teamsSound (hr : PageRun d tr c) : ∃ rows, TeamsSound c.world c.log rows := by
  refine hr.invariant (I := fun s log => ∃ rows, TeamsSound s log rows) ⟨[], ?_⟩ ?_ ?_
  · have hnone : ∀ i : Inserted ν, ¬ Known launched [] i := fun i hi =>
      hi.elim (fun h => absurd h List.not_mem_nil) fun h => absurd h List.not_mem_nil
    refine ⟨fun _ _ => ?_, fun _ _ => ?_, fun _ h => absurd h List.not_mem_nil,
      fun i _ hi => absurd hi (hnone i), fun _ h => absurd h List.not_mem_nil,
      fun i hi => absurd hi (hnone i), fun i hi => absurd hi (hnone i),
      fun _ _ _ h => absurd h List.not_mem_nil, fun _ _ _ _ _ h => absurd h List.not_mem_nil,
      fun _ _ h => absurd h List.not_mem_nil⟩
    · simp [launched]
    · simp [launched]
  · rintro s s' log t op r ⟨rows, h⟩ - hp
    rcases h.step (t := t) hp with h' | ⟨i, -, h'⟩
    · exact ⟨rows, h'⟩
    · exact ⟨i :: rows, h'⟩
  · rintro s s' log event ⟨rows, h⟩ hm
    exact ⟨rows, h.moved hm⟩

/-! ## How a team came in -/

/-- Where the event requires GitHub, the repository is one of an owner whose name an account
linked to the wallet had; elsewhere nothing was verified. -/
structure GithubHolds (d : Deployment ν) (tr : List (PageTransition ν)) (c : PageConfig ν)
    (info : EventInfo) (wallet : SessionWallet) (team : TeamData ν) : Prop where
  required : info.requireGithub = true → (∃ now, team.submissionVerifiedAt = some now) ∧
    ∃ account repo, LinkedBy d tr c account ∧ account.walletId = wallet.id ∧
      d.platform.parseGitHubRepoUrl team.submissionUrl = some repo ∧ IsSlug repo.owner ∧
      d.platform.SameName (trim account.username) repo.owner
  optional : info.requireGithub = false → team.submissionVerifiedAt = none

/-- Request `t` entered the team for the wallet: it had passed every check when it inserted the
rows, and the event was live. -/
structure Entered (d : Deployment ν) (tr : List (PageTransition ν)) (c : PageConfig ν) (t : ℕ)
    (teamId : RowId) (wallet : SessionWallet) (team : TeamData ν) : Prop where
  inserted : ∃ e ∈ tr, ∃ req, e.label = .did t ⟨.insertTeam team, .ok teamId⟩ ∧
    e.pre.world.db.events.lookup team.eventId = some .live ∧ (requestsOf tr)[t]? = some req ∧
    Registers d req (historyOf t e.pre.log) wallet team
  info : c.world.teamInfos.lookup teamId
    = some ⟨team.name, team.submissionUrl, team.submissionVerifiedAt⟩
  github : ∃ info, c.world.events.lookup team.eventId = some info ∧
    GithubHolds d tr c info wallet team

/-- A member has the team to itself. -/
def SoleMember (db : Tables) (teamId memberId eventId walletId : RowId) : Prop :=
  ∀ id m, (db.teamMembers.lookup id = some m ∧ m.teamId = teamId) ↔
    id = memberId ∧ m = ⟨teamId, eventId, walletId, 10000, 0⟩

/-- What was found of an account is of an account that was linked. -/
theorem OwnsRepo.holds {t : ℕ} {h : List (Done ν)} {walletId : RowId} {url : JsString}
    {account : LinkedAccount} (ho : OwnsRepo d h walletId url account) (hr : PageRun d tr c)
    (hsub : h ⊆ historyOf t c.log) : LinkedBy d tr c account ∧ account.walletId = walletId ∧
      ∃ repo, d.platform.parseGitHubRepoUrl url = some repo ∧ IsSlug repo.owner ∧
        d.platform.SameName (trim account.username) repo.owner := by
  obtain ⟨repo, hrepo, howner⟩ := ho.owner
  obtain ⟨hwallet, hlinked⟩ := hr.linksSound.found t walletId account
    (mem_historyOf.mp (hsub ho.linked))
  obtain ⟨hslug, -⟩ := parseGitHubRepoUrl_slug hrepo
  obtain ⟨-, -, hsame⟩ := checkRepoOwnership_isOwner.mp howner
  rw [hslug.trim_eq] at hsame
  exact ⟨hr.linkedBy hlinked, hwallet, repo, hrepo, hslug, hsame⟩

/-- A team that was inserted, with its row in place, was entered. -/
theorem PageRun.entered (hr : PageRun d tr c) {t : ℕ} {i : Inserted ν}
    (hmem : (t, ⟨.insertTeam i.team, .ok i.teamId⟩) ∈ c.log)
    (hinfo : c.world.teamInfos.lookup i.teamId = some i.info) :
    ∃ wallet, i.team.member = ⟨i.team.eventId, wallet.id, 10000, 0⟩ ∧
      Entered d tr c t i.teamId wallet i.team := by
  obtain ⟨e, he, hl, -⟩ := did_of_mem_log hr hmem
  obtain ⟨hlive, req, wallet, hreq, hregisters⟩ := hr.inserted_live he hl
  refine ⟨wallet, hregisters.member, ⟨e, he, req, hl, hlive, hreq, hregisters⟩, hinfo, ?_⟩
  -- what the request had read of the event is still so
  have hsub := historyOf_pre_subset hr he t
  obtain ⟨event, hread, -, hverified⟩ := hregisters.event
  have hseen := hr.eventsSound.read t _ event (mem_historyOf.mp (hsub hread))
  refine ⟨_, hseen.info, fun hrequired => ?_, hverified.2⟩
  obtain ⟨now, account, hnow, howns⟩ := hverified.1 hrequired
  obtain ⟨hlinked, hwallet, repo, hrepo, hslug, hsame⟩ := howns.holds hr hsub
  exact ⟨⟨now, hnow⟩, account, repo, hlinked, hwallet, hrepo, hslug, hsame⟩

/-- The committed rows of a team are as it was entered. -/
theorem TeamsSound.entered {rows : List (Inserted ν)} (h : TeamsSound c.world c.log rows)
    (hr : PageRun d tr c) {i : Inserted ν} (hi : i ∈ rows) :
    ∃ t wallet, i.team.member = ⟨i.team.eventId, wallet.id, 10000, 0⟩ ∧
      Entered d tr c t i.teamId wallet i.team := by
  obtain ⟨t, hmem⟩ := h.logged i (.inl hi)
  obtain ⟨wallet, hentered⟩ := hr.entered hmem (h.infos i hi)
  exact ⟨t, wallet, hentered⟩

/-- Its one member is the wallet that entered it. -/
theorem TeamsSound.soleMember {rows : List (Inserted ν)} (h : TeamsSound c.world c.log rows)
    {i : Inserted ν} (hi : i ∈ rows) {walletId : RowId}
    (hmember : i.team.member = ⟨i.team.eventId, walletId, 10000, 0⟩) :
    SoleMember c.world.db i.teamId i.memberId i.team.eventId walletId := by
  intro id m
  have hrow : i.memberRow = ⟨i.teamId, i.team.eventId, walletId, 10000, 0⟩ := by
    rw [Inserted.memberRow, hmember]
  rw [h.members, ← hrow]
  constructor
  · rintro ⟨⟨j, hj, rfl, rfl⟩, hteam⟩
    obtain rfl := h.distinct j i (.inl hj) (.inl hi) (.inl hteam)
    exact ⟨rfl, rfl⟩
  · rintro ⟨rfl, rfl⟩
    exact ⟨⟨i, hi, rfl, rfl⟩, rfl⟩

/-- **Registrations.**  In every run each team has one member with the full share, the wallet that
entered it while the event was live and after every check; a member row names the event of its
team; and a wallet has one row in an event. -/
theorem registration_sound (hr : PageRun d tr c) :
    (∀ teamId row, c.world.db.teams.lookup teamId = some row → ∃ t wallet team memberId,
      team.eventId = row.eventId ∧ Entered d tr c t teamId wallet team ∧
      SoleMember c.world.db teamId memberId row.eventId wallet.id) ∧
    (∀ id m, c.world.db.teamMembers.lookup id = some m →
      c.world.db.teams.lookup m.teamId = some ⟨m.eventId⟩) ∧
    ∀ id id' m m', c.world.db.teamMembers.lookup id = some m →
      c.world.db.teamMembers.lookup id' = some m' → m.eventId = m'.eventId →
      m.walletId = m'.walletId → id = id' := by
  obtain ⟨rows, h⟩ := hr.teamsSound
  refine ⟨fun teamId row hrow => ?_, fun id m hm => ?_, fun id id' m m' hm hm' hevent hwallet => ?_⟩
  · obtain ⟨i, hi, rfl, rfl⟩ := (h.teams teamId row).mp hrow
    obtain ⟨t, wallet, hmember, hentered⟩ := h.entered hr hi
    exact ⟨t, wallet, i.team, i.memberId, rfl, hentered, h.soleMember hi hmember⟩
  · obtain ⟨i, hi, rfl, rfl⟩ := (h.members id m).mp hm
    obtain ⟨t, wallet, hmember, -⟩ := h.entered hr hi
    refine (h.teams _ _).mpr ⟨i, hi, rfl, ?_⟩
    rw [Inserted.teamRow, Inserted.memberRow, hmember]
  · obtain ⟨i, hi, rfl, rfl⟩ := (h.members id m).mp hm
    obtain ⟨j, hj, rfl, rfl⟩ := (h.members id' m').mp hm'
    rw [h.keys i hi j hj (Prod.ext hevent hwallet)]

/-! ## What a reply is worth -/

namespace Sample

def organizerId : RowId := "00000000-0000-4000-8000-0000000000a2"

def eventId : RowId := "00000000-0000-4000-8000-0000000000b1"

def submission : RegisterTeamInput :=
  ⟨jsText "Team Rocket", jsText " https://github.com/octocat/hello"⟩

/-- An event goes live. -/
def goLive (requireGithub : Bool) : List (Move Request (Choice ℤ) EnvEvent) :=
  [.event (.wallet organizerId (.account 2)), .event (.draft eventId ⟨organizerId, requireGithub⟩),
    .event (.status eventId .created), .event (.status eventId .live)]

/-- Request `t` registers a team, up to the commit. -/
def register (t : ℕ) (github : List (Move Request (Choice ℤ) EnvEvent)) :
    List (Move Request (Choice ℤ) EnvEvent) :=
  [.request ⟨some walletId, .registerTeam eventId submission⟩, .call t .ok, .call t .ok] ++ github ++
    [.call t (.trustline (.ok true)), .call t (.clock 1750000120001), .call t .ok, .call t .ok,
      .call t (.rows "team" "member")]

/-- The wallet with a linked account registers for an event that requires one. -/
def enter : List (Move Request (Choice ℤ) EnvEvent) :=
  link ++ goLive true ++ register 2 [.call 2 .ok, .call 2 (.clock 1750000120000)] ++ [.call 2 .ok]

theorem enter_plays : (play (serve deployment) (Site.perform server) Site.environment
    (start launched) enter).isSome = true := by decide +kernel

def registering : List (PageTransition ℤ) × PageConfig ℤ :=
  played (serve deployment) (Site.perform server) Site.environment (start launched) enter enter_plays

theorem registering_run : PageRun deployment registering.1 registering.2 :=
  run_played _ _ _ enter_plays

theorem registering_ends : registering.2.world.db.teams.lookup "team" = some ⟨eventId⟩ ∧
    (requestsOf registering.1)[2]? = some ⟨some walletId, .registerTeam eventId submission⟩ ∧
    registering.2.answerOf 2 = some (.ok (.action .ok)) := by decide +kernel

end Sample

/-- The team of the wallet that linked its account. -/
theorem registration_sound_octocat : ∃ t wallet team memberId, team.eventId = Sample.eventId ∧
    Entered Sample.deployment Sample.registering.1 Sample.registering.2 t "team" wallet team ∧
    SoleMember Sample.registering.2.world.db "team" memberId Sample.eventId wallet.id :=
  (registration_sound Sample.registering_run).1 "team" ⟨Sample.eventId⟩ Sample.registering_ends.1

end EventPage
