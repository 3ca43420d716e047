/-
# The shares of a team

Every team has a member and its shares add up to 10000 after every commit, as long as a
transaction leaves no team unchecked that it has touched.  The deferred triggers check the team
a member row is in after a change; the team it was in before, and a team that gets a new id,
they do not.
-/
import Astrea.TeamTables
import Astrea.LabelledRun

open Guard Service

namespace TeamTables

/-! ## The teams left to check -/

/-- The team that an `UPDATE` touches and no trigger of it checks: the one a member is moved out
of, or the new id of a team. -/
def RowChange.uncheckedTeam : RowChange → Option RowId
  | .team (some e) (some e') => if e'.1 = e.1 then none else some e'.1
  | .teamMember (some e) (some e') => if e'.2.teamId = e.2.teamId then none else some e.2.teamId
  | _ => none

/-- The team id that a row change takes away. -/
def RowChange.goneTeam : RowChange → Option RowId
  | .team (some e) none => some e.1
  | .team (some e) (some e') => if e'.1 = e.1 then none else some e.1
  | _ => none

/-- The unchecked teams after one more row change. -/
def RowChange.leftUnchecked (unchecked : List RowId) (c : RowChange) : List RowId :=
  c.uncheckedTeam.toList ++ unchecked.filter (some · ≠ c.goneTeam)

/-- The row changes a transaction asks for. -/
def changesOf (tx : List Statement) : List RowChange := tx.flatMap Statement.changes

/-- Every team that an `UPDATE` moves a member out of, and every new id of a team, unless a later
row change takes the team away, is also checked for another row change of the transaction. -/
def Rechecks (tx : List Statement) : Prop :=
  ∀ teamId ∈ (changesOf tx).foldl RowChange.leftUnchecked [],
    teamId ∈ (changesOf tx).filterMap RowChange.validatedTeam

instance (tx : List Statement) : Decidable (Rechecks tx) :=
  inferInstanceAs (Decidable (∀ _ ∈ _, _))

/-! ## Sound tables -/

/-- What the triggers are to keep true after every commit. -/
structure SharesSound (db : Tables) : Prop where
  share : ∀ id m, db.teamMembers.lookup id = some m →
    0 < m.shareBasisPoints ∧ m.shareBasisPoints ≤ 10000
  members : ∀ teamId team, db.teams.lookup teamId = some team →
    ∃ id m, db.teamMembers.lookup id = some m ∧ m.teamId = teamId
  shares : ∀ teamId team, db.teams.lookup teamId = some team → db.shareSum teamId = 10000

/-- A team is still sound, or is to be checked. -/
def Tracked (db₀ : Tables) (unchecked validated : List RowId) (db : Tables) : Prop :=
  ∀ teamId team, db.teams.lookup teamId = some team →
    teamId ∈ unchecked ∨ teamId ∈ validated ∨ ∃ team, db₀.teams.lookup teamId = some team ∧
      db.memberCount teamId = db₀.memberCount teamId ∧ db.shareSum teamId = db₀.shareSum teamId

/-- Members of other teams do not count. -/
theorem total_of_other {db : Tables} {old new : Option (RowId × TeamMemberRow)} {teamId : RowId}
    (h : KeyTable.Replaceable db.teamMembers old new) (f : TeamMemberRow → ℤ)
    (hold : ∀ e ∈ old, e.2.teamId ≠ teamId) (hnew : ∀ e ∈ new, e.2.teamId ≠ teamId) :
    KeyTable.totalOf (fun _ m => if m.teamId = teamId then f m else 0)
        (db.teamMembers.replace old new)
      = KeyTable.totalOf (fun _ m => if m.teamId = teamId then f m else 0) db.teamMembers := by
  have hzero : ∀ o : Option (RowId × TeamMemberRow), (∀ e ∈ o, e.2.teamId ≠ teamId) →
      KeyTable.weightOf (fun _ m => if m.teamId = teamId then f m else 0) o = 0 := by
    intro o ho
    cases o with
    | none => rfl
    | some e => exact if_neg (ho e rfl)
  rw [KeyTable.totalOf_replace _ h, hzero old hold, hzero new hnew, sub_zero, add_zero]

/-- A team goes with its row. -/
theorem goneTeam_eq_some {old new : Option (RowId × TeamRow)} {teamId : RowId}
    (h : RowChange.goneTeam (.team old new) = some teamId) : ∃ e, old = some e ∧ e.1 = teamId := by
  cases old with
  | none => cases h
  | some e =>
      refine ⟨e, rfl, ?_⟩
      cases new with
      | none => exact Option.some_inj.mp h
      | some e' =>
          rw [RowChange.goneTeam] at h
          split at h
          · cases h
          · exact Option.some_inj.mp h

/-- A change to a team keeps every team tracked. -/
theorem Tracked.change_team {db₀ db db' : Tables} {unchecked validated : List RowId}
    {old new : Option (RowId × TeamRow)} (h : Tracked db₀ unchecked validated db)
    (hvalid : ∀ teamId, RowChange.validatedTeam (.team old new) = some teamId →
      teamId ∈ validated)
    (hc : db.change (.team old new) = .ok db') :
    Tracked db₀ (RowChange.leftUnchecked unchecked (.team old new)) validated db' := by
  intro teamId team hteam
  obtain ⟨hreplace, rfl⟩ := change_team_eq_ok.mp hc
  rcases (KeyTable.lookup_replace hreplace).mp hteam with hnew | ⟨hold, hlookup⟩
  · subst hnew
    cases old with
    | none => exact .inr (.inl (hvalid teamId rfl))
    | some e =>
        by_cases hid : teamId = e.1
        · -- the id stays, whatever else changes
          have hkept : RowChange.goneTeam (.team (some e) (some (teamId, team))) = none :=
            if_pos hid
          rcases h teamId e.2 (hid ▸ hreplace.stored e rfl) with hmem | hmem | hsame
          · refine .inl (List.mem_append_right _ (List.mem_filter.mpr ⟨hmem, ?_⟩))
            rw [hkept]
            exact decide_eq_true nofun
          · exact .inr (.inl hmem)
          · exact .inr (.inr hsame)
        · refine .inl (List.mem_append_left _ ?_)
          rw [RowChange.uncheckedTeam, if_neg hid]
          exact List.mem_singleton_self _
  · rcases h teamId team hlookup with hmem | hmem | hsame
    · refine .inl (List.mem_append_right _ (List.mem_filter.mpr ⟨hmem, decide_eq_true ?_⟩))
      -- a team that is still there has not gone
      intro hgone
      obtain ⟨e, rfl, hid⟩ := goneTeam_eq_some hgone.symm
      have hstored := hreplace.stored e rfl
      rw [hid, hlookup] at hstored
      rw [← hid, Option.some_inj.mp hstored] at hold
      exact hold rfl
    · exact .inr (.inl hmem)
    · exact .inr (.inr hsame)

/-- A change to a member keeps every team tracked. -/
theorem Tracked.change_teamMember {db₀ db db' : Tables} {unchecked validated : List RowId}
    {old new : Option (RowId × TeamMemberRow)} (h : Tracked db₀ unchecked validated db)
    (hvalid : ∀ teamId, RowChange.validatedTeam (.teamMember old new) = some teamId →
      teamId ∈ validated)
    (hc : db.change (.teamMember old new) = .ok db') :
    Tracked db₀ (RowChange.leftUnchecked unchecked (.teamMember old new)) validated db' := by
  intro teamId team hteam
  obtain ⟨hmember, rfl⟩ := change_teamMember_eq_ok.mp hc
  by_cases hvalidated : RowChange.validatedTeam (.teamMember old new) = some teamId
  · exact .inr (.inl (hvalid teamId hvalidated))
  by_cases hunchecked : RowChange.uncheckedTeam (.teamMember old new) = some teamId
  · refine .inl (List.mem_append_left _ ?_)
    rw [hunchecked]
    exact List.mem_singleton_self _
  rcases h teamId team hteam with hmem | hmem | ⟨team₀, hteam₀, hcount, hsum⟩
  · exact .inl (List.mem_append_right _ (List.mem_filter.mpr ⟨hmem, decide_eq_true nofun⟩))
  · exact .inr (.inl hmem)
  -- neither row is the team's: its members are as before
  have hnew : ∀ e ∈ new, e.2.teamId ≠ teamId := by
    rintro e rfl rfl
    exact hvalidated rfl
  have hold : ∀ e ∈ old, e.2.teamId ≠ teamId := by
    rintro e rfl rfl
    cases new with
    | none => exact hvalidated rfl
    | some e' => exact hunchecked (if_neg (hnew e' rfl))
  refine .inr (.inr ⟨team₀, hteam₀, ?_, ?_⟩)
  · rw [← hcount]
    exact total_of_other hmember.replaceable (fun _ => 1) hold hnew
  · rw [← hsum]
    exact total_of_other hmember.replaceable (·.shareBasisPoints) hold hnew

/-- A row change keeps every team tracked. -/
theorem Tracked.change {db₀ db db' : Tables} {unchecked validated : List RowId} {c : RowChange}
    (h : Tracked db₀ unchecked validated db)
    (hvalid : ∀ teamId, c.validatedTeam = some teamId → teamId ∈ validated)
    (hc : db.change c = .ok db') : Tracked db₀ (c.leftUnchecked unchecked) validated db' := by
  cases c with
  | team old new => exact h.change_team hvalid hc
  | teamMember old new => exact h.change_teamMember hvalid hc

/-- Changes in a row keep track of what is unchecked. -/
theorem Tracked.changeAll {db₀ db db' : Tables} {unchecked validated : List RowId}
    {cs : List RowChange} (h : Tracked db₀ unchecked validated db)
    (hvalid : ∀ teamId ∈ cs.filterMap RowChange.validatedTeam, teamId ∈ validated)
    (hcs : db.changeAll cs = .ok db') :
    Tracked db₀ (cs.foldl RowChange.leftUnchecked unchecked) validated db' := by
  induction cs generalizing db unchecked with
  | nil =>
      rw [← Except.ok.inj hcs]
      exact h
  | cons c cs ih =>
      simp only [Tables.changeAll, bind_eq_ok] at hcs
      obtain ⟨db₁, hc, hrest⟩ := hcs
      have hone := h.change (fun teamId hteam => hvalid teamId
        (List.mem_filterMap.mpr ⟨c, List.mem_cons_self, hteam⟩)) hc
      refine ih hone (fun teamId hteam => hvalid teamId ?_) hrest
      obtain ⟨c', hc', heq⟩ := List.mem_filterMap.mp hteam
      exact List.mem_filterMap.mpr ⟨c', List.mem_cons_of_mem _ hc', heq⟩

/-- A cascade leaves no team unchecked that was not so before. -/
theorem foldl_cascade {unchecked : List RowId} {cs : List RowChange}
    (h : ∀ c ∈ cs, ∃ e : RowId × TeamMemberRow, c = .teamMember (some e) none) :
    cs.foldl RowChange.leftUnchecked unchecked = unchecked := by
  induction cs with
  | nil => rfl
  | cons c cs ih =>
      obtain ⟨e, rfl⟩ := h c List.mem_cons_self
      have hsame : RowChange.leftUnchecked unchecked (.teamMember (some e) none) = unchecked :=
        List.filter_eq_self.mpr fun _ _ => decide_eq_true nofun
      rw [List.foldl_cons, hsame, ih fun c hc => h c (List.mem_cons_of_mem _ hc)]

/-- And so does a statement. -/
theorem Tracked.exec {db₀ db db' : Tables} {unchecked validated : List RowId} {s : Statement}
    {cs : List RowChange} (h : Tracked db₀ unchecked validated db)
    (hvalid : ∀ teamId ∈ cs.filterMap RowChange.validatedTeam, teamId ∈ validated)
    (hexec : db.exec s = .ok (db', cs)) :
    Tracked db₀ (s.changes.foldl RowChange.leftUnchecked unchecked) validated db' := by
  obtain ⟨changed, hchanged, hcascade, -, rfl⟩ := exec_eq_ok.mp hexec
  rw [List.filterMap_append] at hvalid
  have hone := h.changeAll (fun id hid => hvalid id (List.mem_append_left _ hid)) hchanged
  have hall := hone.changeAll (fun id hid => hvalid id (List.mem_append_right _ hid)) hcascade
  rwa [foldl_cascade fun c hc => ⟨_, (mem_cascade hc).choose_spec.1⟩] at hall

/-- And so do statements in a row. -/
theorem Tracked.execAll {db₀ db db' : Tables} {unchecked validated : List RowId}
    {tx : List Statement} {cs : List RowChange} (h : Tracked db₀ unchecked validated db)
    (hvalid : ∀ teamId ∈ cs.filterMap RowChange.validatedTeam, teamId ∈ validated)
    (hexec : db.execAll tx = .ok (db', cs)) :
    Tracked db₀ ((changesOf tx).foldl RowChange.leftUnchecked unchecked) validated db' := by
  induction tx generalizing db unchecked cs with
  | nil =>
      cases hexec
      exact h
  | cons s tx ih =>
      simp only [Tables.execAll, bind_eq_ok, pure_eq_ok, Prod.mk.injEq, Prod.exists] at hexec
      obtain ⟨db₁, cs₁, hs, _, cs₂, hrest, rfl, rfl⟩ := hexec
      rw [List.filterMap_append] at hvalid
      have hone := h.exec (fun id hid => hvalid id (List.mem_append_left _ hid)) hs
      rw [changesOf, List.flatMap_cons, List.foldl_append]
      exact ih hone (fun id hid => hvalid id (List.mem_append_right _ hid)) hrest

/-- What a transaction asks for is among the row changes it comes to. -/
theorem changesOf_subset {db db' : Tables} {tx : List Statement} {cs : List RowChange}
    (hexec : db.execAll tx = .ok (db', cs)) : changesOf tx ⊆ cs := by
  induction tx generalizing db cs with
  | nil => exact List.nil_subset _
  | cons s tx ih =>
      simp only [Tables.execAll, bind_eq_ok, pure_eq_ok, Prod.mk.injEq, Prod.exists] at hexec
      obtain ⟨db₁, cs₁, hs, _, cs₂, hrest, rfl, rfl⟩ := hexec
      obtain ⟨changed, -, -, -, rfl⟩ := exec_eq_ok.mp hs
      rw [changesOf, List.flatMap_cons]
      intro c hc
      rcases List.mem_append.mp hc with hc | hc
      · exact List.mem_append_left _ (List.mem_append_left _ hc)
      · exact List.mem_append_right _ (ih hrest hc)

/-! ## Commits -/

/-- The share of every row is checked. -/
theorem share_of_execAll {db db' : Tables} {tx : List Statement} {cs : List RowChange}
    (h : ∀ id m, db.teamMembers.lookup id = some m →
      0 < m.shareBasisPoints ∧ m.shareBasisPoints ≤ 10000)
    (hexec : db.execAll tx = .ok (db', cs)) :
    ∀ id m, db'.teamMembers.lookup id = some m →
      0 < m.shareBasisPoints ∧ m.shareBasisPoints ≤ 10000 := by
  have hchange : ∀ c : RowChange, ∀ db db' : Tables,
      (∀ id m, db.teamMembers.lookup id = some m →
        0 < m.shareBasisPoints ∧ m.shareBasisPoints ≤ 10000) → db.change c = .ok db' →
      ∀ id m, db'.teamMembers.lookup id = some m →
        0 < m.shareBasisPoints ∧ m.shareBasisPoints ≤ 10000 := by
    intro c db db' hdb hc id m hlookup
    cases c with
    | team old new =>
        obtain ⟨-, rfl⟩ := change_team_eq_ok.mp hc
        exact hdb id m hlookup
    | teamMember old new =>
        obtain ⟨hmember, rfl⟩ := change_teamMember_eq_ok.mp hc
        rcases (KeyTable.lookup_replace hmember.replaceable).mp hlookup with rfl | ⟨-, hlookup⟩
        · exact hmember.share _ rfl
        · exact hdb id m hlookup
  induction tx generalizing db cs with
  | nil =>
      cases hexec
      exact h
  | cons s tx ih =>
      simp only [Tables.execAll, bind_eq_ok, pure_eq_ok, Prod.mk.injEq, Prod.exists] at hexec
      obtain ⟨db₁, cs₁, hs, _, cs₂, hrest, rfl, rfl⟩ := hexec
      obtain ⟨changed, hchanged, hcascade, -, rfl⟩ := exec_eq_ok.mp hs
      exact ih (changeAll_keeps (fun c _ => hchange c)
        (changeAll_keeps (fun c _ => hchange c) h hchanged) hcascade) hrest

/-- A team has a member exactly when its count is not zero. -/
theorem memberCount_ne_zero {db : Tables} {teamId : RowId} :
    db.memberCount teamId ≠ 0 ↔
      ∃ id m, db.teamMembers.lookup id = some m ∧ m.teamId = teamId := by
  have hnonneg : ∀ id m, db.teamMembers.lookup id = some m →
      (0 : ℤ) ≤ if m.teamId = teamId then 1 else 0 := by
    intro id m _
    split <;> decide
  constructor
  · intro hne
    by_contra hnone
    refine hne (List.sum_eq_zero fun x hx => ?_)
    obtain ⟨e, he, rfl⟩ := List.mem_map.mp hx
    exact if_neg fun heq => hnone ⟨e.1, e.2, AList.mem_lookup_iff.mpr he, heq⟩
  · rintro ⟨id, m, hlookup, rfl⟩ hzero
    have hle := KeyTable.weight_le_totalOf hnonneg hlookup
    rw [if_pos rfl] at hle
    unfold Tables.memberCount at hzero
    omega

/-- A team that exists passes when it has members and its shares are whole. -/
theorem validateAll_eq_ok {db : Tables} {ids : List RowId} {u : Unit} :
    db.validateAll ids = .ok u ↔ ∀ teamId ∈ ids, ∀ team, db.teams.lookup teamId = some team →
      db.memberCount teamId ≠ 0 ∧ db.shareSum teamId = 10000 := by
  have hone : ∀ teamId (u : Unit), db.checkTeamShares teamId = .ok u ↔
      ∀ team, db.teams.lookup teamId = some team →
        db.memberCount teamId ≠ 0 ∧ db.shareSum teamId = 10000 := by
    intro teamId u
    unfold Tables.checkTeamShares
    cases db.teams.lookup teamId with
    | none => exact ⟨fun _ _ h => (nomatch h), fun _ => rfl⟩
    | some team =>
        simp only [bind_eq_ok, ensure_eq_ok, exists_const, Option.some.injEq, forall_eq']
  induction ids with
  | nil => exact ⟨fun _ _ h => absurd h List.not_mem_nil, fun _ => rfl⟩
  | cons id ids ih =>
      simp only [Tables.validateAll, bind_eq_ok, hone, ih, exists_const, List.forall_mem_cons]

/-- A commit: the tables before and after it. -/
def Commits (db : Tables) (tx : List Statement) (db' : Tables) : Prop := db.transact tx = .ok db'

/-- A commit whose unchecked teams are checked keeps the shares sound. -/
theorem SharesSound.commit {db db' : Tables} {tx : List Statement} (h : SharesSound db)
    (hcommit : Commits db tx db') (hchecks : Rechecks tx) : SharesSound db' := by
  simp only [Commits, Tables.transact, bind_eq_ok, pure_eq_ok, Prod.exists] at hcommit
  obtain ⟨after, cs, hexec, _, hvalidate, rfl⟩ := hcommit
  have hvalid := validateAll_eq_ok.mp hvalidate
  have hstart : Tracked db [] (cs.filterMap RowChange.validatedTeam) db :=
    fun teamId team hteam => .inr (.inr ⟨team, hteam, rfl, rfl⟩)
  have htracked := hstart.execAll (fun _ hid => hid) hexec
  have hsound : ∀ teamId team, after.teams.lookup teamId = some team →
      after.memberCount teamId ≠ 0 ∧ after.shareSum teamId = 10000 := by
    intro teamId team hteam
    rcases htracked teamId team hteam with hmem | hmem | ⟨team₀, hteam₀, hcount, hsum⟩
    · refine hvalid teamId ?_ team hteam
      obtain ⟨c, hc, heq⟩ := List.mem_filterMap.mp (hchecks teamId hmem)
      exact List.mem_filterMap.mpr ⟨c, changesOf_subset hexec hc, heq⟩
    · exact hvalid teamId hmem team hteam
    · rw [hcount, hsum]
      exact ⟨memberCount_ne_zero.mpr (h.members teamId team₀ hteam₀), h.shares teamId team₀ hteam₀⟩
  exact ⟨share_of_execAll h.share hexec,
    fun teamId team hteam => memberCount_ne_zero.mp (hsound teamId team hteam).1,
    fun teamId team hteam => (hsound teamId team hteam).2⟩

/-- In every run of commits whose unchecked teams are checked, every team has a member, every
share is between 1 and 10000, and the shares of a team add up to 10000. -/
theorem team_shares {db₀ db : Tables} {tr : List (Transition Tables (List Statement))}
    (hrun : Run Commits db₀ tr db) (h₀ : SharesSound db₀)
    (hchecks : ∀ t ∈ tr, Rechecks t.label) : SharesSound db :=
  (hrun.restrict hchecks).invariant h₀ fun _ _ _ h hstep => h.commit hstep.1 hstep.2

/-- A transaction, `none` when it does not commit. -/
def Tables.commit (db : Tables) (tx : List Statement) : Option Tables := (db.transact tx).toOption

/-- What the tables commit is a commit. -/
theorem Commits.of_commit {db db' : Tables} {tx : List Statement} (h : db.commit tx = some db') :
    Commits db tx db' := by
  unfold Tables.commit at h
  cases htx : db.transact tx with
  | error e =>
      rw [htx] at h
      exact nomatch h
  | ok db₁ =>
      rw [htx] at h
      exact htx.trans (congrArg _ (Option.some_inj.mp h))

namespace Sample

theorem opened_sound : SharesSound opened :=
  ⟨fun _ _ h => (nomatch h), fun _ _ h => (nomatch h), fun _ _ h => (nomatch h)⟩

/-- The second member founds a team of its own. -/
def split : List Statement :=
  [.teams [(none, some ("team'", ⟨"event"⟩))],
   .teamMembers [(some member', some ("member'", ⟨"team'", "event", "wallet'", 10000, 0⟩))]]

/-- The first member's share becomes the whole. -/
def reweigh : Statement :=
  .teamMembers [(some member, some ("member", ⟨"team", "event", "wallet", 10000, 0⟩))]

def splitChecked : List (Transition Tables (List Statement)) × Tables :=
  (Run.follow Tables.commit opened [register, split ++ [reweigh]]).get (by decide +kernel)

def splitUnchecked : List (Transition Tables (List Statement)) × Tables :=
  (Run.follow Tables.commit opened [register, split]).get (by decide +kernel)

end Sample

/-- A team of two becomes two teams of one. -/
theorem team_shares_split : SharesSound Sample.splitChecked.2 := by
  have hfollow : Run.follow Tables.commit Sample.opened
      [Sample.register, Sample.split ++ [Sample.reweigh]] = some Sample.splitChecked :=
    (Option.some_get _).symm
  have hrun : Run Commits Sample.opened Sample.splitChecked.1 Sample.splitChecked.2 :=
    Run.of_follow (fun _ _ _ => Commits.of_commit) hfollow
  exact team_shares hrun Sample.opened_sound (by decide +kernel)

/-- Without a change of its own the team that was left keeps shares of 6000. -/
theorem shares_unchecked : ∃ tr db, Run Commits Sample.opened tr db ∧
    SharesSound Sample.opened ∧ db.shareSum "team" = 6000 ∧ ¬ SharesSound db := by
  have hfollow : Run.follow Tables.commit Sample.opened [Sample.register, Sample.split]
      = some Sample.splitUnchecked := (Option.some_get _).symm
  have hrun : Run Commits Sample.opened Sample.splitUnchecked.1 Sample.splitUnchecked.2 :=
    Run.of_follow (fun _ _ _ => Commits.of_commit) hfollow
  have hsum : Sample.splitUnchecked.2.shareSum "team" = 6000 := by decide +kernel
  refine ⟨_, _, hrun, Sample.opened_sound, hsum, fun h => ?_⟩
  have hteam : Sample.splitUnchecked.2.teams.lookup "team" = some ⟨"event"⟩ := by decide +kernel
  have hwhole := h.shares "team" _ hteam
  rw [hsum] at hwhole
  exact absurd hwhole (by decide)

end TeamTables
