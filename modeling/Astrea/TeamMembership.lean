/-
# One team for each wallet

A wallet is in one team of an event, as long as a member row carries its team's event.  The
unique index is on the member's own `eventId`, while a release is read by that of the team, and
nothing ties the two columns together.
-/
import Astrea.TeamFreeze
import Astrea.DraftToPayout

open Guard Service

namespace TeamTables

/-! ## What the release relies on -/

/-- No wallet is in two teams of one event. -/
def OneTeamPerWallet (db : Tables) : Prop :=
  ∀ eventId id id' m m', db.teamMembers.lookup id = some m → db.teamMembers.lookup id' = some m' →
    db.teams.lookup m.teamId = some ⟨eventId⟩ → db.teams.lookup m'.teamId = some ⟨eventId⟩ →
    m.walletId = m'.walletId → m.teamId = m'.teamId

/-- A line of the join back to the team members is attributed to the one member that has its
address. -/
def AddressDetermines (event : EventForRelease) : Prop :=
  ∀ ws lines, mapWinners event ws = .ok lines → ∀ line ∈ lines, ∀ info ∈ memberInfos event,
    info.1 = line.address → info.2 = (line.teamID, line.teamMemberID)

/-- The service reads these tables. -/
structure ReadFrom (db : Tables) (service : DB) : Prop where
  team : ∀ id, service.teams.lookup id = (db.teams.lookup id).map (·.eventId)
  member : ∀ id row, service.teamMembers.lookup id = some row →
    ∃ m, db.teamMembers.lookup id = some m ∧ row.teamId = m.teamId ∧
      db.wallets.lookup m.walletId = some row.walletAddress

/-! ## Rows that agree -/

/-- Every member row carries its team's event, no wallet is twice in one event, and no address
belongs to two wallets. -/
structure Agreed (db : Tables) : Prop where
  event : ∀ id m, db.teamMembers.lookup id = some m → db.teams.lookup m.teamId = some ⟨m.eventId⟩
  wallet : ∀ id id' m m', db.teamMembers.lookup id = some m →
    db.teamMembers.lookup id' = some m' → (m.eventId, m.walletId) = (m'.eventId, m'.walletId) →
    id = id'
  address : ∀ id id' a, db.wallets.lookup id = some a → db.wallets.lookup id' = some a → id = id'

/-- The row change writes a member row with its team's event, and leaves the id and the event of
a team with members alone. -/
def RowChange.KeepsEvents (db : Tables) : RowChange → Prop
  | .teamMember _ (some e) => db.teams.lookup e.2.teamId = some ⟨e.2.eventId⟩
  | .team (some e) (some e') =>
      e' = e ∨ ∀ r ∈ db.teamMembers.entries, r.2.teamId ≠ e.1
  | _ => True

instance (db : Tables) (c : RowChange) : Decidable (c.KeepsEvents db) :=
  match c with
  | .teamMember _ (some e) => inferInstanceAs (Decidable (db.teams.lookup e.2.teamId = some _))
  | .team (some e) (some e') =>
      inferInstanceAs (Decidable (e' = e ∨ ∀ r ∈ db.teamMembers.entries, r.2.teamId ≠ e.1))
  | .teamMember _ none | .team none _ | .team (some _) none => inferInstanceAs (Decidable True)

/-- All row changes of a step do so. -/
def KeepsEvents (t : Transition Tables TeamOp) : Prop := ∀ c ∈ t.label.changes, c.KeepsEvents t.pre

instance (t : Transition Tables TeamOp) : Decidable (KeepsEvents t) :=
  inferInstanceAs (Decidable (∀ c ∈ _, RowChange.KeepsEvents _ c))

variable {db db' : Tables}

/-- A unique index stays one. -/
theorem wallet_replace {old new : Option (RowId × TeamMemberRow)}
    (h : ∀ id id' m m', db.teamMembers.lookup id = some m → db.teamMembers.lookup id' = some m' →
      (m.eventId, m.walletId) = (m'.eventId, m'.walletId) → id = id')
    (hc : MemberChange db old new) :
    ∀ id id' m m', (db.teamMembers.replace old new).lookup id = some m →
      (db.teamMembers.replace old new).lookup id' = some m' →
      (m.eventId, m.walletId) = (m'.eventId, m'.walletId) → id = id' := by
  -- another row than the new one is in the index already
  have hother : ∀ e ∈ new, ∀ id m, old ≠ some (id, m) → db.teamMembers.lookup id = some m →
      (m.eventId, m.walletId) ≠ (e.2.eventId, e.2.walletId) := by
    intro e he id m hold hlookup
    exact hc.wallet e he ⟨id, m⟩ (AList.mem_lookup_iff.mp
      ((KeyTable.lookup_without hc.replaceable.stored).mpr ⟨hold, hlookup⟩))
  intro id id' m m' hm hm' hkey
  rcases (KeyTable.lookup_replace hc.replaceable).mp hm with hnew | ⟨hold, hlookup⟩
  · rcases (KeyTable.lookup_replace hc.replaceable).mp hm' with hnew' | ⟨hold', hlookup'⟩
    · rw [hnew] at hnew'
      exact (Prod.mk.inj (Option.some_inj.mp hnew')).1
    · exact absurd hkey.symm (hother _ hnew id' m' hold' hlookup')
  · rcases (KeyTable.lookup_replace hc.replaceable).mp hm' with hnew' | ⟨hold', hlookup'⟩
    · exact absurd hkey (hother _ hnew' id m hold hlookup)
    · exact h id id' m m' hlookup hlookup' hkey

/-- A statement on members, whose rows carry their teams' events. -/
theorem Agreed.teamMembers
    {rows : List (Option (RowId × TeamMemberRow) × Option (RowId × TeamMemberRow))}
    (h : Agreed db) (hkeeps : ∀ c ∈ (Statement.teamMembers rows).changes, c.KeepsEvents db)
    (hchanged : db.changeAll (Statement.teamMembers rows).changes = .ok db') : Agreed db' := by
  have hboth : Agreed db' ∧ db'.teams = db.teams := by
    refine changeAll_keeps (P := fun db' => Agreed db' ∧ db'.teams = db.teams) ?_ ⟨h, rfl⟩
      hchanged
    rintro c hc db₁ db₂ ⟨hdb, hteams⟩ hstep
    obtain ⟨⟨old, new⟩, -, rfl⟩ := List.mem_map.mp hc
    obtain ⟨hmember, rfl⟩ := change_teamMember_eq_ok.mp hstep
    refine ⟨⟨fun id m hlookup => ?_, wallet_replace hdb.wallet hmember, hdb.address⟩, hteams⟩
    rcases (KeyTable.lookup_replace hmember.replaceable).mp hlookup with hnew | ⟨-, hlookup⟩
    · have hkept := hkeeps _ hc
      simp only at hnew
      subst hnew
      exact hteams ▸ hkept
    · exact hdb.event id m hlookup
  exact hboth.1

/-- What is left after deletions was there, and is none of what they delete. -/
theorem lookup_of_deletions {cs : List RowChange}
    (hcs : ∀ c ∈ cs, ∃ e : RowId × TeamMemberRow, c = .teamMember (some e) none)
    (h : db.changeAll cs = .ok db') :
    db'.teams = db.teams ∧ db'.wallets = db.wallets ∧
      ∀ id m, db'.teamMembers.lookup id = some m →
        db.teamMembers.lookup id = some m ∧ .teamMember (some (id, m)) none ∉ cs := by
  induction cs generalizing db with
  | nil =>
      rw [← Except.ok.inj h]
      exact ⟨rfl, rfl, fun id m hlookup => ⟨hlookup, List.not_mem_nil⟩⟩
  | cons c cs ih =>
      simp only [Tables.changeAll, bind_eq_ok] at h
      obtain ⟨db₁, hc, hrest⟩ := h
      obtain ⟨e, rfl⟩ := hcs c List.mem_cons_self
      obtain ⟨hmember, rfl⟩ := change_teamMember_eq_ok.mp hc
      obtain ⟨hteams, hwallets, hleft⟩ := ih (fun c hc => hcs c (List.mem_cons_of_mem _ hc)) hrest
      refine ⟨hteams, hwallets, fun id m hlookup => ?_⟩
      obtain ⟨hlookup, hnot⟩ := hleft id m hlookup
      rcases (KeyTable.lookup_replace hmember.replaceable).mp hlookup with hnew | ⟨hold, hlookup⟩
      · cases hnew
      · refine ⟨hlookup, List.not_mem_cons_of_ne_of_not_mem (fun heq => hold ?_) hnot⟩
        cases heq
        rfl

/-- A cascade deletes every member row of a deleted team. -/
theorem mem_cascade_of_deleted {cs : List RowChange} {c : RowChange} {id : RowId}
    {m : TeamMemberRow} (hlookup : db.teamMembers.lookup id = some m) (hc : c ∈ cs)
    (hdeleted : c.deletedTeam = some m.teamId) :
    .teamMember (some (id, m)) none ∈ cascade db cs := by
  refine List.mem_flatMap.mpr ⟨m.teamId, List.mem_filterMap.mpr ⟨c, hc, hdeleted⟩, ?_⟩
  refine List.mem_map.mpr ⟨(id, m), List.mem_map.mpr ⟨⟨id, m⟩, ?_, rfl⟩, rfl⟩
  exact List.mem_filter.mpr ⟨AList.mem_lookup_iff.mp hlookup, decide_eq_true rfl⟩

/-- A statement on teams, which leaves those with members alone or deletes them. -/
theorem Agreed.teams {rows : List (Option (RowId × TeamRow) × Option (RowId × TeamRow))}
    {changed : Tables} (h : Agreed db)
    (hkeeps : ∀ c ∈ (Statement.teams rows).changes, c.KeepsEvents db)
    (hchanged : db.changeAll (Statement.teams rows).changes = .ok changed)
    (hcascade : changed.changeAll (cascade changed (Statement.teams rows).changes) = .ok db') :
    Agreed db' := by
  have hrows : changed.teamMembers = db.teamMembers ∧ changed.wallets = db.wallets ∧
      ∀ id m, db.teamMembers.lookup id = some m →
        changed.teams.lookup m.teamId = some ⟨m.eventId⟩ ∨
          ∃ c ∈ (Statement.teams rows).changes, c.deletedTeam = some m.teamId := by
    refine changeAll_keeps (P := fun db' => db'.teamMembers = db.teamMembers ∧
      db'.wallets = db.wallets ∧ ∀ id m, db.teamMembers.lookup id = some m →
        db'.teams.lookup m.teamId = some ⟨m.eventId⟩ ∨
          ∃ c ∈ (Statement.teams rows).changes, c.deletedTeam = some m.teamId) ?_
      ⟨rfl, rfl, fun id m hlookup => .inl (h.event id m hlookup)⟩ hchanged
    rintro c hc db₁ db₂ ⟨hmembers, hwallets, hdb⟩ hstep
    have hkept := hkeeps c hc
    obtain ⟨⟨old, new⟩, -, rfl⟩ := List.mem_map.mp hc
    obtain ⟨hreplace, rfl⟩ := change_team_eq_ok.mp hstep
    refine ⟨hmembers, hwallets, fun id m hlookup => ?_⟩
    rcases hdb id m hlookup with hteam | hdeleted
    · by_cases hold : old = some (m.teamId, ⟨m.eventId⟩)
      · simp only at hold hc hkept
        subst hold
        cases new with
        | none => exact .inr ⟨_, hc, rfl⟩
        | some e' =>
            rcases hkept with rfl | hnone
            · exact .inl ((KeyTable.lookup_replace hreplace).mpr (.inl rfl))
            · exact absurd rfl (hnone ⟨id, m⟩ (AList.mem_lookup_iff.mp hlookup))
      · exact .inl ((KeyTable.lookup_replace hreplace).mpr (.inr ⟨hold, hteam⟩))
    · exact .inr hdeleted
  obtain ⟨hmembers, hwallets, hteams⟩ := hrows
  obtain ⟨hteams', hwallets', hleft⟩ := lookup_of_deletions
    (fun c hc => ⟨_, (mem_cascade hc).choose_spec.1⟩) hcascade
  refine ⟨fun id m hlookup => ?_, fun id id' m m' hm hm' => ?_, ?_⟩
  · obtain ⟨hchangedRow, hnot⟩ := hleft id m hlookup
    rw [hteams']
    rcases hteams id m (hmembers ▸ hchangedRow) with hteam | ⟨c, hc, hdeleted⟩
    · exact hteam
    · exact absurd (mem_cascade_of_deleted hchangedRow hc hdeleted) hnot
  · exact h.wallet id id' m m' (hmembers ▸ (hleft id m hm).1) (hmembers ▸ (hleft id' m' hm').1)
  · rw [hwallets', hwallets]
    exact h.address

/-- A step that keeps the events keeps the rows agreed. -/
theorem Agreed.step {op : TeamOp} (h : Agreed db) (hstep : TeamStep db op db')
    (hkeeps : ∀ c ∈ op.changes, c.KeepsEvents db) : Agreed db' := by
  cases hstep with
  | @statement _ s _ hexec =>
      obtain ⟨changed, hchanged, hcascade, -, -⟩ := exec_eq_ok.mp hexec
      cases s with
      | teams rows => exact h.teams hkeeps hchanged hcascade
      | teamMembers rows =>
          have hnone : cascade changed (Statement.teamMembers rows).changes = [] := by
            have hdeleted : (Statement.teamMembers rows).changes.filterMap RowChange.deletedTeam
                = [] := by
              rw [List.filterMap_eq_nil_iff]
              intro c hc
              obtain ⟨r, -, rfl⟩ := List.mem_map.mp hc
              rfl
            rw [cascade, hdeleted, List.flatMap_nil]
          rw [hnone] at hcascade
          obtain rfl := Except.ok.inj hcascade
          exact h.teamMembers hkeeps hchanged
  | status => exact ⟨h.event, h.wallet, h.address⟩

/-! ## The join -/

theorem Agreed.oneTeam (h : Agreed db) {eventId id id' : RowId} {m m' : TeamMemberRow}
    (hm : db.teamMembers.lookup id = some m) (hm' : db.teamMembers.lookup id' = some m')
    (hteam : db.teams.lookup m.teamId = some ⟨eventId⟩)
    (hteam' : db.teams.lookup m'.teamId = some ⟨eventId⟩) (hwallet : m.walletId = m'.walletId) :
    id = id' := by
  rw [h.event id m hm, Option.some_inj] at hteam
  rw [h.event id' m' hm', Option.some_inj] at hteam'
  refine h.wallet id id' m m' hm hm' ?_
  rw [hwallet, TeamRow.mk.inj (hteam.trans hteam'.symm)]

/-- Where no wallet is in two teams, an address is that of one member. -/
theorem Agreed.addressDetermines {service : DB} {p : PathID} {event : EventForRelease}
    (h : Agreed db) (hread : ReadFrom db service)
    (hload : loadEventForRelease service p = .ok event) : AddressDetermines event := by
  simp only [loadEventForRelease, bind_eq_ok, expect_eq_ok, pure_eq_ok] at hload
  obtain ⟨row, -, rfl⟩ := hload
  have hone : ∀ info info' : Address × RowId × RowId, ∀ event : EventForRelease,
      event.teams = collectTeams (memberRows service p.uuid) → info ∈ memberInfos event →
      info' ∈ memberInfos event → info.1 = info'.1 → info = info' := by
    intro info info' event hteams hinfo hinfo' heq
    rw [memberInfos_eq hteams] at hinfo hinfo'
    obtain ⟨r, hr, rfl⟩ := List.mem_map.mp hinfo
    obtain ⟨r', hr', rfl⟩ := List.mem_map.mp hinfo'
    obtain ⟨e, he, hevent, rfl⟩ := mem_memberRows hr
    obtain ⟨e', he', hevent', rfl⟩ := mem_memberRows hr'
    obtain ⟨m, hm, hteam, haddress⟩ := hread.member _ _ (AList.mem_lookup_iff.mpr he)
    obtain ⟨m', hm', hteam', haddress'⟩ := hread.member _ _ (AList.mem_lookup_iff.mpr he')
    have hat : ∀ teamId, service.teams.lookup teamId = some p.uuid →
        db.teams.lookup teamId = some ⟨p.uuid⟩ := by
      intro teamId hteam
      rw [hread.team] at hteam
      obtain ⟨team, hteam, hid⟩ := Option.map_eq_some_iff.mp hteam
      rw [hteam, ← hid]
    simp only at heq
    have hwallet := h.address _ _ _ haddress (heq ▸ haddress')
    have hid : e.1 = e'.1 := h.oneTeam hm hm' (hat _ (hteam ▸ hevent)) (hat _ (hteam' ▸ hevent'))
      hwallet
    have hrow : e = e' := by
      have hlookup := AList.mem_lookup_iff.mpr he
      have hlookup' := AList.mem_lookup_iff.mpr he'
      rw [hid] at hlookup
      have hvalue := Option.some_inj.mp (hlookup.symm.trans hlookup')
      cases e
      cases e'
      simp only at hid hvalue
      rw [hid, hvalue]
    rw [hrow]
  intro ws
  induction ws with
  | nil =>
      intro lines hlines line hline
      rw [← Except.ok.inj hlines] at hline
      exact absurd hline List.not_mem_nil
  | cons w ws ih =>
      intro lines hlines line hline info hinfo haddress
      simp only [mapWinners, bind_eq_ok, pure_eq_ok] at hlines
      obtain ⟨first, hfirst, rest, hrest, rfl⟩ := hlines
      rcases List.mem_cons.mp hline with rfl | hline
      · simp only [mapWinner, bind_eq_ok, expect_eq_ok, pure_eq_ok] at hfirst
        obtain ⟨found, hfound, prize, -, rfl⟩ := hfirst
        obtain ⟨hmem, hfoundAddress⟩ := lastWhere_mem hfound
        rw [hone info found _ rfl hinfo hmem (haddress.trans (of_decide_eq_true hfoundAddress).symm)]
      · exact ih rest hrest line hline info hinfo haddress

/-- In every run whose member rows carry their teams' events, no wallet is in two teams of one
event, and the join of a release attributes every line to the one member with its address. -/
theorem one_team_per_wallet {db₀ : Tables} {tr : List (Transition Tables TeamOp)}
    (hrun : Run TeamStep db₀ tr db) (h₀ : Agreed db₀) (hkeeps : ∀ t ∈ tr, KeepsEvents t) :
    OneTeamPerWallet db ∧ ∀ service p event, ReadFrom db service →
      loadEventForRelease service p = .ok event → AddressDetermines event := by
  have h : Agreed db := (hrun.restrict hkeeps).invariant h₀ fun db₁ op db₂ hdb hstep =>
    hdb.step hstep.1 hstep.2
  refine ⟨fun eventId id id' m m' hm hm' hteam hteam' hwallet => ?_,
    fun service p event hread hload => h.addressDetermines hread hload⟩
  obtain rfl := h.oneTeam hm hm' hteam hteam' hwallet
  rw [hm] at hm'
  rw [Option.some_inj.mp hm']

/-! ## Runs -/

/-- Finitely many rows are looked at. -/
theorem readFrom_of_rows {service : DB}
    (hteams : ∀ id ∈ service.teams.keys ++ db.teams.keys,
      service.teams.lookup id = (db.teams.lookup id).map (·.eventId))
    (hmembers : ∀ e ∈ service.teamMembers.entries, ∃ m ∈ db.teamMembers.lookup e.1,
      e.2.teamId = m.teamId ∧ db.wallets.lookup m.walletId = some e.2.walletAddress) :
    ReadFrom db service := by
  refine ⟨fun id => ?_, fun id row hrow => ?_⟩
  · by_cases hid : id ∈ service.teams.keys ++ db.teams.keys
    · exact hteams id hid
    · rw [List.mem_append, not_or] at hid
      rw [AList.lookup_eq_none.mpr hid.1, AList.lookup_eq_none.mpr hid.2, Option.map_none]
  · obtain ⟨m, hm, hteam, hwallet⟩ := hmembers ⟨id, row⟩ (AList.mem_lookup_iff.mp hrow)
    exact ⟨m, hm, hteam, hwallet⟩

namespace Sample

def formId : RowId := "00000000-0000-0000-0000-00000000000b"

/-- The form's event and another one are live. -/
def formOpened : Tables :=
  { opened with
    events := (∅ : KeyTable RowId EventStatus).insert formId .live |>.insert "other" .live }

/-- A team of one enters the event. -/
def enter (team member eventId : RowId) : List TeamOp :=
  [.statement (.teams [(none, some (team, ⟨formId⟩))]),
   .statement (.teamMembers [(none, some (member, ⟨team, eventId, "wallet", 10000, 0⟩))])]

def entered : List (Transition Tables TeamOp) × Tables :=
  (Run.follow TeamOp.run formOpened (enter "team" "member" formId)).get (by decide +kernel)

/-- The same wallet enters again, in a row that carries the other event. -/
def enteredTwice : List (Transition Tables TeamOp) × Tables :=
  (Run.follow TeamOp.run formOpened
    (enter "team" "member" formId ++ enter "team'" "member'" "other")).get (by decide +kernel)

/-- The service's tables, with a prize. -/
def serving (teams : KeyTable RowId RowId) (teamMembers : KeyTable RowId MemberRow) : DB :=
  { emptyTables with
    events := (∅ : KeyTable RowId EventRow).insert Service.Sample.formEvent.uuid
      ⟨.judging, some 7, Escrow.Sample.organizer, none, none⟩
    prizes := (∅ : KeyTable RowId PrizeRow).insert "prize"
      ⟨Service.Sample.formEvent.uuid, 1, bytes "0.0000100", .pending, none, none, none⟩
    teams := teams
    teamMembers := teamMembers }

def reading : DB :=
  serving ((∅ : KeyTable RowId RowId).insert "team" formId)
    ((∅ : KeyTable RowId MemberRow).insert "member" ⟨"team", 0, 10000, .account 1⟩)

def readingTwice : DB :=
  serving ((∅ : KeyTable RowId RowId).insert "team" formId |>.insert "team'" formId)
    ((∅ : KeyTable RowId MemberRow).insert "member" ⟨"team", 0, 10000, .account 1⟩
      |>.insert "member'" ⟨"team'", 0, 10000, .account 1⟩)

/-- The event as it is read. -/
def loaded (service : DB) : EventForRelease where
  id := Service.Sample.formEvent
  status := .judging
  escrowEventID := some 7
  judges := loadJudges service Service.Sample.formEvent.uuid
  prizes := loadPrizes service Service.Sample.formEvent.uuid
  teams := collectTeams (memberRows service Service.Sample.formEvent.uuid)

theorem load_serving (teams : KeyTable RowId RowId) (teamMembers : KeyTable RowId MemberRow) :
    loadEventForRelease (serving teams teamMembers) Service.Sample.formEvent
      = .ok (loaded (serving teams teamMembers)) := by
  rw [loadEventForRelease, serving, AList.lookup_insert]
  rfl

theorem formOpened_agreed : Agreed formOpened := by
  refine ⟨fun _ _ h => (nomatch h), fun _ _ _ _ h => (nomatch h), fun id id' a h h' => ?_⟩
  have hinj : ∀ e ∈ formOpened.wallets.entries, ∀ e' ∈ formOpened.wallets.entries,
      e.2 = e'.2 → e.1 = e'.1 := by decide +kernel
  exact hinj ⟨id, a⟩ (AList.mem_lookup_iff.mp h) ⟨id', a⟩ (AList.mem_lookup_iff.mp h') rfl

end Sample

/-- A team of one, and the release that reads it. -/
theorem one_team_per_wallet_entered :
    OneTeamPerWallet Sample.entered.2 ∧ AddressDetermines (Sample.loaded Sample.reading) := by
  have hfollow : Run.follow TeamOp.run Sample.formOpened
      (Sample.enter "team" "member" Sample.formId) = some Sample.entered :=
    (Option.some_get _).symm
  have hrun : Run TeamStep Sample.formOpened Sample.entered.1 Sample.entered.2 :=
    Run.of_follow (fun _ _ _ => TeamOp.step) hfollow
  have h := one_team_per_wallet hrun Sample.formOpened_agreed (by decide +kernel)
  refine ⟨h.1, h.2 _ _ _ (readFrom_of_rows ?_ ?_) (Sample.load_serving _ _)⟩
  · decide +kernel
  · decide +kernel

/-- A wallet is in two teams of the event, and the prize of the one is attributed to the
other. -/
theorem wallet_in_two_teams : (∃ tr, Run TeamStep Sample.formOpened tr Sample.enteredTwice.2) ∧
    ¬ OneTeamPerWallet Sample.enteredTwice.2 ∧ ReadFrom Sample.enteredTwice.2 Sample.readingTwice ∧
    ¬ AddressDetermines (Sample.loaded Sample.readingTwice) := by
  have hfollow : Run.follow TeamOp.run Sample.formOpened
      (Sample.enter "team" "member" Sample.formId ++ Sample.enter "team'" "member'" "other")
        = some Sample.enteredTwice := (Option.some_get _).symm
  have hrun : Run TeamStep Sample.formOpened Sample.enteredTwice.1 Sample.enteredTwice.2 :=
    Run.of_follow (fun _ _ _ => TeamOp.step) hfollow
  refine ⟨⟨_, hrun⟩, fun h => ?_, readFrom_of_rows (by decide +kernel) (by decide +kernel),
    fun h => ?_⟩
  · have hsame := h Sample.formId "member" "member'"
      ⟨"team", Sample.formId, "wallet", 10000, 0⟩ ⟨"team'", "other", "wallet", 10000, 0⟩
      (by decide +kernel) (by decide +kernel) (by decide +kernel) (by decide +kernel) rfl
    exact absurd hsame (by decide)
  · have hline : mapWinners (Sample.loaded Sample.readingTwice) [⟨1, 100, .account 1⟩]
        = .ok [⟨"prize", "team'", "member'", .account 1, 100, 1⟩] := by decide +kernel
    have hinfo : ((.account 1 : Address), "team", "member")
        ∈ memberInfos (Sample.loaded Sample.readingTwice) := by decide +kernel
    exact absurd (h _ _ hline _ List.mem_cons_self _ hinfo rfl) (by decide)

end TeamTables
