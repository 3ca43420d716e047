/-
# Teams and their members in the database

The tables `teams` and `team_members` under the constraints, indexes and triggers of the
migrations.  A statement changes rows of one table, one after the other: the checks, the
unique indexes and the freeze trigger act on each row, the cascades and the references when
the statement ends, the share check when the transaction commits.
-/
import Astrea.StoreTypes

open Guard Service

namespace TeamTables

/-! ## The tables -/

/-- A row of `teams`. -/
structure TeamRow where
  eventId : RowId
  deriving DecidableEq

/-- A row of `team_members`. -/
structure TeamMemberRow where
  teamId : RowId
  eventId : RowId
  walletId : RowId
  shareBasisPoints : ℤ
  ordinal : ℤ
  deriving DecidableEq

/-- The two tables, with what they refer to and what refers to them. -/
structure Tables where
  events : KeyTable RowId EventStatus
  /-- The addresses of the wallets. -/
  wallets : KeyTable RowId Address
  /-- `prizes.winnerTeamId`, where it is not null. -/
  winnerTeamIds : List RowId
  /-- `payouts.teamMemberId`. -/
  teamMemberIds : List RowId
  teams : KeyTable RowId TeamRow
  teamMembers : KeyTable RowId TeamMemberRow

/-- Why a statement or a commit fails: an exception that a trigger raises, a constraint or
index that is violated. -/
inductive SqlError where
  | raised (m : Message)
  | violated (constraint : String)
  /-- A row that is not there cannot be visited. -/
  | notVisited
  deriving DecidableEq

/-- A row change as a row trigger sees it, `OLD` and `NEW`: an `INSERT` has no old row, a
`DELETE` no new one, an `UPDATE` may change any column. -/
inductive RowChange where
  | team (old new : Option (RowId × TeamRow))
  | teamMember (old new : Option (RowId × TeamMemberRow))
  deriving DecidableEq

/-! ## What acts on each row -/

namespace Tables

variable (db : Tables)

/-- The status of the event a team entered. -/
def eventStatus (teamId : RowId) : Option EventStatus :=
  match db.teams.lookup teamId with
  | none => none
  | some team => db.events.lookup team.eventId

/-- `COALESCE(NEW."teamId", OLD."teamId")`. -/
def triggerTeamId (old new : Option (RowId × TeamMemberRow)) : Option RowId :=
  (new.or old).map (·.2.teamId)

def teamMembersEnforceFreeze (old new : Option (RowId × TeamMemberRow)) :
    Except SqlError Unit :=
  match (triggerTeamId old new).bind db.eventStatus with
  -- a null status is not outside the list
  | none => .ok ()
  | some status =>
      ensure (status ∈ [.draft, .created, .live]) (.raised
        ⟨"team shares are locked once judging begins (event status %)", [.text status.text]⟩)

/-- A unique index: no other row has the same key. -/
def Unique {κ : Type} [DecidableEq κ] (key : TeamMemberRow → κ)
    (old new : Option (RowId × TeamMemberRow)) : Prop :=
  ∀ e ∈ new, ∀ r ∈ (db.teamMembers.without old).entries, key r.2 ≠ key e.2

instance {κ : Type} [DecidableEq κ] (key : TeamMemberRow → κ)
    (old new : Option (RowId × TeamMemberRow)) : Decidable (db.Unique key old new) :=
  inferInstanceAs (Decidable (∀ e ∈ new, ∀ r ∈ (db.teamMembers.without old).entries,
    key r.2 ≠ key e.2))

/-- One row change. -/
def change : RowChange → Except SqlError Tables
  | .team old new => do
      ensure (∀ e ∈ old, db.teams.lookup e.1 = some e.2) .notVisited
      ensure (∀ e ∈ new, (db.teams.without old).lookup e.1 = none) (.violated "teams_pkey")
      return { db with teams := db.teams.replace old new }
  | .teamMember old new => do
      ensure (∀ e ∈ old, db.teamMembers.lookup e.1 = some e.2) .notVisited
      db.teamMembersEnforceFreeze old new
      ensure (∀ e ∈ new, 0 < e.2.shareBasisPoints ∧ e.2.shareBasisPoints ≤ 10000)
        (.violated "team_members_shareBasisPoints_check")
      ensure (∀ e ∈ new, (db.teamMembers.without old).lookup e.1 = none)
        (.violated "team_members_pkey")
      ensure (db.Unique (fun m => (m.eventId, m.walletId)) old new)
        (.violated "team_members_eventId_walletId_key")
      ensure (db.Unique (fun m => (m.teamId, m.ordinal)) old new)
        (.violated "team_members_teamId_ordinal_key")
      return { db with teamMembers := db.teamMembers.replace old new }

/-- Row changes, one after the other. -/
def changeAll (db : Tables) : List RowChange → Except SqlError Tables
  | [] => .ok db
  | c :: cs => do
      let db ← db.change c
      db.changeAll cs

/-! ## Statements -/

/-- The member rows of a team. -/
def membersOf (teamId : RowId) : List (RowId × TeamMemberRow) :=
  (db.teamMembers.entries.filter fun e => e.2.teamId = teamId).map fun e => (e.1, e.2)

/-- The foreign keys, as they stand when a statement ends. -/
def checkReferences : Except SqlError Unit := do
  ensure (∀ e ∈ db.teams.entries, (db.events.lookup e.2.eventId).isSome)
    (.violated "teams_eventId_fkey")
  ensure (∀ e ∈ db.teamMembers.entries, (db.teams.lookup e.2.teamId).isSome)
    (.violated "team_members_teamId_fkey")
  ensure (∀ e ∈ db.teamMembers.entries, (db.wallets.lookup e.2.walletId).isSome)
    (.violated "team_members_walletId_fkey")
  ensure (∀ id ∈ db.winnerTeamIds, (db.teams.lookup id).isSome)
    (.violated "prizes_winnerTeamId_fkey")
  ensure (∀ id ∈ db.teamMemberIds, (db.teamMembers.lookup id).isSome)
    (.violated "payouts_teamMemberId_fkey")

end Tables

/-- A statement: the row changes it makes, in the order it makes them, all to one table. -/
inductive Statement where
  | teams (rows : List (Option (RowId × TeamRow) × Option (RowId × TeamRow)))
  | teamMembers (rows : List (Option (RowId × TeamMemberRow) × Option (RowId × TeamMemberRow)))

def Statement.changes : Statement → List RowChange
  | .teams rows => rows.map fun r => .team r.1 r.2
  | .teamMembers rows => rows.map fun r => .teamMember r.1 r.2

/-- The team a row change deletes. -/
def RowChange.deletedTeam : RowChange → Option RowId
  | .team (some e) none => some e.1
  | _ => none

/-- `ON DELETE CASCADE`: the member rows of the deleted teams go as well. -/
def cascade (db : Tables) (cs : List RowChange) : List RowChange :=
  (cs.filterMap RowChange.deletedTeam).flatMap fun teamId =>
    (db.membersOf teamId).map fun e => .teamMember (some e) none

/-- A statement, with all the row changes it has come to. -/
def Tables.exec (db : Tables) (s : Statement) : Except SqlError (Tables × List RowChange) := do
  let changed ← db.changeAll s.changes
  let cascaded := cascade changed s.changes
  let db' ← changed.changeAll cascaded
  db'.checkReferences
  return (db', s.changes ++ cascaded)

/-! ## Transactions -/

namespace Tables

variable (db : Tables)

/-- `count(*)` of the member rows of a team. -/
def memberCount (teamId : RowId) : ℤ :=
  KeyTable.totalOf (fun _ m => if m.teamId = teamId then 1 else 0) db.teamMembers

/-- `COALESCE(sum("shareBasisPoints"), 0)` over the member rows of a team. -/
def shareSum (teamId : RowId) : ℤ :=
  KeyTable.totalOf (fun _ m => if m.teamId = teamId then m.shareBasisPoints else 0) db.teamMembers

def checkTeamShares (teamId : RowId) : Except SqlError Unit :=
  match db.teams.lookup teamId with
  -- the team may be gone by the time a deferred check runs
  | none => .ok ()
  | some _ => do
      ensure (db.memberCount teamId ≠ 0) (.raised ⟨"team % has no members", [.text teamId]⟩)
      ensure (db.shareSum teamId = 10000) (.raised
        ⟨"team % member shares sum to % bp, must sum to exactly 10000",
          [.text teamId, .int (db.shareSum teamId)]⟩)

end Tables

/-- The team that the deferred trigger of a row change checks: `NEW."id"` after an `INSERT` of a
team, `COALESCE(NEW."teamId", OLD."teamId")` after any change of a member row. -/
def RowChange.validatedTeam : RowChange → Option RowId
  | .team none (some e) => some e.1
  | .team _ _ => none
  | .teamMember old new => Tables.triggerTeamId old new

/-- The statements of a transaction, with all their row changes. -/
def Tables.execAll (db : Tables) : List Statement → Except SqlError (Tables × List RowChange)
  | [] => .ok (db, [])
  | s :: rest => do
      let (db, cs) ← db.exec s
      let (db, cs') ← db.execAll rest
      return (db, cs ++ cs')

/-- The deferred checks. -/
def Tables.validateAll (db : Tables) : List RowId → Except SqlError Unit
  | [] => .ok ()
  | teamId :: rest => do
      db.checkTeamShares teamId
      db.validateAll rest

/-- A transaction that commits. -/
def Tables.transact (db : Tables) (tx : List Statement) : Except SqlError Tables := do
  let (db, cs) ← db.execAll tx
  db.validateAll (cs.filterMap RowChange.validatedTeam)
  return db

/-! ## What a row change does -/

/-- The freeze trigger lets a change through when the one team it looks at is of an event before
judging. -/
theorem teamMembersEnforceFreeze_eq_ok {db : Tables} {old new : Option (RowId × TeamMemberRow)}
    {u : Unit} :
    db.teamMembersEnforceFreeze old new = .ok u ↔
      ∀ teamId status, Tables.triggerTeamId old new = some teamId →
        db.eventStatus teamId = some status → status ∈ [EventStatus.draft, .created, .live] := by
  unfold Tables.teamMembersEnforceFreeze
  cases hstatus : (Tables.triggerTeamId old new).bind db.eventStatus with
  | none =>
      refine ⟨fun _ teamId status hteam heq => ?_, fun _ => rfl⟩
      rw [hteam, Option.bind_some, heq] at hstatus
      exact nomatch hstatus
  | some status =>
      obtain ⟨teamId, hteam, heq⟩ := Option.bind_eq_some_iff.mp hstatus
      simp only [ensure_eq_ok]
      constructor
      · intro hopen teamId' status' hteam' heq'
        rw [hteam] at hteam'
        obtain rfl := Option.some_inj.mp hteam'
        rw [heq] at heq'
        rwa [← Option.some_inj.mp heq']
      · exact fun h => h teamId status hteam heq

/-- A row of a team is replaced where it may be. -/
theorem change_team_eq_ok {db db' : Tables} {old new : Option (RowId × TeamRow)} :
    db.change (.team old new) = .ok db' ↔
      KeyTable.Replaceable db.teams old new ∧
        db' = { db with teams := db.teams.replace old new } := by
  simp only [Tables.change, bind_eq_ok, ensure_eq_ok, exists_const, pure_eq_ok]
  constructor
  · rintro ⟨hstored, hfree, rfl⟩
    exact ⟨⟨hstored, hfree⟩, rfl⟩
  · rintro ⟨h, rfl⟩
    exact ⟨h.stored, h.free, rfl⟩

/-- What every change of a member row passes. -/
structure MemberChange (db : Tables) (old new : Option (RowId × TeamMemberRow)) : Prop where
  replaceable : KeyTable.Replaceable db.teamMembers old new
  notFrozen : ∀ teamId status, Tables.triggerTeamId old new = some teamId →
    db.eventStatus teamId = some status → status ∈ [EventStatus.draft, .created, .live]
  share : ∀ e ∈ new, 0 < e.2.shareBasisPoints ∧ e.2.shareBasisPoints ≤ 10000
  wallet : db.Unique (fun m => (m.eventId, m.walletId)) old new
  ordinal : db.Unique (fun m => (m.teamId, m.ordinal)) old new

/-- A member's row is replaced where its constraints and triggers let it. -/
theorem change_teamMember_eq_ok {db db' : Tables} {old new : Option (RowId × TeamMemberRow)} :
    db.change (.teamMember old new) = .ok db' ↔
      MemberChange db old new ∧
        db' = { db with teamMembers := db.teamMembers.replace old new } := by
  simp only [Tables.change, bind_eq_ok, ensure_eq_ok, exists_const, pure_eq_ok,
    teamMembersEnforceFreeze_eq_ok]
  constructor
  · rintro ⟨hstored, hopen, hshare, hfree, hwallet, hordinal, rfl⟩
    exact ⟨⟨⟨hstored, hfree⟩, hopen, hshare, hwallet, hordinal⟩, rfl⟩
  · rintro ⟨h, rfl⟩
    exact ⟨h.replaceable.stored, h.notFrozen, h.share, h.replaceable.free, h.wallet, h.ordinal,
      rfl⟩

/-- What every row change of a list keeps, the list keeps. -/
theorem changeAll_keeps {P : Tables → Prop} {cs : List RowChange}
    (hstep : ∀ c ∈ cs, ∀ db db', P db → db.change c = .ok db' → P db') {db db' : Tables}
    (hdb : P db) (h : db.changeAll cs = .ok db') : P db' := by
  induction cs generalizing db with
  | nil =>
      rw [← Except.ok.inj h]
      exact hdb
  | cons c cs ih =>
      simp only [Tables.changeAll, bind_eq_ok] at h
      obtain ⟨db₁, hc, hrest⟩ := h
      exact ih (fun c' hc' => hstep c' (List.mem_cons_of_mem _ hc'))
        (hstep c List.mem_cons_self db db₁ hdb hc) hrest

/-- Every row of the two tables refers to rows that are there, and so do the prizes and the
payouts. -/
structure References (db : Tables) : Prop where
  events : ∀ id team, db.teams.lookup id = some team → (db.events.lookup team.eventId).isSome
  teams : ∀ id m, db.teamMembers.lookup id = some m → (db.teams.lookup m.teamId).isSome
  wallets : ∀ id m, db.teamMembers.lookup id = some m → (db.wallets.lookup m.walletId).isSome
  winners : ∀ id ∈ db.winnerTeamIds, (db.teams.lookup id).isSome
  paid : ∀ id ∈ db.teamMemberIds, (db.teamMembers.lookup id).isSome

theorem checkReferences_eq_ok {db : Tables} {u : Unit} :
    db.checkReferences = .ok u ↔ References db := by
  simp only [Tables.checkReferences, bind_eq_ok, ensure_eq_ok, exists_const]
  constructor
  · rintro ⟨hevents, hteams, hwallets, hwinners, hpaid⟩
    exact ⟨fun id team h => hevents ⟨id, team⟩ (AList.mem_lookup_iff.mp h),
      fun id m h => hteams ⟨id, m⟩ (AList.mem_lookup_iff.mp h),
      fun id m h => hwallets ⟨id, m⟩ (AList.mem_lookup_iff.mp h), hwinners, hpaid⟩
  · intro h
    exact ⟨fun e he => h.events e.1 e.2 (AList.mem_lookup_iff.mpr he),
      fun e he => h.teams e.1 e.2 (AList.mem_lookup_iff.mpr he),
      fun e he => h.wallets e.1 e.2 (AList.mem_lookup_iff.mpr he), h.winners, h.paid⟩

/-- A statement makes its changes, then the cascade, and is checked against the references at its
end. -/
theorem exec_eq_ok {db db' : Tables} {s : Statement} {cs : List RowChange} :
    db.exec s = .ok (db', cs) ↔ ∃ changed, db.changeAll s.changes = .ok changed ∧
      changed.changeAll (cascade changed s.changes) = .ok db' ∧ References db' ∧
      cs = s.changes ++ cascade changed s.changes := by
  simp only [Tables.exec, bind_eq_ok, checkReferences_eq_ok, exists_const, pure_eq_ok,
    Prod.mk.injEq]
  constructor
  · rintro ⟨changed, hchanged, db₁, hcascade, hrefs, rfl, rfl⟩
    exact ⟨changed, hchanged, hcascade, hrefs, rfl⟩
  · rintro ⟨changed, hchanged, hcascade, hrefs, rfl⟩
    exact ⟨changed, hchanged, db', hcascade, hrefs, rfl, rfl⟩

/-- A cascade deletes the member rows of deleted teams. -/
theorem mem_cascade {db : Tables} {cs : List RowChange} {c : RowChange}
    (h : c ∈ cascade db cs) : ∃ e : RowId × TeamMemberRow, c = .teamMember (some e) none ∧
      db.teamMembers.lookup e.1 = some e.2 ∧ ∃ c' ∈ cs, c'.deletedTeam = some e.2.teamId := by
  obtain ⟨teamId, hteam, hc⟩ := List.mem_flatMap.mp h
  obtain ⟨e, he, rfl⟩ := List.mem_map.mp hc
  obtain ⟨r, hr, rfl⟩ := List.mem_map.mp he
  obtain ⟨hmem, hfilter⟩ := List.mem_filter.mp hr
  have heq : r.2.teamId = teamId := by simpa using hfilter
  obtain ⟨c', hc', hdeleted⟩ := List.mem_filterMap.mp hteam
  exact ⟨_, rfl, AList.mem_lookup_iff.mpr hmem, c', hc', by rw [hdeleted, heq]⟩

namespace Sample

/-- Two live events and three wallets, no team yet. -/
def opened : Tables where
  events := (∅ : KeyTable RowId EventStatus).insert "event" .live |>.insert "other" .live
  wallets := (∅ : KeyTable RowId Address).insert "wallet" (.account 1)
    |>.insert "wallet'" (.account 2) |>.insert "wallet''" (.account 3)
  winnerTeamIds := []
  teamMemberIds := []
  teams := ∅
  teamMembers := ∅

def member : RowId × TeamMemberRow := ("member", ⟨"team", "event", "wallet", 6000, 0⟩)

def member' : RowId × TeamMemberRow := ("member'", ⟨"team", "event", "wallet'", 4000, 1⟩)

/-- A team of two registers. -/
def register : List Statement :=
  [.teams [(none, some ("team", ⟨"event"⟩))],
   .teamMembers [(none, some member), (none, some member')]]

end Sample

end TeamTables
