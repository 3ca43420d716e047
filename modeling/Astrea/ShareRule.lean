/-
# One share rule

A team has a member, every share is between 1 and 10000 basis points, and the shares add up to
10000.  The web application checks this rule of a list of shares, the database of the rows of a
new team, and the release of the team that won a prize.  They agree on every list of 32-bit
shares, for every prize large enough to pay a share of one basis point and small enough for the
product of the prize and a share.
-/
import Astrea.TeamShares
import Astrea.AllocateSplit

open Guard Service

namespace TeamTables

/-- The rule. -/
structure FullSplit (shares : List ℤ) : Prop where
  nonempty : shares ≠ []
  bounds : ∀ share ∈ shares, 0 < share ∧ share ≤ 10000
  sum : shares.sum = 10000

/-! ## The web application -/

def fullUnitBasisPoints : ℚ := 10000

/-- Why a list of shares is refused. -/
inductive ShareReason where
  /-- `a team must have at least one member` -/
  | noMembers
  /-- `each member's share must be an integer between 1 and 10000 bp, got ${share}` -/
  | shareOutOfRange (share : ℚ)
  /-- `member shares sum to ${sum} bp, must sum to exactly 10000` -/
  | wrongSum (sum : ℚ)
  deriving DecidableEq

structure TeamShareValidationResult where
  valid : Bool
  reason : Option ShareReason
  deriving DecidableEq

/-- The shares are finite numbers; the sum is taken of integers up to 10000 only, where it is
exact. -/
def validateTeamShares (shares : List ℚ) : TeamShareValidationResult :=
  if shares = [] then ⟨false, some .noMembers⟩
  else
    match shares.find? fun share =>
        share.den ≠ 1 || share ≤ 0 || share > fullUnitBasisPoints with
    | some share => ⟨false, some (.shareOutOfRange share)⟩
    | none =>
        let sum := shares.foldl (fun total share => total + share) 0
        if sum ≠ fullUnitBasisPoints then ⟨false, some (.wrongSum sum)⟩ else ⟨true, none⟩

theorem foldl_cast (shares : List ℤ) (total : ℤ) :
    (shares.map fun share : ℤ => (share : ℚ)).foldl (fun total share => total + share) (total : ℚ)
      = ((total + shares.sum : ℤ) : ℚ) := by
  induction shares generalizing total with
  | nil => rw [List.map_nil, List.foldl_nil, List.sum_nil, add_zero]
  | cons share shares ih =>
      rw [List.map_cons, List.foldl_cons, ← Int.cast_add, ih, List.sum_cons, add_assoc]

/-- The web application checks the rule. -/
theorem validateTeamShares_iff (shares : List ℤ) :
    (validateTeamShares (shares.map fun share : ℤ => (share : ℚ))).valid = true
      ↔ FullSplit shares := by
  have hsum : (shares.map fun share : ℤ => (share : ℚ)).foldl (fun total share => total + share) 0
      = (shares.sum : ℚ) := by
    have h := foldl_cast shares 0
    rwa [Int.cast_zero, zero_add] at h
  have hfind : ((shares.map fun share : ℤ => (share : ℚ)).find? fun share =>
      share.den ≠ 1 || share ≤ 0 || share > fullUnitBasisPoints) = none ↔
        ∀ share ∈ shares, 0 < share ∧ share ≤ 10000 := by
    have hunit : fullUnitBasisPoints = ((10000 : ℤ) : ℚ) := rfl
    rw [List.find?_eq_none, List.forall_mem_map]
    refine forall₂_congr fun share _ => ?_
    rw [hunit]
    simp only [Rat.den_intCast, ne_eq, not_true_eq_false, decide_false, Bool.false_or,
      Bool.or_eq_true, decide_eq_true_eq, gt_iff_lt, Int.cast_lt, Int.cast_nonpos]
    omega
  unfold validateTeamShares
  by_cases hnil : shares.map (fun share : ℤ => (share : ℚ)) = []
  · rw [if_pos hnil]
    exact ⟨nofun, fun h => absurd (List.map_eq_nil_iff.mp hnil) h.nonempty⟩
  · rw [if_neg hnil]
    split
    · rename_i share hbad
      refine ⟨nofun, fun h => ?_⟩
      rw [hfind.mpr h.bounds] at hbad
      exact nomatch hbad
    · rename_i hbounds
      have hwhole : (shares.sum : ℚ) ≠ fullUnitBasisPoints ↔ shares.sum ≠ 10000 := by
        rw [show fullUnitBasisPoints = ((10000 : ℤ) : ℚ) from rfl, Ne, Int.cast_inj]
      simp only [hsum, hwhole]
      split
      · rename_i hwrong
        exact ⟨nofun, fun h => absurd h.sum hwrong⟩
      · rename_i hright
        exact ⟨fun _ => ⟨fun h => hnil (List.map_eq_nil_iff.mpr h), hfind.mp hbounds,
          not_not.mp hright⟩, fun _ => rfl⟩

/-! ## The database -/

/-- A member of a new team: a wallet, its address, its ordinal and its share. -/
structure NewMember where
  id : RowId
  walletId : RowId
  address : Address
  ordinal : Int32
  shareBasisPoints : Int32
  deriving DecidableEq

/-- The share of a member. -/
def NewMember.share (m : NewMember) : ℤ := m.shareBasisPoints.toInt

/-- The row of a member. -/
def NewMember.row (teamId eventId : RowId) (m : NewMember) : RowId × TeamMemberRow :=
  (m.id, ⟨teamId, eventId, m.walletId, m.share, m.ordinal.toInt⟩)

/-- The statement that inserts the rows of some members. -/
def insertMembers (teamId eventId : RowId) (members : List NewMember) : Statement :=
  .teamMembers (members.map fun m => (none, some (m.row teamId eventId)))

/-- The transaction that inserts a team and, in one statement or in several, its members. -/
def registerTeam (teamId eventId : RowId) (groups : List (List NewMember)) : List Statement :=
  .teams [(none, some (teamId, ⟨eventId⟩))] :: groups.map (insertMembers teamId eventId)

/-- The members may enter the event as a new team, whatever their shares: the event is open, the
ids are new, the wallets exist and are new to the event, and the ordinals are distinct. -/
structure Newcomers (db : Tables) (teamId eventId : RowId) (members : List NewMember) : Prop where
  references : References db
  status : ∃ status ∈ [EventStatus.draft, .created, .live], db.events.lookup eventId = some status
  team : db.teams.lookup teamId = none
  wallets : ∀ m ∈ members, db.wallets.lookup m.walletId = some m.address
  ids : (members.map (·.id)).Nodup
  walletIds : (members.map (·.walletId)).Nodup
  ordinals : (members.map (·.ordinal)).Nodup
  rows : ∀ id r, db.teamMembers.lookup id = some r → ∀ m ∈ members,
    id ≠ m.id ∧ (r.eventId = eventId → r.walletId ≠ m.walletId)

/-- The members may join the team that is there, whatever their shares. -/
structure Joinable (db : Tables) (teamId eventId : RowId) (members : List NewMember) : Prop where
  references : References db
  status : ∃ status ∈ [EventStatus.draft, .created, .live], db.events.lookup eventId = some status
  team : db.teams.lookup teamId = some ⟨eventId⟩
  wallets : ∀ m ∈ members, db.wallets.lookup m.walletId = some m.address
  ids : (members.map (·.id)).Nodup
  walletIds : (members.map (·.walletId)).Nodup
  ordinals : (members.map (·.ordinal)).Nodup
  rows : ∀ id r, db.teamMembers.lookup id = some r → ∀ m ∈ members,
    id ≠ m.id ∧ (r.eventId = eventId → r.walletId ≠ m.walletId) ∧
      (r.teamId = teamId → r.ordinal ≠ m.ordinal.toInt)

/-- The tables with more member rows. -/
def Tables.withMembers (db : Tables) (rows : List (RowId × TeamMemberRow)) : Tables :=
  { db with teamMembers := db.teamMembers.insertAll rows }

section Join

variable {db db' : Tables} {teamId eventId : RowId} {m : NewMember} {members : List NewMember}

/-- A member row is inserted when its share is within bounds. -/
theorem Joinable.change (h : Joinable db teamId eventId (m :: members)) :
    db.change (.teamMember none (some (m.row teamId eventId))) = .ok db' ↔
      (0 < m.share ∧ m.share ≤ 10000) ∧ db' = db.withMembers [m.row teamId eventId] := by
  rw [change_teamMember_eq_ok]
  have hrow := fun id r hr => h.rows id r hr m List.mem_cons_self
  refine and_congr_left fun _ => ⟨fun hc => hc.share _ rfl, fun hshare => ⟨⟨nofun, ?_⟩, ?_, ?_, ?_, ?_⟩⟩
  · rintro e ⟨⟩
    cases hlookup : db.teamMembers.lookup m.id with
    | none => exact hlookup
    | some r => exact absurd rfl (hrow m.id r hlookup).1
  · rintro id status ⟨⟩ hstatus
    obtain ⟨status', hopen, hlookup⟩ := h.status
    have hevent : db.eventStatus teamId = db.events.lookup eventId := by
      rw [Tables.eventStatus, h.team]
    obtain rfl := Option.some_inj.mp (hlookup.symm.trans (hevent.symm.trans hstatus))
    exact hopen
  · rintro e ⟨⟩
    exact hshare
  · rintro e ⟨⟩ r hr heq
    obtain ⟨hevent, hwallet⟩ := Prod.mk.injEq .. ▸ heq
    exact (hrow r.1 r.2 (KeyTable.lookup_of_mem_entries hr)).2.1 hevent hwallet
  · rintro e ⟨⟩ r hr heq
    obtain ⟨hteam, hordinal⟩ := Prod.mk.injEq .. ▸ heq
    exact (hrow r.1 r.2 (KeyTable.lookup_of_mem_entries hr)).2.2 hteam hordinal

/-- The others may still join after one has. -/
theorem Joinable.rest (h : Joinable db teamId eventId (m :: members)) :
    Joinable (db.withMembers [m.row teamId eventId]) teamId eventId members := by
  obtain ⟨hids, hids'⟩ := List.nodup_cons.mp h.ids
  obtain ⟨hwallets, hwallets'⟩ := List.nodup_cons.mp h.walletIds
  obtain ⟨hordinals, hordinals'⟩ := List.nodup_cons.mp h.ordinals
  have hlookup : ∀ {id r}, (db.withMembers [m.row teamId eventId]).teamMembers.lookup id = some r →
      (id = m.id ∧ r = (m.row teamId eventId).2) ∨ db.teamMembers.lookup id = some r := by
    intro id r hr
    rcases KeyTable.lookup_insert_eq_some.mp hr with hnew | ⟨-, hold⟩
    · exact .inl hnew
    · exact .inr hold
  refine ⟨⟨h.references.events, ?_, ?_, h.references.winners, ?_⟩, h.status, h.team,
    fun m' hm' => h.wallets m' (List.mem_cons_of_mem _ hm'), hids', hwallets', hordinals', ?_⟩
  · intro id r hr
    rcases hlookup hr with ⟨-, rfl⟩ | hold
    · exact Option.isSome_of_eq_some h.team
    · exact h.references.teams id r hold
  · intro id r hr
    rcases hlookup hr with ⟨-, rfl⟩ | hold
    · exact Option.isSome_of_eq_some (h.wallets m List.mem_cons_self)
    · exact h.references.wallets id r hold
  · intro id hid
    obtain ⟨r, hr⟩ := Option.isSome_iff_exists.mp (h.references.paid id hid)
    have hne : id ≠ m.id := (h.rows id r hr m List.mem_cons_self).1
    exact Option.isSome_of_eq_some
      (KeyTable.lookup_insert_eq_some.mpr (.inr ⟨hne, hr⟩) : _ = some r)
  · intro id r hr m' hm'
    rcases hlookup hr with ⟨rfl, rfl⟩ | hold
    · exact ⟨fun heq => hids (List.mem_map.mpr ⟨m', hm', heq.symm⟩),
        fun _ heq => hwallets (List.mem_map.mpr ⟨m', hm', heq.symm⟩),
        fun _ heq => hordinals (List.mem_map.mpr ⟨m', hm', (Int32.toInt_inj.mp heq).symm⟩)⟩
    · exact h.rows id r hold m' (List.mem_cons_of_mem _ hm')

/-- Others may still join after some have. -/
theorem Joinable.withMembers {rest : List NewMember}
    (h : Joinable db teamId eventId (members ++ rest)) :
    Joinable (db.withMembers (members.map (NewMember.row teamId eventId))) teamId eventId rest := by
  induction members generalizing db with
  | nil => exact h
  | cons m members ih => exact ih h.rest

/-- Some members join when their shares are within bounds. -/
theorem Joinable.changeAll {rest : List NewMember}
    (h : Joinable db teamId eventId (members ++ rest)) :
    db.changeAll (insertMembers teamId eventId members).changes = .ok db' ↔
      (∀ m ∈ members, 0 < m.share ∧ m.share ≤ 10000) ∧
        db' = db.withMembers (members.map (NewMember.row teamId eventId)) := by
  induction members generalizing db with
  | nil =>
      refine ⟨fun hok => ⟨fun _ hm => absurd hm List.not_mem_nil, (Except.ok.inj hok).symm⟩, ?_⟩
      rintro ⟨-, rfl⟩
      rfl
  | cons m members ih =>
      have hall := ih h.rest
      have hcons : (insertMembers teamId eventId (m :: members)).changes
          = .teamMember none (some (m.row teamId eventId))
            :: (insertMembers teamId eventId members).changes := rfl
      rw [hcons, Tables.changeAll, bind_eq_ok, List.forall_mem_cons]
      constructor
      · rintro ⟨db₁, hm, hmembers⟩
        obtain ⟨hshare, rfl⟩ := h.change.mp hm
        obtain ⟨hshares, rfl⟩ := hall.mp hmembers
        exact ⟨⟨hshare, hshares⟩, rfl⟩
      · rintro ⟨⟨hshare, hshares⟩, rfl⟩
        exact ⟨_, h.change.mpr ⟨hshare, rfl⟩, hall.mpr ⟨hshares, rfl⟩⟩

/-- An insertion deletes nothing. -/
theorem cascade_insertMembers (db : Tables) :
    cascade db (insertMembers teamId eventId members).changes = [] := by
  have hnone : (insertMembers teamId eventId members).changes.filterMap RowChange.deletedTeam
      = [] := by
    rw [List.filterMap_eq_nil_iff]
    intro c hc
    obtain ⟨r, hr, rfl⟩ := List.mem_map.mp hc
    obtain ⟨m, -, rfl⟩ := List.mem_map.mp hr
    rfl
  rw [cascade, hnone, List.flatMap_nil]

/-- The statements of a registration, behind the one that inserts the team. -/
theorem Joinable.execAll {groups : List (List NewMember)} {cs : List RowChange}
    (h : Joinable db teamId eventId groups.flatten) :
    db.execAll (groups.map (insertMembers teamId eventId)) = .ok (db', cs) ↔
      (∀ m ∈ groups.flatten, 0 < m.share ∧ m.share ≤ 10000) ∧
        db' = db.withMembers (groups.flatten.map (NewMember.row teamId eventId)) ∧
        cs = (insertMembers teamId eventId groups.flatten).changes := by
  induction groups generalizing db db' cs with
  | nil =>
      rw [List.map_nil, Tables.execAll, Except.ok.injEq, Prod.mk.injEq]
      constructor
      · rintro ⟨rfl, rfl⟩
        exact ⟨fun _ hm => absurd hm List.not_mem_nil, rfl, rfl⟩
      · rintro ⟨-, rfl, rfl⟩
        exact ⟨rfl, rfl⟩
  | cons members groups ih =>
      rw [List.flatten_cons] at h
      have hrest := h.withMembers
      have happend : db.withMembers ((members ++ groups.flatten).map (NewMember.row teamId eventId))
          = (db.withMembers (members.map (NewMember.row teamId eventId))).withMembers
            (groups.flatten.map (NewMember.row teamId eventId)) := by
        rw [List.map_append, Tables.withMembers, KeyTable.insertAll_append]
        rfl
      have hchanges : (insertMembers teamId eventId (members ++ groups.flatten)).changes
          = (insertMembers teamId eventId members).changes
            ++ (insertMembers teamId eventId groups.flatten).changes := by
        simp [insertMembers, Statement.changes]
      simp only [List.map_cons, Tables.execAll, bind_eq_ok, pure_eq_ok, Prod.exists, Prod.mk.injEq,
        exec_eq_ok, h.changeAll, List.flatten_cons, List.forall_mem_append]
      constructor
      · rintro ⟨db₁, cs₁, ⟨_, ⟨hshares, rfl⟩, hcascade, hrefs, rfl⟩, db₂, cs₂, hothers, rfl, rfl⟩
        rw [cascade_insertMembers] at hcascade
        obtain rfl := Except.ok.inj hcascade
        obtain ⟨hshares', rfl, rfl⟩ := (ih hrest).mp hothers
        refine ⟨⟨hshares, hshares'⟩, happend.symm, ?_⟩
        rw [cascade_insertMembers, List.append_nil, hchanges]
      · rintro ⟨⟨hshares, hshares'⟩, rfl, rfl⟩
        refine ⟨_, _, ⟨_, ⟨hshares, rfl⟩, ?_, hrest.references, rfl⟩, _, _,
          (ih hrest).mpr ⟨hshares', rfl, rfl⟩, happend.symm, ?_⟩
        · rw [cascade_insertMembers]
          rfl
        · rw [cascade_insertMembers, List.append_nil, hchanges]

/-- The tables with the new team, which has no members yet. -/
def Tables.withTeam (db : Tables) (teamId eventId : RowId) : Tables :=
  { db with teams := db.teams.insert teamId ⟨eventId⟩ }

/-- No row names a team that is not there. -/
theorem Newcomers.not_teamId (h : Newcomers db teamId eventId members) {id : RowId}
    {r : TeamMemberRow} (hr : db.teamMembers.lookup id = some r) : r.teamId ≠ teamId := by
  rintro rfl
  have hthere := h.references.teams id r hr
  rw [h.team] at hthere
  exact nomatch hthere

/-- The newcomers may join the team once it is inserted. -/
theorem Newcomers.joinable (h : Newcomers db teamId eventId members) :
    Joinable (db.withTeam teamId eventId) teamId eventId members := by
  have hkept : ∀ {id team}, db.teams.lookup id = some team →
      (db.withTeam teamId eventId).teams.lookup id = some team := by
    intro id team hteam
    refine KeyTable.lookup_insert_eq_some.mpr (.inr ⟨?_, hteam⟩)
    rintro rfl
    rw [h.team] at hteam
    exact nomatch hteam
  have hsome : ∀ {id}, (db.teams.lookup id).isSome →
      ((db.withTeam teamId eventId).teams.lookup id).isSome := by
    intro id hid
    obtain ⟨team, hteam⟩ := Option.isSome_iff_exists.mp hid
    exact Option.isSome_of_eq_some (hkept hteam)
  refine ⟨⟨?_, fun id r hr => hsome (h.references.teams id r hr), h.references.wallets,
    fun id hid => hsome (h.references.winners id hid), h.references.paid⟩, h.status,
    AList.lookup_insert _, h.wallets, h.ids, h.walletIds, h.ordinals, ?_⟩
  · intro id team hteam
    rcases KeyTable.lookup_insert_eq_some.mp hteam with ⟨-, rfl⟩ | ⟨-, hteam⟩
    · obtain ⟨status, -, hlookup⟩ := h.status
      exact Option.isSome_of_eq_some hlookup
    · exact h.references.events id team hteam
  · intro id r hr m hm
    obtain ⟨hid, hwallet⟩ := h.rows id r hr m hm
    exact ⟨hid, hwallet, fun hteam => absurd hteam (h.not_teamId hr)⟩

/-- The count and the sum that the deferred check finds. -/
theorem Newcomers.totals (h : Newcomers db teamId eventId members) :
    ((db.withTeam teamId eventId).withMembers
        (members.map (NewMember.row teamId eventId))).memberCount teamId = members.length ∧
      ((db.withTeam teamId eventId).withMembers
        (members.map (NewMember.row teamId eventId))).shareSum teamId
          = (members.map NewMember.share).sum := by
  have htotal : ∀ f : TeamMemberRow → ℤ, KeyTable.totalOf
      (fun _ r => if r.teamId = teamId then f r else 0)
        (db.teamMembers.insertAll (members.map (NewMember.row teamId eventId)))
      = (members.map fun m => f (m.row teamId eventId).2).sum := by
    intro f
    have hkeys : ((members.map (NewMember.row teamId eventId)).map Prod.fst).Nodup := by
      rw [List.map_map]
      exact h.ids
    have hfree : ∀ e ∈ members.map (NewMember.row teamId eventId),
        db.teamMembers.lookup e.1 = none := by
      intro e he
      obtain ⟨m, hm, rfl⟩ := List.mem_map.mp he
      cases hlookup : db.teamMembers.lookup (m.row teamId eventId).1 with
      | none => rfl
      | some r => exact absurd rfl (h.rows _ r hlookup m hm).1
    have hnone : KeyTable.totalOf (fun _ r => if r.teamId = teamId then f r else 0)
        db.teamMembers = 0 := by
      refine List.sum_eq_zero fun x hx => ?_
      obtain ⟨e, he, rfl⟩ := List.mem_map.mp hx
      exact if_neg (h.not_teamId (KeyTable.lookup_of_mem_entries he))
    rw [KeyTable.totalOf_insertAll _ hkeys hfree, hnone, zero_add, List.map_map]
    refine congrArg List.sum (List.map_congr_left fun m _ => ?_)
    exact if_pos rfl
  constructor
  · rw [Tables.memberCount, Tables.withMembers, Tables.withTeam, htotal fun _ => 1]
    simp
  · exact htotal (·.shareBasisPoints)

/-- The statement that inserts the team. -/
theorem Newcomers.exec_team (h : Newcomers db teamId eventId members) {cs : List RowChange} :
    db.exec (.teams [(none, some (teamId, ⟨eventId⟩))]) = .ok (db', cs) ↔
      db' = db.withTeam teamId eventId ∧ cs = [.team none (some (teamId, ⟨eventId⟩))] := by
  have hreplaceable : KeyTable.Replaceable db.teams none (some (teamId, ⟨eventId⟩)) := by
    refine ⟨nofun, ?_⟩
    rintro e ⟨⟩
    exact h.team
  have hchange : db.changeAll (Statement.teams [(none, some (teamId, ⟨eventId⟩))]).changes
      = .ok (db.withTeam teamId eventId) :=
    bind_eq_ok.mpr ⟨_, change_team_eq_ok.mpr ⟨hreplaceable, rfl⟩, rfl⟩
  rw [exec_eq_ok]
  constructor
  · rintro ⟨changed, hchanged, hcascade, -, rfl⟩
    obtain rfl := Except.ok.inj (hchange.symm.trans hchanged)
    exact ⟨(Except.ok.inj hcascade).symm, rfl⟩
  · rintro ⟨rfl, rfl⟩
    exact ⟨_, hchange, rfl, h.joinable.references, rfl⟩

/-- The deferred triggers of a registration check the new team only. -/
theorem validatedTeam_register {id : RowId}
    (hid : id ∈ (RowChange.team none (some (teamId, ⟨eventId⟩))
      :: (insertMembers teamId eventId members).changes).filterMap RowChange.validatedTeam) :
    id = teamId := by
  have hteam : RowChange.validatedTeam (.team none (some (teamId, ⟨eventId⟩))) = some teamId := rfl
  rw [List.filterMap_cons_some hteam] at hid
  rcases List.mem_cons.mp hid with rfl | hid
  · rfl
  · obtain ⟨c, hc, hvalidated⟩ := List.mem_filterMap.mp hid
    obtain ⟨r, hr, rfl⟩ := List.mem_map.mp hc
    obtain ⟨m, -, rfl⟩ := List.mem_map.mp hr
    exact (Option.some_inj.mp hvalidated).symm

/-- A registration commits when the shares of the new members keep the rule. -/
theorem Newcomers.transact_iff {groups : List (List NewMember)}
    (h : Newcomers db teamId eventId groups.flatten) :
    (∃ db', db.transact (registerTeam teamId eventId groups) = .ok db') ↔
      FullSplit (groups.flatten.map NewMember.share) := by
  obtain ⟨hcount, hsum⟩ := h.totals
  have hteam : ∀ rows, ((db.withTeam teamId eventId).withMembers rows).teams.lookup teamId
      = some ⟨eventId⟩ := fun _ => AList.lookup_insert _
  simp only [Tables.transact, registerTeam, Tables.execAll, bind_eq_ok, pure_eq_ok, Prod.exists,
    Prod.mk.injEq, h.exec_team, validateAll_eq_ok]
  constructor
  · rintro ⟨_, after, cs, ⟨_, _, ⟨rfl, rfl⟩, _, _, hmembers, rfl, rfl⟩, _, hvalid, rfl⟩
    obtain ⟨hshares, rfl, rfl⟩ := h.joinable.execAll.mp hmembers
    obtain ⟨hne, htotal⟩ := hvalid teamId List.mem_cons_self _ (hteam _)
    rw [hcount] at hne
    refine ⟨fun hnil => hne ?_, fun share hshare => ?_, hsum ▸ htotal⟩
    · rw [List.map_eq_nil_iff.mp hnil]
      rfl
    · obtain ⟨m, hm, rfl⟩ := List.mem_map.mp hshare
      exact hshares m hm
  · intro hsplit
    refine ⟨_, _, _, ⟨_, _, ⟨rfl, rfl⟩, _, _, h.joinable.execAll.mpr ⟨fun m hm =>
      hsplit.bounds _ (List.mem_map_of_mem hm), rfl, rfl⟩, rfl, rfl⟩, (), ?_, rfl⟩
    intro id hid team _
    rw [validatedTeam_register hid, hcount, hsum]
    refine ⟨fun hzero => hsplit.nonempty ?_, hsplit.sum⟩
    rw [List.length_eq_zero_iff.mp (Int.natCast_eq_zero.mp hzero), List.map_nil]

end Join

/-! ## The release -/

/-- The member as the release sees it. -/
def NewMember.member (m : NewMember) : Member :=
  ⟨m.address, m.ordinal.toInt64, m.shareBasisPoints.toInt64⟩

theorem NewMember.member_share (m : NewMember) : m.member.shareBasisPoints.toInt = m.share :=
  Int32.toInt_toInt64 _

/-- The exact sum of the shares of a team. -/
theorem exact_shares_member (members : List NewMember) :
    WrappingSum.exact ((members.map NewMember.member).map (·.shareBasisPoints))
      = (members.map NewMember.share).sum := by
  rw [WrappingSum.exact, List.map_map, List.map_map]
  exact congrArg List.sum (List.map_congr_left fun m _ => m.member_share)

/-- A release of one prize to one team is refused exactly when the team is. -/
theorem allocateWinners_one {amount : Int64} {place : UInt32} {team : List Member}
    (hlen : team.length ≤ maxWinners) :
    (∃ ws, allocateWinners amount [⟨place, amount⟩] [⟨place, team⟩] = .ok ws) ↔
      0 < amount ∧ PayableTeam amount team := by
  constructor
  · rintro ⟨ws, hws⟩
    have h := allocateWinners_iff_allocated.mp hws
    obtain ⟨t, ht, -, hpay⟩ := h.payable _ (List.mem_singleton_self _)
    rw [List.mem_singleton.mp ht] at hpay
    exact ⟨h.amounts_pos _ (List.mem_singleton_self _), hpay⟩
  · rintro ⟨hpos, hpay⟩
    refine ⟨_, allocateWinners_iff_allocated.mpr
      ⟨List.cons_ne_nil _ _, ?_, ?_, rfl, List.nodup_singleton _, ?_, ?_, rfl⟩⟩
    · exact fun p hp => (List.mem_singleton.mp hp) ▸ hpos
    · rw [List.map_singleton, List.sum_singleton]
    · rw [List.map_singleton, List.sum_singleton]
      exact hlen
    · exact fun p hp => ⟨_, List.mem_singleton_self _, by rw [List.mem_singleton.mp hp], by
        rw [List.mem_singleton.mp hp]
        exact hpay⟩

theorem member_shares_pos {members : List NewMember} :
    (∀ m ∈ members.map NewMember.member, 0 < m.shareBasisPoints) ↔
      ∀ share ∈ members.map NewMember.share, 0 < share := by
  rw [List.forall_mem_map, List.forall_mem_map]
  refine forall₂_congr fun m _ => ?_
  rw [Int64.lt_iff_toInt_lt, m.member_share, Int64.toInt_zero]

/-- A team that is paid keeps the rule: its shares of 32 bits do not wrap a sum of 64. -/
theorem fullSplit_of_payable {amount : Int64} {members : List NewMember}
    (hlen : members.length ≤ maxWinners) (hpay : PayableTeam amount (members.map NewMember.member)) :
    FullSplit (members.map NewMember.share) := by
  have hshares := member_shares_pos.mp hpay.shares_pos
  have hlt : (members.map NewMember.share).sum < 2 ^ 63 := by
    have hle := List.sum_le_card_nsmul (members.map NewMember.share) (2 ^ 31) (by
      intro share hshare
      obtain ⟨m, -, rfl⟩ := List.mem_map.mp hshare
      exact le_of_lt m.shareBasisPoints.toInt_lt)
    rw [List.length_map, nsmul_eq_mul] at hle
    unfold maxWinners at hlen
    omega
  have hexact := WrappingSum.toInt_sum_of_lt
    (l := (members.map NewMember.member).map (·.shareBasisPoints))
    (List.forall_mem_map.mpr hpay.shares_pos) (by rwa [exact_shares_member])
  rw [hpay.shares_sum, exact_shares_member] at hexact
  have hsum : (members.map NewMember.share).sum = 10000 := hexact.symm
  refine ⟨fun hnil => ?_, fun share hshare => ⟨hshares share hshare, ?_⟩, hsum⟩
  · rw [List.map_eq_nil_iff.mp hnil] at hpay
    exact hpay.nonempty rfl
  · rw [← hsum]
    exact List.single_le_sum (fun s hs => (hshares s hs).le) share hshare

/-- The floor of a share of such a prize is positive, and its product does not wrap. -/
theorem floor_of_bounds {amount : Int64} {m : Member} (hlow : 10000 ≤ amount.toInt)
    (hhigh : amount.toInt ≤ (2 ^ 63 - 1) / 10000) (hpos : 0 < m.shareBasisPoints.toInt)
    (hle : m.shareBasisPoints.toInt ≤ 10000) : 0 < exactFloor amount m ∧ Fits amount m := by
  have hsmall : amount.toInt * 1 ≤ amount.toInt * m.shareBasisPoints.toInt :=
    Int.mul_le_mul_of_nonneg_left hpos (by omega)
  have hlarge : amount.toInt * m.shareBasisPoints.toInt ≤ amount.toInt * 10000 :=
    Int.mul_le_mul_of_nonneg_left hle (by omega)
  rw [exactFloor, FloorShares.floorShare, Fits]
  omega

/-- A team that keeps the rule is paid. -/
theorem payable_of_fullSplit {amount : Int64} {members : List NewMember}
    (hordinals : (members.map (·.ordinal)).Nodup) (hlow : 10000 ≤ amount.toInt)
    (hhigh : amount.toInt ≤ (2 ^ 63 - 1) / 10000)
    (hsplit : FullSplit (members.map NewMember.share)) :
    PayableTeam amount (members.map NewMember.member) := by
  have hamount : 0 < amount := by
    rw [Int64.lt_iff_toInt_lt, Int64.toInt_zero]
    omega
  have hshares := member_shares_pos.mpr fun share hshare => (hsplit.bounds share hshare).1
  have hsum : ((members.map NewMember.member).map fun m => m.shareBasisPoints.toInt).sum
      = 10000 := by
    rw [← hsplit.sum, ← exact_shares_member, WrappingSum.exact, List.map_map (g := Int64.toInt)]
    rfl
  have hfloor : ∀ m ∈ members.map NewMember.member, 0 < exactFloor amount m ∧ Fits amount m := by
    intro m hm
    obtain ⟨m', hm', rfl⟩ := List.mem_map.mp hm
    have hshare := hsplit.bounds _ (List.mem_map_of_mem hm')
    rw [← m'.member_share] at hshare
    exact floor_of_bounds hlow hhigh hshare.1 hshare.2
  refine payableTeam_of_exact hamount hshares ?_ (by rw [exact_shares_member, hsplit.sum]) ?_
    fun m hm _ => (hfloor m hm).2
  · rw [List.map_map]
    refine (List.nodup_map_iff_inj_on hordinals.of_map).mpr ?_
    intro m hm m' hm' heq
    refine List.inj_on_of_nodup_map hordinals hm hm' ?_
    have hwide : m.ordinal.toInt64.toInt = m'.ordinal.toInt64.toInt := congrArg Int64.toInt heq
    rw [Int32.toInt_toInt64, Int32.toInt_toInt64] at hwide
    exact Int32.toInt_inj.mp hwide
  · intro m hm
    have hremainder : 0 ≤ exactRemainder amount (members.map NewMember.member) :=
      (FloorShares.remainder_bounds (by decide) hsum).1
    rw [exactAmount]
    have := (hfloor m hm).1
    split
    · exact Int.add_pos_of_pos_of_nonneg this hremainder
    · omega

/-- A prize that is neither too small nor too large is paid to the teams that keep the rule. -/
theorem payableTeam_iff {amount : Int64} {members : List NewMember}
    (hlen : members.length ≤ maxWinners) (hordinals : (members.map (·.ordinal)).Nodup)
    (hlow : 10000 ≤ amount.toInt) (hhigh : amount.toInt ≤ (2 ^ 63 - 1) / 10000) :
    PayableTeam amount (members.map NewMember.member) ↔
      FullSplit (members.map NewMember.share) :=
  ⟨fullSplit_of_payable hlen, payable_of_fullSplit hordinals hlow hhigh⟩

/-- What is valid at registration, what a transaction that registers a team may store, and what a
release of a prize pays are one rule of the shares. -/
theorem share_rule {db : Tables} {teamId eventId : RowId} {groups : List (List NewMember)}
    {amount : Int64} (place : UInt32) (h : Newcomers db teamId eventId groups.flatten)
    (hlen : groups.flatten.length ≤ 25) (hlow : 10000 ≤ amount.toInt)
    (hhigh : amount.toInt ≤ (2 ^ 63 - 1) / 10000) :
    ((validateTeamShares
        (groups.flatten.map fun m => (m.shareBasisPoints.toInt : ℚ))).valid = true ↔
      ∃ db', db.transact (registerTeam teamId eventId groups) = .ok db') ∧
    ((validateTeamShares
        (groups.flatten.map fun m => (m.shareBasisPoints.toInt : ℚ))).valid = true ↔
      ∃ ws, allocateWinners amount [⟨place, amount⟩]
        [⟨place, groups.flatten.map NewMember.member⟩] = .ok ws) := by
  have hvalid := validateTeamShares_iff (groups.flatten.map NewMember.share)
  rw [List.map_map] at hvalid
  have hamount : 0 < amount := by
    rw [Int64.lt_iff_toInt_lt, Int64.toInt_zero]
    omega
  refine ⟨hvalid.trans h.transact_iff.symm, hvalid.trans ?_⟩
  rw [allocateWinners_one (by rwa [List.length_map]), payableTeam_iff hlen h.ordinals hlow hhigh]
  exact ⟨fun hsplit => ⟨hamount, hsplit⟩, fun hboth => hboth.2⟩

namespace Sample

/-- Two members who enter one after the other. -/
def newcomers : List (List NewMember) :=
  [[⟨"member", "wallet", .account 1, 0, 6000⟩], [⟨"member'", "wallet'", .account 2, 1, 4000⟩]]

theorem newcomers_new : Newcomers opened "team" "event" newcomers.flatten where
  references := ⟨nofun, nofun, nofun, nofun, nofun⟩
  status := ⟨.live, by decide, by decide +kernel⟩
  team := by decide +kernel
  wallets := by decide +kernel
  ids := by decide
  walletIds := by decide
  ordinals := by decide
  rows := nofun

end Sample

/-- Shares of 6000 and 4000 are valid, stored and paid. -/
theorem share_rule_sample :
    (∃ db', Sample.opened.transact (registerTeam "team" "event" Sample.newcomers) = .ok db') ∧
    ∃ ws, allocateWinners 10000 [⟨1, 10000⟩]
      [⟨1, Sample.newcomers.flatten.map NewMember.member⟩] = .ok ws := by
  have h := @share_rule Sample.opened "team" "event" Sample.newcomers 10000 1 Sample.newcomers_new
    (by decide) (by decide) (by decide)
  have hvalid : (validateTeamShares (Sample.newcomers.flatten.map
      fun m => (m.shareBasisPoints.toInt : ℚ))).valid = true := by decide +kernel
  exact ⟨h.1.mp hvalid, h.2.mp hvalid⟩

end TeamTables
