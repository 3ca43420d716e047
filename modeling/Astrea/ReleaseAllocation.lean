/-
# From assignments to paid lines

The data of a release goes through the rank of a prize, the id of a team, a place and an
address before it is a winners list.  This follows it from the rows of teams and members to
the lines of the build: the lines of a team are its members, in order, each under the team's
own prize, and they add up to the prize.
-/
import Astrea.AllocateExact
import Astrea.HandlersRelease
import Mathlib.Data.String.Basic

open Guard ListBlocks

namespace Service

/-- The stroops of a prize. -/
def prizeStroops (p : Prize) : Int64 :=
  match amountToStroops p.amount with
  | .ok stroops => stroops
  | .error _ => 0

theorem prizeStroops_eq {p : Prize} {n : Int64} (h : amountToStroops p.amount = .ok n) :
    prizeStroops p = n := by
  rw [prizeStroops, h]

/-! ## The teams of the rows -/

/-- The teams, one after the other, are the rows. -/
theorem collectTeams_flatMap (rows : List (RowId × TeamMember)) :
    (collectTeams rows).flatMap (fun t => t.members.map fun m => (t.id, m)) = rows := by
  induction rows with
  | nil => rfl
  | cons r rows ih =>
      obtain ⟨teamID, member⟩ := r
      rw [collectTeams]
      cases hteams : collectTeams rows with
      | nil =>
          rw [hteams] at ih
          rw [← ih]
          rfl
      | cons team teams =>
          rw [hteams] at ih
          by_cases hsame : team.id = teamID
          · subst hsame
            simp only [if_true]
            rw [← ih]
            rfl
          · simp only [hsame, if_false]
            rw [← ih]
            rfl

theorem collectTeams_members_ne_nil {rows : List (RowId × TeamMember)} :
    ∀ t ∈ collectTeams rows, t.members ≠ [] := by
  induction rows with
  | nil => exact fun t ht => absurd ht List.not_mem_nil
  | cons r rows ih =>
      obtain ⟨teamID, member⟩ := r
      rw [collectTeams]
      cases hteams : collectTeams rows with
      | nil =>
          intro t ht
          rw [List.mem_singleton.mp ht]
          exact List.cons_ne_nil _ _
      | cons team teams =>
          rw [hteams] at ih
          intro t ht
          simp only at ht
          split at ht
          · rcases List.mem_cons.mp ht with rfl | ht
            · exact List.cons_ne_nil _ _
            · exact ih t (List.mem_cons_of_mem _ ht)
          · rcases List.mem_cons.mp ht with rfl | ht
            · exact List.cons_ne_nil _ _
            · exact ih t ht

/-- Every team's id is that of some row. -/
theorem exists_row_of_team {rows : List (RowId × TeamMember)} {t : Team}
    (ht : t ∈ collectTeams rows) : ∃ r ∈ rows, r.1 = t.id := by
  obtain ⟨m, hm⟩ := List.exists_mem_of_ne_nil _ (collectTeams_members_ne_nil t ht)
  refine ⟨(t.id, m), ?_, rfl⟩
  rw [← collectTeams_flatMap rows]
  exact List.mem_flatMap.mpr ⟨t, ht, List.mem_map_of_mem hm⟩

/-- The teams of rows ordered by team have increasing ids. -/
theorem collectTeams_sorted {rows : List (RowId × TeamMember)}
    (hsorted : rows.Pairwise fun r r' => r.1 ≤ r'.1) :
    ((collectTeams rows).map Team.id).Pairwise (· < ·) := by
  induction rows with
  | nil => exact List.Pairwise.nil
  | cons r rows ih =>
      obtain ⟨teamID, member⟩ := r
      obtain ⟨hfirst, hrest⟩ := List.pairwise_cons.mp hsorted
      have hteamsSorted := ih hrest
      have hle : ∀ t ∈ collectTeams rows, teamID ≤ t.id := by
        intro t ht
        obtain ⟨r, hr, heq⟩ := exists_row_of_team ht
        rw [← heq]
        exact hfirst r hr
      rw [collectTeams]
      cases hteams : collectTeams rows with
      | nil => exact List.pairwise_singleton _ _
      | cons team teams =>
          rw [hteams] at hteamsSorted hle
          by_cases hsame : team.id = teamID
          · subst hsame
            simp only [if_true]
            exact hteamsSorted
          · simp only [hsame, if_false]
            have hlt := lt_of_le_of_ne (hle team List.mem_cons_self) (Ne.symm hsame)
            rw [List.map_cons, List.pairwise_cons]
            refine ⟨?_, hteamsSorted⟩
            intro id hid
            rcases List.mem_cons.mp hid with rfl | hid
            · exact hlt
            · exact lt_trans hlt ((List.pairwise_cons.mp hteamsSorted).1 id hid)

/-- A team's members are the rows under its id. -/
theorem members_of_team {rows : List (RowId × TeamMember)}
    (hsorted : rows.Pairwise fun r r' => r.1 ≤ r'.1) {t : Team} (ht : t ∈ collectTeams rows) :
    rows.filter (·.1 = t.id) = t.members.map fun m => (t.id, m) := by
  have hids : ((collectTeams rows).map Team.id).Nodup :=
    (collectTeams_sorted hsorted).imp fun h => ne_of_lt h
  have hfilter := filter_flatMap_eq (q := fun r : RowId × TeamMember => decide (r.1 = t.id))
    (f := fun t : Team => t.members.map fun m => (t.id, m)) (hids.of_map _) ht ?_ ?_
  · rwa [collectTeams_flatMap] at hfilter
  · intro r hr
    obtain ⟨m, -, rfl⟩ := List.mem_map.mp hr
    exact decide_eq_true rfl
  · intro t' ht' hne r hr
    obtain ⟨m, -, rfl⟩ := List.mem_map.mp hr
    refine decide_eq_false fun heq => hne ?_
    exact List.inj_on_of_nodup_map hids ht' ht heq

/-! ## The assignments -/

/-- Accepted assignments name prizes and teams that exist, none of them twice. -/
theorem checkAssignments_eq_ok {event : EventForRelease} {ranks ranks' : List Int64}
    {teams : List RowId} {as : List Assignment} :
    checkAssignments event ranks teams as = .ok ranks' ↔
      (∀ a ∈ as, (∃ p ∈ event.prizes, p.rank = a.rank) ∧
        ∃ t ∈ event.teams, t.id = a.teamID) ∧
      (as.map (·.rank)).Nodup ∧ (∀ a ∈ as, a.rank ∉ ranks) ∧
      (as.map (·.teamID)).Nodup ∧ (∀ a ∈ as, a.teamID ∉ teams) ∧
      ranks' = (as.map (·.rank)).reverse ++ ranks := by
  induction as generalizing ranks teams with
  | nil =>
      simp only [checkAssignments, Except.ok.injEq, List.not_mem_nil, false_imp_iff,
        implies_true, List.map_nil, List.nodup_nil, List.reverse_nil, List.nil_append, true_and]
      exact eq_comm
  | cons a as ih =>
      simp only [checkAssignments, bind_eq_ok, ensure_eq_ok, exists_const, ih,
        forall_eq_or_imp, List.map_cons, List.nodup_cons, List.reverse_cons,
        List.append_assoc, List.singleton_append, List.mem_cons, List.mem_map, not_or,
        not_exists, not_and]
      constructor
      · rintro ⟨hprize, hrank, hteam, hteamNew, hall, hranks, hranksNew, hteams, hteamsNew, rfl⟩
        exact ⟨⟨⟨hprize, hteam⟩, hall⟩, ⟨fun b hb => (hranksNew b hb).1, hranks⟩,
          ⟨hrank, fun b hb => (hranksNew b hb).2⟩, ⟨fun b hb => (hteamsNew b hb).1, hteams⟩,
          ⟨hteamNew, fun b hb => (hteamsNew b hb).2⟩, rfl⟩
      · rintro ⟨⟨⟨hprize, hteam⟩, hall⟩, ⟨hranksNot, hranks⟩, ⟨hrank, hranksNew⟩,
          ⟨hteamsNot, hteams⟩, ⟨hteamNew, hteamsNew⟩, rfl⟩
        exact ⟨hprize, hrank, hteam, hteamNew, hall, hranks,
          fun b hb => ⟨hranksNot b hb, hranksNew b hb⟩, hteams,
          fun b hb => ⟨hteamsNot b hb, hteamsNew b hb⟩, rfl⟩

/-- What validation accepts: every assignment names an existing prize and team, no rank and no
team twice, and there are as many as prizes. -/
theorem validateAssignments_eq_ok {assignments : List Assignment} {event : EventForRelease}
    {u : Unit} :
    validateAssignments assignments event = .ok u ↔
      (∀ a ∈ assignments, (∃ p ∈ event.prizes, p.rank = a.rank) ∧
        ∃ t ∈ event.teams, t.id = a.teamID) ∧
      (assignments.map (·.rank)).Nodup ∧ (assignments.map (·.teamID)).Nodup ∧
      assignments.length = event.prizes.length := by
  simp only [validateAssignments, bind_eq_ok, ensure_eq_ok, checkAssignments_eq_ok,
    List.not_mem_nil, not_false_eq_true, implies_true, true_and, List.append_nil]
  constructor
  · rintro ⟨ranks, ⟨hall, hranks, hteams, rfl⟩, hlen⟩
    rw [List.length_reverse, List.length_map] at hlen
    exact ⟨hall, hranks, hteams, hlen⟩
  · rintro ⟨hall, hranks, hteams, hlen⟩
    refine ⟨_, ⟨hall, hranks, hteams, rfl⟩, ?_⟩
    rw [List.length_reverse, List.length_map, hlen]

/-- Accepted assignments reach every prize, and no two prizes share a rank. -/
theorem prizes_of_validated {assignments : List Assignment} {event : EventForRelease}
    (hall : ∀ a ∈ assignments, ∃ p ∈ event.prizes, p.rank = a.rank)
    (hranks : (assignments.map (·.rank)).Nodup)
    (hlen : assignments.length = event.prizes.length) :
    (event.prizes.map (·.rank)).Nodup ∧
      ∀ p ∈ event.prizes, ∃ a ∈ assignments, a.rank = p.rank := by
  have hcovers : (event.prizes.map (·.rank)).Nodup ∧
      ∀ p ∈ event.prizes, p.rank ∈ assignments.map (·.rank) := nodup_of_covers hranks ?_ ?_
  · refine ⟨hcovers.1, ?_⟩
    intro p hp
    obtain ⟨a, ha, heq⟩ := List.mem_map.mp (hcovers.2 p hp)
    exact ⟨a, ha, heq⟩
  · intro rank hrank
    obtain ⟨a, ha, rfl⟩ := List.mem_map.mp hrank
    exact hall a ha
  · rw [List.length_map, hlen]

/-! ## The last entry of a key -/

/-- The only entry that passes is the last one that does. -/
theorem lastWhere_eq_some {α : Type} {l : List α} {p : α → Bool} {x : α} (hx : x ∈ l)
    (hp : p x = true) (hone : ∀ y ∈ l, p y = true → y = x) : lastWhere l p = some x := by
  unfold lastWhere
  cases hfind : l.reverse.find? p with
  | none => exact absurd hp (List.find?_eq_none.mp hfind x (List.mem_reverse.mpr hx))
  | some y =>
      rw [hone y (List.mem_reverse.mp (List.mem_of_find?_eq_some hfind)) (List.find?_some hfind)]

theorem lastWhere_mem {α : Type} {l : List α} {p : α → Bool} {x : α}
    (h : lastWhere l p = some x) : x ∈ l ∧ p x = true :=
  ⟨List.mem_reverse.mp (List.mem_of_find?_eq_some h), List.find?_some h⟩

/-! ## The input of the allocation -/

/-- The amount of a prize is one the service can convert. -/
def Convertible (p : Prize) : Prop := ∃ n, amountToStroops p.amount = .ok n

/-- The rows of the team that a rank is assigned to. -/
def teamRows (rows : List (RowId × TeamMember)) (assignments : List Assignment)
    (rank : Int64) : List (RowId × TeamMember) :=
  match lastWhere assignments (·.rank = rank) with
  | none => []
  | some a => rows.filter (·.1 = a.teamID)

/-- A row as the allocation sees it. -/
def toMember (r : RowId × TeamMember) : Member :=
  ⟨r.2.walletAddress, r.2.ordinal, r.2.shareBasisPoints⟩

theorem teamRows_subset {rows : List (RowId × TeamMember)} {assignments : List Assignment}
    {rank : Int64} : teamRows rows assignments rank ⊆ rows := by
  unfold teamRows
  split
  · exact List.nil_subset _
  · exact List.filter_subset_self _

/-- The rows of a rank that is assigned once. -/
theorem teamRows_eq {rows : List (RowId × TeamMember)} {assignments : List Assignment}
    {a : Assignment} (hranks : (assignments.map (·.rank)).Nodup) (ha : a ∈ assignments) :
    teamRows rows assignments a.rank = rows.filter (·.1 = a.teamID) := by
  have hlast : lastWhere assignments (·.rank = a.rank) = some a :=
    lastWhere_eq_some ha (decide_eq_true rfl) fun b hb heq =>
      List.inj_on_of_nodup_map hranks hb ha (of_decide_eq_true heq)
  rw [teamRows, hlast]

theorem assignedMembers_eq {event : EventForRelease} {rows : List (RowId × TeamMember)}
    {assignments : List Assignment} (hteams : event.teams = collectTeams rows)
    (hsorted : rows.Pairwise fun r r' => r.1 ≤ r'.1)
    (hall : ∀ a ∈ assignments, ∃ t ∈ event.teams, t.id = a.teamID) (rank : Int64) :
    assignedMembers event assignments rank = (teamRows rows assignments rank).map toMember := by
  unfold assignedMembers teamRows
  cases hlast : lastWhere assignments (·.rank = rank) with
  | none => rfl
  | some a =>
      obtain ⟨t, ht, hid⟩ := hall a (lastWhere_mem hlast).1
      have hids : (event.teams.map Team.id).Nodup := by
        rw [hteams]
        exact (collectTeams_sorted hsorted).imp fun h => ne_of_lt h
      have hteam : lastWhere event.teams (·.id = a.teamID) = some t :=
        lastWhere_eq_some ht (decide_eq_true hid) fun t' ht' heq =>
          List.inj_on_of_nodup_map hids ht' ht ((of_decide_eq_true heq).trans hid.symm)
      simp only [hteam]
      rw [← hid, members_of_team hsorted (hteams ▸ ht), List.map_map]
      rfl

/-- The input of an allocation exists when every amount converts; the reward is the wrapping
sum. -/
theorem allocationOf_eq_ok {event : EventForRelease} {assignments : List Assignment}
    {prizes : List Prize} {reward reward' : Int64} {positions : List Position}
    {teams : List WinningTeam} :
    allocationOf event assignments reward prizes = .ok (positions, teams, reward') ↔
      (∀ p ∈ prizes, Convertible p) ∧
      positions = prizes.map (fun p => ⟨placeOf p.rank, prizeStroops p⟩) ∧
      teams = prizes.map (fun p =>
        ⟨placeOf p.rank, assignedMembers event assignments p.rank⟩) ∧
      reward' = reward + (prizes.map prizeStroops).sum := by
  induction prizes generalizing reward reward' positions teams with
  | nil =>
      simp only [allocationOf, Except.ok.injEq, Prod.mk.injEq, List.not_mem_nil, false_imp_iff,
        implies_true, List.map_nil, List.sum_nil, Int64.add_zero, true_and]
      constructor
      · rintro ⟨rfl, rfl, rfl⟩
        exact ⟨rfl, rfl, rfl⟩
      · rintro ⟨rfl, rfl, rfl⟩
        exact ⟨rfl, rfl, rfl⟩
  | cons p ps ih =>
      simp only [allocationOf, bind_eq_ok, pure_eq_ok, Prod.exists, ih, Prod.mk.injEq,
        List.forall_mem_cons, List.map_cons, List.sum_cons]
      constructor
      · rintro ⟨n, hn, _, _, _, ⟨hps, rfl, rfl, rfl⟩, rfl, rfl, rfl⟩
        rw [prizeStroops_eq hn, ← Int64.add_assoc]
        exact ⟨⟨⟨n, hn⟩, hps⟩, rfl, rfl, rfl⟩
      · rintro ⟨⟨⟨n, hn⟩, hps⟩, rfl, rfl, rfl⟩
        rw [prizeStroops_eq hn, ← Int64.add_assoc]
        exact ⟨n, hn, _, _, _, ⟨hps, rfl, rfl, rfl⟩, rfl, rfl, rfl⟩

/-- The reward of a creation is the same wrapping sum. -/
theorem sumPrizes_eq_ok {prizes : List Prize} {reward reward' : Int64} :
    sumPrizes reward prizes = .ok reward' ↔
      (∀ p ∈ prizes, Convertible p) ∧ reward' = reward + (prizes.map prizeStroops).sum := by
  induction prizes generalizing reward with
  | nil =>
      simp only [sumPrizes, Except.ok.injEq, List.not_mem_nil, false_imp_iff, implies_true,
        List.map_nil, List.sum_nil, Int64.add_zero, true_and]
      exact eq_comm
  | cons p ps ih =>
      simp only [sumPrizes, bind_eq_ok, ih, List.forall_mem_cons, List.map_cons, List.sum_cons]
      constructor
      · rintro ⟨n, hn, hps, rfl⟩
        rw [prizeStroops_eq hn, ← Int64.add_assoc]
        exact ⟨⟨⟨n, hn⟩, hps⟩, rfl⟩
      · rintro ⟨⟨⟨n, hn⟩, hps⟩, rfl⟩
        rw [prizeStroops_eq hn, ← Int64.add_assoc]
        exact ⟨n, hn, hps, rfl⟩

/-! ## The lines of a build -/

/-- The rows paid for a prize, each with its amount. -/
def sharesOf (rows : List (RowId × TeamMember)) (assignments : List Assignment) (p : Prize) :
    List ((RowId × TeamMember) × Int64) :=
  (teamRows rows assignments p.rank).zip
    (splitOf (prizeStroops p) ((teamRows rows assignments p.rank).map toMember))

/-- The allocation's line for a share of a prize. -/
def winnerOf (p : Prize) (e : (RowId × TeamMember) × Int64) : Winner :=
  ⟨placeOf p.rank, e.2, e.1.2.walletAddress⟩

/-- The build's line for a share of a prize. -/
def lineOf (p : Prize) (e : (RowId × TeamMember) × Int64) : ReleaseWinner :=
  ⟨p.id, e.1.1, e.1.2.id, e.1.2.walletAddress, e.2, p.rank⟩

@[simp] theorem placeOf_rankOf (place : UInt32) : placeOf (rankOf place) = place := by
  simp [placeOf, rankOf]

theorem map_fst_sharesOf (rows : List (RowId × TeamMember)) (assignments : List Assignment)
    (p : Prize) :
    (sharesOf rows assignments p).map Prod.fst = teamRows rows assignments p.rank :=
  List.map_fst_zip (by rw [length_splitOf, List.length_map])

theorem map_snd_sharesOf (rows : List (RowId × TeamMember)) (assignments : List Assignment)
    (p : Prize) : (sharesOf rows assignments p).map Prod.snd
      = splitOf (prizeStroops p) ((teamRows rows assignments p.rank).map toMember) :=
  List.map_snd_zip (by rw [length_splitOf, List.length_map])

theorem linesOf_eq (rows : List (RowId × TeamMember)) (assignments : List Assignment)
    (p : Prize) : linesOf (placeOf p.rank) (prizeStroops p)
        ((teamRows rows assignments p.rank).map toMember)
      = (sharesOf rows assignments p).map (winnerOf p) := by
  rw [linesOf, sharesOf, List.zip_map_left, List.map_map]
  rfl

/-- The members of the event are the rows. -/
theorem memberInfos_eq {event : EventForRelease} {rows : List (RowId × TeamMember)}
    (hteams : event.teams = collectTeams rows) :
    memberInfos event = rows.map fun r => (r.2.walletAddress, r.1, r.2.id) := by
  rw [memberInfos, hteams]
  conv_rhs => rw [← collectTeams_flatMap rows]
  rw [List.map_flatMap]
  simp only [List.map_map]
  rfl

/-- A prize found by a place is the prize of that place. -/
theorem prize_of_place {event : EventForRelease}
    (hplaces : (event.prizes.map fun p => placeOf p.rank).Nodup) {p p' : Prize}
    (hp : p ∈ event.prizes)
    (h : lastWhere event.prizes (·.rank = rankOf (placeOf p.rank)) = some p') : p' = p := by
  obtain ⟨hmem, hrank⟩ := lastWhere_mem h
  have hrank : p'.rank = rankOf (placeOf p.rank) := of_decide_eq_true hrank
  exact List.inj_on_of_nodup_map hplaces hmem hp (by rw [hrank, placeOf_rankOf])

/-- A line found by its address and its place is the line of the share. -/
theorem mapWinner_eq {event : EventForRelease} {rows : List (RowId × TeamMember)}
    (hteams : event.teams = collectTeams rows)
    (hwallets : (rows.map (·.2.walletAddress)).Nodup)
    (hplaces : (event.prizes.map fun p => placeOf p.rank).Nodup) {p : Prize}
    (hp : p ∈ event.prizes) {e : (RowId × TeamMember) × Int64} (he : e.1 ∈ rows)
    {rw' : ReleaseWinner} (h : mapWinner event (winnerOf p e) = .ok rw') : rw' = lineOf p e := by
  simp only [mapWinner, bind_eq_ok, expect_eq_ok, pure_eq_ok] at h
  obtain ⟨info, hinfo, p', hp', rfl⟩ := h
  have hthis : info = (e.1.2.walletAddress, e.1.1, e.1.2.id) := by
    obtain ⟨hmem, haddress⟩ := lastWhere_mem hinfo
    rw [memberInfos_eq hteams] at hmem
    obtain ⟨r, hr, rfl⟩ := List.mem_map.mp hmem
    rw [List.inj_on_of_nodup_map hwallets hr he (of_decide_eq_true haddress)]
  obtain rfl := prize_of_place hplaces hp hp'
  have hrank : p'.rank = rankOf (placeOf p'.rank) := of_decide_eq_true (lastWhere_mem hp').2
  subst hthis
  simp only [winnerOf, lineOf, ← hrank]

/-- What the lines of a list of shares are, when it is known of each. -/
theorem mapWinners_map {event : EventForRelease} {γ δ : Type} {l : List γ} {f : γ → Winner}
    {g : γ → δ} {π : ReleaseWinner → δ} {rws : List ReleaseWinner}
    (hline : ∀ c ∈ l, ∀ rw', mapWinner event (f c) = .ok rw' → π rw' = g c)
    (h : mapWinners event (l.map f) = .ok rws) : rws.map π = l.map g := by
  induction l generalizing rws with
  | nil =>
      obtain rfl := Except.ok.inj h
      rfl
  | cons c l ih =>
      simp only [List.map_cons, mapWinners, bind_eq_ok, pure_eq_ok] at h
      obtain ⟨rw', hrw, rest, hrest, rfl⟩ := h
      rw [List.map_cons, List.map_cons, hline c List.mem_cons_self rw' hrw,
        ih (fun c' hc' => hline c' (List.mem_cons_of_mem _ hc')) hrest]

/-! ## End to end -/

section EndToEnd

variable {event : EventForRelease} {rows : List (RowId × TeamMember)}
  {assignments : List Assignment} {positions : List Position} {teams : List WinningTeam}
  {reward : Int64} {ws : List Winner} {rws : List ReleaseWinner}

/-- The steps of a release, from the rows of the event on, that all succeeded. -/
structure AllocationSucceeds (event : EventForRelease) (rows : List (RowId × TeamMember))
    (assignments : List Assignment) (reward : Int64) (rws : List ReleaseWinner) : Prop where
  teams_eq : event.teams = collectTeams rows
  validated : validateAssignments assignments event = .ok ()
  allocated : ∃ positions teams ws,
    buildAllocationInput event assignments = .ok (positions, teams, reward) ∧
    allocateWinners reward positions teams = .ok ws ∧ mapWinners event ws = .ok rws

/-- What the lines of a build are, prize after prize, and what the allocation checked. -/
structure BuildLines (event : EventForRelease) (rows : List (RowId × TeamMember))
    (assignments : List Assignment) (reward : Int64) (rws : List ReleaseWinner) : Prop where
  ranks : (assignments.map (·.rank)).Nodup
  teamIDs : (assignments.map (·.teamID)).Nodup
  prizes : (event.prizes.map (·.rank)).Nodup
  assigned : ∀ p ∈ event.prizes, ∃ a ∈ assignments, a.rank = p.rank
  named : ∀ a ∈ assignments, ∃ p ∈ event.prizes, p.rank = a.rank
  convertible : ∀ p ∈ event.prizes, Convertible p
  positive : ∀ p ∈ event.prizes, 0 < prizeStroops p
  reward_eq : reward = (event.prizes.map prizeStroops).sum
  exact : ∀ p ∈ event.prizes,
    WrappingSum.exact ((sharesOf rows assignments p).map Prod.snd) = (prizeStroops p).toInt
  short : rws.length ≤ maxWinners
  lines : rws = event.prizes.flatMap fun p => (sharesOf rows assignments p).map (lineOf p)

/-- The members of one prize's team are among all that are paid. -/
theorem length_le_sum {α : Type} {l : List α} {f : α → ℕ} {x : α} (hx : x ∈ l) :
    f x ≤ (l.map f).sum :=
  List.single_le_sum (fun _ _ => Nat.zero_le _) _ (List.mem_map_of_mem hx)

theorem AllocationSucceeds.buildLines
    (h : AllocationSucceeds event rows assignments reward rws)
    (hsorted : rows.Pairwise fun r r' => r.1 ≤ r'.1)
    (hwallets : (rows.map (·.2.walletAddress)).Nodup) :
    BuildLines event rows assignments reward rws := by
  obtain ⟨positions, teams, ws, hinput, hallocate, hmap⟩ := h.allocated
  obtain ⟨hall, hranks, hteamIDs, hlen⟩ := validateAssignments_eq_ok.mp h.validated
  obtain ⟨hprizes, hassigned⟩ := prizes_of_validated (fun a ha => (hall a ha).1) hranks hlen
  have hmembers := assignedMembers_eq h.teams_eq hsorted fun a ha => (hall a ha).2
  obtain ⟨hconvertible, rfl, rfl, hreward⟩ := allocationOf_eq_ok.mp hinput
  simp only [hmembers] at hallocate
  obtain ⟨-, hpos, -, hplaces, hcount, hteams, -, hws⟩ := allocateWinners_eq_ok.mp hallocate
  simp only [linesOf_eq] at hws
  -- the lines of the allocation, one for each share
  have hflat : ws = (event.prizes.flatMap fun p => (sharesOf rows assignments p).map fun e =>
      (p, e)).map fun c => winnerOf c.1 c.2 := by
    rw [hws, List.map_flatMap]
    simp only [List.map_map]
    rfl
  rw [hflat] at hmap
  have hlines := mapWinners_map (π := id) (g := fun c => lineOf c.1 c.2) ?_ hmap
  · rw [List.map_id, List.map_flatMap] at hlines
    simp only [List.map_map] at hlines
    have hshort : rws.length ≤ maxWinners := by
      refine le_trans (le_of_eq ?_) hcount
      rw [hlines, List.length_flatMap]
      simp only [List.length_map, sharesOf, List.length_zip, length_splitOf, min_self]
    refine ⟨hranks, hteamIDs, hprizes, hassigned, fun a ha => (hall a ha).1, hconvertible, hpos,
      ?_, ?_, hshort, hlines⟩
    · rw [hreward, Int64.zero_add]
    · intro p hp
      obtain ⟨hne, -, hsplit⟩ := hteams p hp
      rw [map_snd_sharesOf]
      exact exact_splitOf hne (le_trans (length_le_sum (f := fun p =>
        ((teamRows rows assignments p.rank).map toMember).length) hp) hcount) (hpos p hp) hsplit
  · intro c hc rw' hrw
    obtain ⟨p, hp, hc⟩ := List.mem_flatMap.mp hc
    obtain ⟨e, he, rfl⟩ := List.mem_map.mp hc
    have hrow : e.1 ∈ rows := by
      apply teamRows_subset
      rw [← map_fst_sharesOf]
      exact List.mem_map_of_mem he
    exact mapWinner_eq h.teams_eq hwallets hplaces hp hrow hrw

/-- The lines of one assigned team are the lines of its prize. -/
theorem BuildLines.filter_team (h : BuildLines event rows assignments reward rws)
    {a : Assignment} (ha : a ∈ assignments) {p : Prize} (hp : p ∈ event.prizes)
    (hrank : p.rank = a.rank) :
    rws.filter (·.teamID = a.teamID) = (sharesOf rows assignments p).map (lineOf p) := by
  have hrows : ∀ p' ∈ event.prizes, ∀ a' ∈ assignments, a'.rank = p'.rank →
      ∀ e ∈ sharesOf rows assignments p', e.1.1 = a'.teamID := by
    intro p' _ a' ha' hrank' e he
    have hmem : e.1 ∈ teamRows rows assignments p'.rank := by
      rw [← map_fst_sharesOf]
      exact List.mem_map_of_mem he
    rw [← hrank', teamRows_eq h.ranks ha'] at hmem
    exact of_decide_eq_true (List.mem_filter.mp hmem).2
  rw [h.lines]
  apply filter_flatMap_eq (h.prizes.of_map _) hp
  · intro w hw
    obtain ⟨e, he, rfl⟩ := List.mem_map.mp hw
    exact decide_eq_true (hrows p hp a ha hrank.symm e he)
  · intro p' hp' hne w hw
    obtain ⟨e, he, rfl⟩ := List.mem_map.mp hw
    obtain ⟨a', ha', hrank'⟩ := h.assigned p' hp'
    refine decide_eq_false fun heq => hne ?_
    have hteam : a'.teamID = a.teamID := (hrows p' hp' a' ha' hrank' e he).symm.trans heq
    obtain rfl := List.inj_on_of_nodup_map h.teamIDs ha' ha hteam
    exact List.inj_on_of_nodup_map h.prizes hp' hp (hrank'.symm.trans hrank.symm)

/-- A release pays what was assigned.  For rows ordered by team, each wallet once, and prizes
of less than `2^63` stroops in all, whenever validation accepts the assignments and every step
succeeds: the lines of an assigned team are its members, in order, each under the prize and
rank the team was assigned, with its own ids and address, and they add up to the prize; there
is no other line; the whole list adds up to the reward, which is the one a creation computes;
and it has at most 25 lines. -/
theorem release_allocation (hsorted : rows.Pairwise fun r r' => r.1 ≤ r'.1)
    (hwallets : (rows.map (·.2.walletAddress)).Nodup)
    (htotal : (event.prizes.map fun p => (prizeStroops p).toInt).sum < 2 ^ 63)
    (h : AllocationSucceeds event rows assignments reward rws) :
    (∀ a ∈ assignments, ∃ p ∈ event.prizes, p.rank = a.rank ∧
      (rws.filter (·.teamID = a.teamID)).map
          (fun w => (w.prizeID, w.rank, w.teamID, w.teamMemberID, w.address))
        = (rows.filter (·.1 = a.teamID)).map
          (fun r => (p.id, a.rank, r.1, r.2.id, r.2.walletAddress)) ∧
      ((rws.filter (·.teamID = a.teamID)).map fun w => w.stroops.toInt).sum
        = (prizeStroops p).toInt) ∧
    (∀ w ∈ rws, ∃ a ∈ assignments, w.teamID = a.teamID) ∧
    (rws.map fun w => w.stroops.toInt).sum = reward.toInt ∧
    sumPrizes 0 event.prizes = .ok reward ∧ rws.length ≤ 25 := by
  have hlines := h.buildLines hsorted hwallets
  refine ⟨?_, ?_, ?_, ?_, hlines.short⟩
  · intro a ha
    obtain ⟨p, hp, hrank⟩ := hlines.named a ha
    refine ⟨p, hp, hrank, ?_, ?_⟩
    -- the lines of the team's rank are those of its rows
    · have hrows : teamRows rows assignments a.rank = rows.filter (·.1 = a.teamID) :=
        teamRows_eq hlines.ranks ha
      rw [hlines.filter_team ha hp hrank, List.map_map, ← hrows, ← hrank, ← map_fst_sharesOf,
        List.map_map]
      rfl
    · rw [hlines.filter_team ha hp hrank, List.map_map, ← hlines.exact p hp,
        WrappingSum.exact, List.map_map]
      rfl
  · intro w hw
    rw [hlines.lines] at hw
    obtain ⟨p, hp, hw⟩ := List.mem_flatMap.mp hw
    obtain ⟨e, he, rfl⟩ := List.mem_map.mp hw
    obtain ⟨a, ha, hrank⟩ := hlines.assigned p hp
    have hmem : e.1 ∈ teamRows rows assignments p.rank := by
      rw [← map_fst_sharesOf]
      exact List.mem_map_of_mem he
    rw [← hrank, teamRows_eq hlines.ranks ha] at hmem
    exact ⟨a, ha, of_decide_eq_true (List.mem_filter.mp hmem).2⟩
  · have hprizes : (rws.map fun w => w.stroops.toInt).sum
        = (event.prizes.map fun p => (prizeStroops p).toInt).sum := by
      rw [hlines.lines, sum_map_flatMap]
      congr 1
      apply List.map_congr_left
      intro p hp
      rw [List.map_map, ← hlines.exact p hp, WrappingSum.exact, List.map_map]
      rfl
    -- the total is below `2^63`, so the wrapping sum is the exact one
    have hexact : WrappingSum.exact (event.prizes.map prizeStroops)
        = (event.prizes.map fun p => (prizeStroops p).toInt).sum := by
      rw [WrappingSum.exact, List.map_map]
      rfl
    rw [hprizes, hlines.reward_eq, WrappingSum.toInt_sum_of_lt, hexact]
    · intro x hx
      obtain ⟨p, hp, rfl⟩ := List.mem_map.mp hx
      exact hlines.positive p hp
    · rw [hexact]
      exact htotal
  · exact sumPrizes_eq_ok.mpr ⟨hlines.convertible, by rw [hlines.reward_eq, Int64.zero_add]⟩

end EndToEnd

namespace Sample

/-- A team of two, in unequal shares, and a team of one. -/
def teamMembers : List (RowId × TeamMember) :=
  [("team-a", ⟨"member-1", 0, 3333, .account 6⟩), ("team-a", ⟨"member-2", 1, 6667, .account 7⟩),
   ("team-b", ⟨"member-3", 0, 10000, .account 8⟩)]

/-- Two prizes, the second won by the first team. -/
def twoPrizes : EventForRelease where
  id := ⟨"00000000-0000-0000-0000-000000000001", by decide⟩
  status := .judging
  escrowEventID := some 7
  judges := [.account 4]
  prizes := [⟨"first", 1, bytes "0.0000500"⟩, ⟨"second", 2, bytes "0.0000100"⟩]
  teams := collectTeams teamMembers

def twoAssignments : List Assignment := [⟨1, "team-b"⟩, ⟨2, "team-a"⟩]

/-- The lines the two prizes come to. -/
def twoLines : List ReleaseWinner :=
  [⟨"first", "team-b", "member-3", .account 8, 500, 1⟩,
   ⟨"second", "team-a", "member-1", .account 6, 34, 2⟩,
   ⟨"second", "team-a", "member-2", .account 7, 66, 2⟩]

end Sample

/-- The sample prizes are paid to the sample teams. -/
theorem release_allocation_twoPrizes :
    AllocationSucceeds Sample.twoPrizes Sample.teamMembers Sample.twoAssignments 600
      Sample.twoLines ∧
    (Sample.twoLines.map fun w => w.stroops.toInt).sum = 600 ∧ Sample.twoLines.length ≤ 25 := by
  have h : AllocationSucceeds Sample.twoPrizes Sample.teamMembers Sample.twoAssignments 600
      Sample.twoLines := by
    refine ⟨rfl, by decide +kernel, [⟨1, 500⟩, ⟨2, 100⟩],
      [⟨1, [⟨.account 8, 0, 10000⟩]⟩, ⟨2, [⟨.account 6, 0, 3333⟩, ⟨.account 7, 1, 6667⟩]⟩],
      [⟨1, 500, .account 8⟩, ⟨2, 34, .account 6⟩, ⟨2, 66, .account 7⟩], ?_, ?_, ?_⟩
    · decide +kernel
    · decide +kernel
    · decide +kernel
  have hall := release_allocation (by decide +kernel) (by decide +kernel) (by decide +kernel) h
  exact ⟨h, hall.2.2.1, hall.2.2.2.2⟩

end Service
