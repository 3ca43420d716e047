/-
# From a draft to its payout

An event's prizes pass the web form, the table, the reward of its creation, the allocation
of its release and the check of the contract, each with limits of its own.  For teams of one
the split never fails; what decides is the number of prizes, which only the release looks
at, and their total, which the service adds up in 64 bits and the contract in 128.
-/
import Astrea.DraftPrizes
import Astrea.ReleaseAllocation
import Astrea.EscrowBacked
import Mathlib.Algebra.BigOperators.Ring.Finset

open Guard KeyTable

namespace Escrow

variable {own : Address}

/-! ## The reward of an event -/

/-- The transition is not an emergency withdraw from event `i`. -/
def KeepsReward (i : EventId) (t : Transition State (Label own)) : Prop :=
  ∀ env admin resolver amount, t.label ≠ .call env (.emergencyWithdraw admin resolver i amount)

/-- Only an emergency withdrawal changes the reward. -/
theorem EventMove.reward_eq {env : Env own} {s s' : State} {i : EventId} {call : Call}
    {e : Event} {o : Option Event} (h : EventMove env s s' i call (some e) o)
    (hkeeps : ∀ admin resolver amount, call ≠ .emergencyWithdraw admin resolver i amount) :
    ∃ e', o = some e' ∧ e'.reward = e.reward := by
  cases h with
  | emergency => exact absurd rfl (hkeeps _ _ _)
  | _ => exact ⟨_, rfl, rfl⟩

/-- Without an emergency withdraw an event keeps the reward it was created with. -/
theorem reward_of_created {env : Env own} {s₀ s₁ s : State} {admin judge token : Address}
    {resolver : Option Address} {reward : I128} {i : EventId} {e : Event}
    {tr : List (Transition State (Label own))}
    (hcreate : exec env s₀ (.createEvent admin judge resolver token reward i) = .ok s₁)
    (hr : Run (Step own) s₁ tr s) (hkeeps : ∀ t ∈ tr, KeepsReward i t)
    (he : s.event.lookup i = some e) : e.reward = reward := by
  have hfirst : ∃ e, s₁.event.lookup i = some e ∧ e.reward = reward := by
    have hmove := (exec_effect hcreate).eventMove i
    generalize s₀.event.lookup i = o, s₁.event.lookup i = o' at hmove
    cases hmove with
    | untouched h => exact absurd rfl h
    | create call_eq =>
        cases call_eq
        exact ⟨_, rfl, rfl⟩
  have hall : ∃ e, s.event.lookup i = some e ∧ e.reward = reward := by
    refine (hr.restrict hkeeps).invariant
      (I := fun s => ∃ e, s.event.lookup i = some e ∧ e.reward = reward) hfirst ?_
    rintro s l s' ⟨e, he, hreward⟩ ⟨hstep, hkeep⟩
    cases hstep with
    | @call _ env call ok =>
        have hmove := (exec_effect ok).eventMove i
        rw [he] at hmove
        obtain ⟨e', he', heq⟩ := hmove.reward_eq fun a r m hcall => hkeep env a r m (by rw [hcall])
        exact ⟨e', he', heq.trans hreward⟩
    | reverted error => exact ⟨e, he, hreward⟩
    | ledger grows => exact ⟨e, he, hreward⟩
  obtain ⟨e', he', hreward⟩ := hall
  rwa [Option.some_inj.mp (he.symm.trans he')]

end Escrow

namespace Service

/-! ## Teams of one -/

/-- The member row `registerTeam` writes. -/
def registeredMember (teamId : RowId) (walletAddress : Address) : MemberRow :=
  ⟨teamId, 0, 10000, walletAddress⟩

/-- The teams of the event are those `registerTeam` wrote: each has one member, with the full
share, and no wallet is in two of them. -/
structure RegisteredTeams (db : DB) (eventId : RowId) : Prop where
  written : ∀ e ∈ db.teamMembers.entries, db.teams.lookup e.2.teamId = some eventId →
    e.2 = registeredMember e.2.teamId e.2.walletAddress
  alone : ∀ e ∈ db.teamMembers.entries, ∀ e' ∈ db.teamMembers.entries,
    db.teams.lookup e.2.teamId = some eventId → e.2.teamId = e'.2.teamId → e.1 = e'.1
  wallets : ∀ e ∈ db.teamMembers.entries, ∀ e' ∈ db.teamMembers.entries,
    db.teams.lookup e.2.teamId = some eventId → db.teams.lookup e'.2.teamId = some eventId →
    e.2.walletAddress = e'.2.walletAddress → e.1 = e'.1

instance : IsTrans (RowId × TeamMember) memberOrder where
  trans r₁ r₂ r₃ h h' := by
    rcases h with h | ⟨h, hle⟩ <;> rcases h' with h' | ⟨h', hle'⟩
    · exact .inl (lt_trans h h')
    · exact .inl (h' ▸ h)
    · exact .inl (h ▸ h')
    · exact .inr ⟨h.trans h', Int64.le_trans hle hle'⟩

instance : Std.Total (α := RowId × TeamMember) memberOrder where
  total r r' := by
    rcases lt_trichotomy r.1 r'.1 with h | h | h
    · exact .inl (.inl h)
    · rcases Int64.le_total r.2.ordinal r'.2.ordinal with hle | hle
      · exact .inl (.inr ⟨h, hle⟩)
      · exact .inr (.inr ⟨h.symm, hle⟩)
    · exact .inr (.inl h)

/-- The rows of teams and members come team by team. -/
theorem memberRows_sorted (db : DB) (eventId : RowId) :
    (memberRows db eventId).Pairwise fun r r' => r.1 ≤ r'.1 := by
  refine (List.pairwise_insertionSort memberOrder _).imp ?_
  rintro r r' (h | ⟨h, -⟩)
  · exact le_of_lt h
  · exact le_of_eq h

/-- A member's row is of a team of the event. -/
theorem mem_memberRows {db : DB} {eventId : RowId} {r : RowId × TeamMember}
    (h : r ∈ memberRows db eventId) : ∃ e ∈ db.teamMembers.entries,
      db.teams.lookup e.2.teamId = some eventId ∧
      r = (e.2.teamId, ⟨e.1, e.2.ordinal, e.2.shareBasisPoints, e.2.walletAddress⟩) := by
  rw [memberRows, List.mem_insertionSort, List.mem_filterMap] at h
  obtain ⟨e, he, hrow⟩ := h
  rw [Option.ite_none_right_eq_some] at hrow
  obtain ⟨hevent, heq⟩ := hrow
  exact ⟨e, he, hevent, (Option.some_inj.mp heq).symm⟩

/-- A member has one row. -/
theorem memberRows_ids (db : DB) (eventId : RowId) :
    ((memberRows db eventId).map fun r => r.2.id).Nodup := by
  have hperm := (List.perm_insertionSort memberOrder (db.teamMembers.entries.filterMap fun e =>
    if db.teams.lookup e.2.teamId = some eventId then
      some (e.2.teamId, (⟨e.1, e.2.ordinal, e.2.shareBasisPoints, e.2.walletAddress⟩ : TeamMember))
    else none)).map fun r => r.2.id
  refine hperm.nodup_iff.mpr ?_
  rw [List.Nodup, List.pairwise_map, List.pairwise_filterMap]
  refine (List.pairwise_map.mp db.teamMembers.nodupKeys).imp ?_
  intro e e' hne r hr r' hr' heq
  rw [Option.ite_none_right_eq_some] at hr hr'
  obtain rfl := Option.some_inj.mp hr.2
  obtain rfl := Option.some_inj.mp hr'.2
  exact hne heq

/-- What the rows of registered teams are. -/
theorem RegisteredTeams.rows {db : DB} {eventId : RowId} (h : RegisteredTeams db eventId) :
    ((memberRows db eventId).map (·.1)).Nodup ∧
      ((memberRows db eventId).map (·.2.walletAddress)).Nodup ∧
      ∀ r ∈ memberRows db eventId, r.2.shareBasisPoints = 10000 := by
  have hids := memberRows_ids db eventId
  refine ⟨?_, ?_, ?_⟩
  · refine List.Nodup.map_on ?_ (hids.of_map _)
    intro r hr r' hr' heq
    obtain ⟨e, he, hevent, rfl⟩ := mem_memberRows hr
    obtain ⟨e', he', -, rfl⟩ := mem_memberRows hr'
    exact List.inj_on_of_nodup_map hids hr hr' (h.alone e he e' he' hevent heq)
  · refine List.Nodup.map_on ?_ (hids.of_map _)
    intro r hr r' hr' heq
    obtain ⟨e, he, hevent, rfl⟩ := mem_memberRows hr
    obtain ⟨e', he', hevent', rfl⟩ := mem_memberRows hr'
    exact List.inj_on_of_nodup_map hids hr hr' (h.wallets e he e' he' hevent hevent' heq)
  · intro r hr
    obtain ⟨e, he, hevent, rfl⟩ := mem_memberRows hr
    simp only
    rw [h.written e he hevent]
    rfl

/-- A single member takes the whole position. -/
theorem splitOf_single (amount : Int64) (m : Member) : splitOf amount [m] = [amount] := by
  obtain ⟨x, hx⟩ := List.length_eq_one_iff.mp (length_splitOf amount [m])
  have hsum : (splitOf amount [m]).sum = amount := sum_splitOf (List.cons_ne_nil _ _)
  rw [hx, List.sum_cons, List.sum_nil, Int64.add_zero] at hsum
  rw [hx, hsum]

/-- A release to teams of one: the event's rows, and an assignment of distinct teams to all
its prize ranks. -/
structure SoloRelease (event : EventForRelease) (rows : List (RowId × TeamMember))
    (assignments : List Assignment) : Prop where
  teams_eq : event.teams = collectTeams rows
  sorted : rows.Pairwise fun r r' => r.1 ≤ r'.1
  alone : (rows.map (·.1)).Nodup
  wallets : (rows.map (·.2.walletAddress)).Nodup
  shares : ∀ r ∈ rows, r.2.shareBasisPoints = 10000
  prizes : event.prizes ≠ []
  ranks : (event.prizes.map (·.rank)).Nodup
  places : ∀ p ∈ event.prizes, rankOf (placeOf p.rank) = p.rank
  amounts : ∀ p ∈ event.prizes, Convertible p
  covered : (assignments.map (·.rank)).Perm (event.prizes.map (·.rank))
  distinct : (assignments.map (·.teamID)).Nodup
  registered : ∀ a ∈ assignments, ∃ t ∈ event.teams, t.id = a.teamID

namespace SoloRelease

variable {event : EventForRelease} {rows : List (RowId × TeamMember)}
  {assignments : List Assignment}

/-- The assignments pass. -/
theorem validated (h : SoloRelease event rows assignments) :
    validateAssignments assignments event = .ok () := by
  refine validateAssignments_eq_ok.mpr ⟨?_, h.covered.nodup_iff.mpr h.ranks, h.distinct, ?_⟩
  · intro a ha
    obtain ⟨p, hp, hrank⟩ := List.mem_map.mp (h.covered.mem_iff.mp (List.mem_map_of_mem ha))
    exact ⟨⟨p, hp, hrank⟩, h.registered a ha⟩
  · simpa only [List.length_map] using h.covered.length_eq

/-- Every prize is won by one row. -/
theorem exists_winner (h : SoloRelease event rows assignments) :
    ∃ winner : Prize → RowId × TeamMember, ∀ p ∈ event.prizes,
      winner p ∈ rows ∧ teamRows rows assignments p.rank = [winner p] := by
  have hone : ∀ p ∈ event.prizes, ∃ r, r ∈ rows ∧ teamRows rows assignments p.rank = [r] := by
    intro p hp
    obtain ⟨a, ha, hrank⟩ := List.mem_map.mp (h.covered.mem_iff.mpr (List.mem_map_of_mem hp))
    obtain ⟨t, ht, hid⟩ := h.registered a ha
    obtain ⟨r, hr, hrow⟩ := exists_row_of_team (h.teams_eq ▸ ht)
    refine ⟨r, hr, ?_⟩
    have hfilter := ListBlocks.filter_flatMap_eq (f := fun r => [r])
      (q := fun r : RowId × TeamMember => decide (r.1 = a.teamID)) (h.alone.of_map _) hr ?_ ?_
    · rw [← hrank, teamRows_eq (h.covered.nodup_iff.mpr h.ranks) ha]
      rwa [List.flatMap_singleton'] at hfilter
    · intro r' hr'
      rw [List.mem_singleton.mp hr']
      exact decide_eq_true (hrow.trans hid)
    · intro r₁ hr₁ hne r' hr'
      rw [List.mem_singleton.mp hr']
      refine decide_eq_false fun heq => hne ?_
      exact List.inj_on_of_nodup_map h.alone hr₁ hr (heq.trans (hrow.trans hid).symm)
  obtain ⟨p₀, hp₀⟩ := List.exists_mem_of_ne_nil _ h.prizes
  have : Nonempty (RowId × TeamMember) := ⟨(hone p₀ hp₀).choose⟩
  choose! winner hwinner using hone
  exact ⟨winner, hwinner⟩

/-- And give an allocation's input. -/
theorem exists_input (h : SoloRelease event rows assignments) :
    ∃ positions teams reward,
      buildAllocationInput event assignments = .ok (positions, teams, reward) :=
  ⟨_, _, _, allocationOf_eq_ok.mpr ⟨h.amounts, rfl, rfl, rfl⟩⟩

section Winner

variable {winner : Prize → RowId × TeamMember}

/-- The allocation succeeds up to 25 prizes, and pays every prize whole to its winner. -/
theorem allocateWinners_iff (h : SoloRelease event rows assignments)
    (hwinner : ∀ p ∈ event.prizes,
      winner p ∈ rows ∧ teamRows rows assignments p.rank = [winner p])
    {positions : List Position} {teams : List WinningTeam} {reward : Int64} {ws : List Winner}
    (hinput : buildAllocationInput event assignments = .ok (positions, teams, reward)) :
    allocateWinners reward positions teams = .ok ws ↔
      event.prizes.length ≤ maxWinners ∧
        ws = event.prizes.map fun p => winnerOf p (winner p, prizeStroops p) := by
  have hmembers := assignedMembers_eq h.teams_eq h.sorted h.registered
  obtain ⟨-, rfl, rfl, hreward⟩ := allocationOf_eq_ok.mp hinput
  rw [Int64.zero_add] at hreward
  -- a prize has one member to pay, and that member takes it whole
  have hone : ∀ p ∈ event.prizes,
      (teamRows rows assignments p.rank).map toMember = [toMember (winner p)] := by
    intro p hp
    rw [(hwinner p hp).2, List.map_singleton]
  have hpositive : ∀ p ∈ event.prizes, 0 < prizeStroops p := by
    intro p hp
    obtain ⟨n, hn⟩ := h.amounts p hp
    rw [prizeStroops_eq hn]
    exact amountToStroops_pos hn
  -- two ranks have two places, since each place leads back to its rank
  have hplaces : (event.prizes.map fun p => placeOf p.rank).Nodup := by
    refine List.Nodup.map_on ?_ (h.ranks.of_map _)
    intro p hp p' hp' heq
    refine List.inj_on_of_nodup_map h.ranks hp hp' ?_
    rw [← h.places p hp, heq, h.places p' hp']
  have hcount : (event.prizes.map fun p =>
      ((teamRows rows assignments p.rank).map toMember).length).sum = event.prizes.length := by
    rw [List.map_congr_left (g := fun _ => 1) fun p hp => by rw [hone p hp]; rfl]
    simp
  have hlines : (event.prizes.flatMap fun p => linesOf (placeOf p.rank) (prizeStroops p)
        ((teamRows rows assignments p.rank).map toMember))
      = event.prizes.map fun p => winnerOf p (winner p, prizeStroops p) := by
    rw [← List.flatMap_pure_eq_map]
    refine List.flatMap_congr fun p hp => ?_
    rw [hone p hp, linesOf, splitOf_single]
    rfl
  simp only [hmembers, allocateWinners_eq_ok, hcount, hlines]
  constructor
  · rintro ⟨-, -, -, -, hlen, -, -, rfl⟩
    exact ⟨hlen, rfl⟩
  · rintro ⟨hlen, rfl⟩
    refine ⟨h.prizes, hpositive, hreward.symm, hplaces, hlen, ?_, ?_, rfl⟩
    · intro p hp
      have hshare : (toMember (winner p)).shareBasisPoints = 10000 :=
        h.shares _ (hwinner p hp).1
      rw [hone p hp, splitOf_single]
      refine ⟨List.cons_ne_nil _ _, ?_, ?_⟩
      · simp only [sumShares, hshare, bind_eq_ok, ensure_eq_ok, exists_const]
        exact ⟨by decide, List.not_mem_nil, rfl⟩
      · intro x hx
        rw [List.mem_singleton.mp hx]
        exact hpositive p hp
    · rw [List.map_map, hreward]
      rfl

/-- The lines of the allocation all find their rows. -/
theorem mapWinners_eq (h : SoloRelease event rows assignments)
    (hwinner : ∀ p ∈ event.prizes,
      winner p ∈ rows ∧ teamRows rows assignments p.rank = [winner p]) :
    mapWinners event (event.prizes.map fun p => winnerOf p (winner p, prizeStroops p))
      = .ok (event.prizes.map fun p => lineOf p (winner p, prizeStroops p)) := by
  have hline : ∀ p ∈ event.prizes, mapWinner event (winnerOf p (winner p, prizeStroops p))
      = .ok (lineOf p (winner p, prizeStroops p)) := by
    intro p hp
    have hmember : lastWhere (memberInfos event) (·.1 = (winner p).2.walletAddress)
        = some ((winner p).2.walletAddress, (winner p).1, (winner p).2.id) := by
      rw [memberInfos_eq h.teams_eq]
      refine lastWhere_eq_some (List.mem_map_of_mem (hwinner p hp).1) (decide_eq_true rfl) ?_
      intro info hinfo haddress
      obtain ⟨r, hr, rfl⟩ := List.mem_map.mp hinfo
      rw [List.inj_on_of_nodup_map h.wallets hr (hwinner p hp).1 (of_decide_eq_true haddress)]
    have hprize : lastWhere event.prizes (·.rank = rankOf (placeOf p.rank)) = some p := by
      refine lastWhere_eq_some hp (decide_eq_true (h.places p hp).symm) ?_
      intro p' hp' hrank
      refine List.inj_on_of_nodup_map h.ranks hp' hp ?_
      rw [of_decide_eq_true hrank, h.places p hp]
    simp only [mapWinner, winnerOf, bind_eq_ok, expect_eq_ok, pure_eq_ok]
    exact ⟨_, hmember, p, hprize, by rw [lineOf, h.places p hp]⟩
  generalize event.prizes = prizes at hline
  induction prizes with
  | nil => rfl
  | cons p ps ih =>
      have hrest := ih fun q hq => hline q (List.mem_cons_of_mem _ hq)
      simp only [List.map_cons, mapWinners, bind_eq_ok, pure_eq_ok]
      exact ⟨_, hline p List.mem_cons_self, _, hrest, rfl⟩

end Winner

/-- The contract accepts a line per prize, each paying its prize whole, when there are at most
25 of them and they stay below `2^63` together. -/
theorem validateAndSumWinners_iff {prizes : List Prize} (winner : Prize → RowId × TeamMember)
    {reward : Int64} (hamounts : ∀ p ∈ prizes, Convertible p)
    (hreward : reward = (prizes.map prizeStroops).sum) :
    Escrow.validateAndSumWinners
        ((prizes.map fun p => winnerOf p (winner p, prizeStroops p)).map winnerScVal)
        (encodeI128 reward) = .ok (encodeI128 reward) ↔
      prizes.length ≤ 25 ∧ (prizes.map fun p => (prizeStroops p).toInt).sum < 2 ^ 63 := by
  have hpositive : ∀ x ∈ prizes.map prizeStroops, 0 < x := by
    intro x hx
    obtain ⟨p, hp, rfl⟩ := List.mem_map.mp hx
    obtain ⟨n, hn⟩ := hamounts p hp
    rw [prizeStroops_eq hn]
    exact amountToStroops_pos hn
  have hexact : WrappingSum.exact (prizes.map prizeStroops)
      = (prizes.map fun p => (prizeStroops p).toInt).sum := by
    rw [WrappingSum.exact, List.map_map]
    rfl
  have htotal : Escrow.totalPaid (Escrow.winnerPayments
      ((prizes.map fun p => winnerOf p (winner p, prizeStroops p)).map winnerScVal))
        = (prizes.map fun p => (prizeStroops p).toInt).sum := by
    rw [Escrow.totalPaid, Escrow.winnerPayments, List.map_map, List.map_map, List.map_map]
    rfl
  rw [Escrow.validateAndSumWinners_eq_ok, and_iff_left rfl]
  constructor
  · intro hvalid
    have hlen := hvalid.short
    have hsum := hvalid.total
    rw [List.length_map, List.length_map] at hlen
    rw [htotal] at hsum
    exact ⟨hlen, hsum ▸ reward.toInt_lt⟩
  · rintro ⟨hlen, hlt⟩
    refine ⟨by rwa [List.length_map, List.length_map], ?_, ?_⟩
    · intro w hw
      obtain ⟨w', hw', rfl⟩ := List.mem_map.mp hw
      obtain ⟨p, hp, rfl⟩ := List.mem_map.mp hw'
      exact Int64.lt_iff_toInt_lt.mp (hpositive _ (List.mem_map_of_mem hp))
    · rw [htotal, ← hexact, hreward]
      exact (WrappingSum.toInt_sum_of_lt hpositive (hexact ▸ hlt)).symm

end SoloRelease

/-! ## From the draft to the payout -/

/-- The prizes of the event in the tables have these ranks and amounts. -/
def HoldsPrizes (db : DB) (eventId : RowId) (rows : List (Int64 × GoString)) : Prop :=
  ((db.prizes.entries.filter fun e => e.2.eventId = eventId).map
    fun e => (e.2.rank, e.2.amount)).Perm rows

/-- The assignments go all the way: they are accepted, allocated and mapped, and the contract
accepts the winners for its reward. -/
def Pays (event : EventForRelease) (assignments : List Assignment) (reward : Escrow.I128) :
    Prop :=
  validateAssignments assignments event = .ok () ∧
  ∃ positions teams sum ws rws,
    buildAllocationInput event assignments = .ok (positions, teams, sum) ∧
    allocateWinners sum positions teams = .ok ws ∧ mapWinners event ws = .ok rws ∧
    Escrow.validateAndSumWinners (ws.map winnerScVal) reward = .ok reward

theorem rankOf_placeOf {k : ℕ} (h : k < 2 ^ 31) :
    rankOf (placeOf (Int64.ofNat k)) = Int64.ofNat k := by
  apply Int64.toBitVec_inj.mp
  apply BitVec.eq_of_toNat_eq
  simp [rankOf, placeOf]
  omega

/-- The prizes read for an event, up to their order. -/
theorem loadPrizes_perm {db : DB} {eventId : RowId} {rows : List (Int64 × GoString)}
    (h : HoldsPrizes db eventId rows) :
    ((loadPrizes db eventId).map fun p => (p.rank, p.amount)).Perm rows := by
  refine ((List.perm_insertionSort _ _).map _).trans ?_
  rw [List.map_map]
  exact h

/-- What the service reads of accepted prizes. -/
theorem loadPrizes_of_draft {db : DB} {eventId : RowId} {raws : List JsString}
    {drafts : List PrizeDraft} {rows : List (Int64 × GoString)}
    (hdraft : draftPrizes raws = .ok drafts) (hrows : drafts.map PrizeDraft.row = rows.map some)
    (hprizes : HoldsPrizes db eventId rows) :
    (loadPrizes db eventId).length = raws.length ∧ raws ≠ [] ∧
      ((loadPrizes db eventId).map (·.rank)).Nodup ∧
      (∀ p ∈ loadPrizes db eventId, Convertible p ∧ rankOf (placeOf p.rank) = p.rank) ∧
      ((loadPrizes db eventId).map fun p => (prizeStroops p).toInt).sum
        = ((draftAmounts raws).sum : ℤ) := by
  simp only [draftPrizes, bind_eq_ok, ensure_eq_ok, exists_const] at hdraft
  obtain ⟨hne, hdraft⟩ := hdraft
  obtain ⟨hamounts, hranks, hbounds, hfit⟩ := draftPrizesFrom_rows hdraft hrows
  have hperm := loadPrizes_perm hprizes
  -- the table keeps no order: ranks and amounts are those of the form up to a permutation
  have hrankPerm : ((loadPrizes db eventId).map (·.rank)).Perm
      ((List.range' (0 + 1) raws.length).map Int64.ofNat) := by
    rw [← hranks]
    have h := hperm.map Prod.fst
    rwa [List.map_map] at h
  have hamountPerm : ((loadPrizes db eventId).map (·.amount)).Perm
      ((draftAmounts raws).map decimalText) := by
    rw [← hamounts]
    have h := hperm.map Prod.snd
    rwa [List.map_map] at h
  refine ⟨?_, hne, ?_, ?_, ?_⟩
  · simpa only [List.length_map, List.length_range'] using hrankPerm.length_eq
  · refine hrankPerm.nodup_iff.mpr (List.Nodup.map_on ?_ List.nodup_range')
    intro k hk k' hk' heq
    have hint := congrArg Int64.toInt heq
    rw [Int64.toInt_ofNat_of_lt ((hfit k hk).trans (by decide)),
      Int64.toInt_ofNat_of_lt ((hfit k' hk').trans (by decide))] at hint
    exact Int.natCast_inj.mp hint
  · intro p hp
    obtain ⟨n, hn, heq⟩ := List.mem_map.mp (hamountPerm.mem_iff.mp (List.mem_map_of_mem hp))
    obtain ⟨k, hk, hrank⟩ := List.mem_map.mp (hrankPerm.mem_iff.mp (List.mem_map_of_mem hp))
    refine ⟨⟨Int64.ofNat n, ?_⟩, ?_⟩
    · rw [← heq, amountToStroops_decimalText (hbounds n hn).1
        ((hbounds n hn).2.trans (by decide))]
    · rw [← hrank, rankOf_placeOf (hfit k hk)]
  · -- each amount of the form is the value of its text
    have hvalues := (hamountPerm.map fun a => (prizeStroops ⟨"", 0, a⟩).toInt).sum_eq
    rw [List.map_map, List.map_map] at hvalues
    rw [Nat.cast_list_sum]
    refine Eq.trans hvalues (congrArg List.sum (List.map_congr_left fun n hn => ?_))
    rw [Function.comp_apply, prizeStroops_eq
      (amountToStroops_decimalText (hbounds n hn).1 ((hbounds n hn).2.trans (by decide))),
      Int64.toInt_ofNat_of_lt ((hbounds n hn).2.trans (by decide))]

/-- What can be created can be paid, when it is not too many prizes nor too much.  The prizes
are those the form accepted and the table keeps; the event was created with the reward the
service computes from them and suffered no emergency withdraw; its teams are those of
`registerTeam`, and distinct ones of them are assigned to all the ranks.  Then the
release goes through, up to the contract's check against the event's reward, exactly when
there are at most 25 prizes and they stay below `2^63` stroops together. -/
theorem created_payable {own : Address} {db : DB} {p : PathID} {event : EventForRelease}
    {raws : List JsString} {drafts : List PrizeDraft} {rows : List (Int64 × GoString)}
    {assignments : List Assignment} {reward : Int64} {env : Escrow.Env own}
    {s₀ s₁ s : Escrow.State} {admin judge token : Address} {resolver : Option Address}
    {eid : EventID} {e : Escrow.Event}
    {tr : List (Transition Escrow.State (Escrow.Label own))}
    (hdraft : draftPrizes raws = .ok drafts)
    (hrows : drafts.map PrizeDraft.row = rows.map some)
    (hprizes : HoldsPrizes db p.uuid rows) (hteams : RegisteredTeams db p.uuid)
    (hload : loadEventForRelease db p = .ok event)
    (hreward : sumPrizes 0 event.prizes = .ok reward)
    (hcreate : Escrow.exec env s₀
      (.createEvent admin judge resolver token (encodeI128 reward) eid) = .ok s₁)
    (hrun : Run (Escrow.Step own) s₁ tr s) (hkeeps : ∀ t ∈ tr, Escrow.KeepsReward eid t)
    (he : s.event.lookup eid = some e)
    (hcovered : (assignments.map (·.rank)).Perm (event.prizes.map (·.rank)))
    (hdistinct : (assignments.map (·.teamID)).Nodup)
    (hregistered : ∀ a ∈ assignments, ∃ t ∈ event.teams, t.id = a.teamID) :
    Pays event assignments e.reward ↔
      raws.length ≤ 25 ∧ (draftAmounts raws).sum < 2 ^ 63 := by
  simp only [loadEventForRelease, bind_eq_ok, expect_eq_ok, pure_eq_ok] at hload
  obtain ⟨row, -, rfl⟩ := hload
  obtain ⟨hlen, hne, hranks, hread, htotal⟩ := loadPrizes_of_draft hdraft hrows hprizes
  obtain ⟨halone, hwallets, hshares⟩ := hteams.rows
  have hsolo : SoloRelease _ (memberRows db p.uuid) assignments :=
    { teams_eq := rfl
      sorted := memberRows_sorted db p.uuid
      alone := halone
      wallets := hwallets
      shares := hshares
      prizes := by
        intro hnil
        simp only at hnil
        rw [hnil, List.length_nil] at hlen
        exact hne (List.eq_nil_of_length_eq_zero hlen.symm)
      ranks := hranks
      places := fun p hp => (hread p hp).2
      amounts := fun p hp => (hread p hp).1
      covered := hcovered
      distinct := hdistinct
      registered := hregistered }
  obtain ⟨winner, hwinner⟩ := hsolo.exists_winner
  obtain ⟨-, hsum⟩ := sumPrizes_eq_ok.mp hreward
  rw [Int64.zero_add] at hsum
  have hcontract := SoloRelease.validateAndSumWinners_iff winner hsolo.amounts hsum
  rw [htotal, hlen] at hcontract
  -- the reward on the chain is the sum the create computed, and the contract's check decides
  rw [Escrow.reward_of_created hcreate hrun hkeeps he, ← Nat.cast_lt (α := ℤ)]
  refine Iff.trans ?_ hcontract
  constructor
  · rintro ⟨-, positions, teams, sum, ws, rws, hinput, hallocate, -, hvalid⟩
    obtain ⟨-, rfl⟩ := (hsolo.allocateWinners_iff hwinner hinput).mp hallocate
    exact hvalid
  · intro hvalid
    have hshort := (hcontract.mp hvalid).1
    obtain ⟨positions, teams, sum, hinput⟩ := hsolo.exists_input
    refine ⟨hsolo.validated, _, _, _, _, _, hinput,
      (hsolo.allocateWinners_iff hwinner hinput).mpr ⟨?_, rfl⟩, hsolo.mapWinners_eq hwinner, hvalid⟩
    rw [hlen]
    exact hshort

namespace Sample

/-- A form with `n` prizes of one stroop. -/
def form (n : ℕ) : List JsString := List.replicate n (jsText "0.0000001")

def formDrafts (n : ℕ) : List PrizeDraft :=
  (List.range n).map fun i => ⟨i + 1, jsText "0.0000001"⟩

def formRows (n : ℕ) : List (Int64 × GoString) :=
  (List.range n).map fun i => (Int64.ofNat (i + 1), bytes "0.0000001")

def formEvent : PathID := ⟨"00000000-0000-0000-0000-00000000000b", by decide⟩

def letter (i : ℕ) : RowId := String.singleton (Char.ofNat (97 + i))

/-- The form's event under judging, with a team of one for each of its prizes. -/
def formDB (n : ℕ) : DB where
  events := (∅ : KeyTable RowId EventRow).insert formEvent.uuid
    ⟨.judging, some 7, Escrow.Sample.organizer, none, none⟩
  judges := [⟨formEvent.uuid, Escrow.Sample.judge, true⟩]
  prizes := (List.range n).foldl (fun t i => t.insert (letter i)
    ⟨formEvent.uuid, Int64.ofNat (i + 1), bytes "0.0000001", .pending, none, none, none⟩) ∅
  teams := (List.range n).foldl (fun t i => t.insert (letter i) formEvent.uuid) ∅
  teamMembers := (List.range n).foldl (fun t i => t.insert (letter i)
    (registeredMember (letter i) (.account (.ofNat 256 (10 + i))))) ∅
  payouts := []
  opLog := fun _ => none

/-- The event as the release reads it. -/
def formLoaded (n : ℕ) : EventForRelease where
  id := formEvent
  status := .judging
  escrowEventID := some 7
  judges := loadJudges (formDB n) formEvent.uuid
  prizes := loadPrizes (formDB n) formEvent.uuid
  teams := collectTeams (memberRows (formDB n) formEvent.uuid)

theorem load_form (n : ℕ) : loadEventForRelease (formDB n) formEvent = .ok (formLoaded n) := by
  rw [loadEventForRelease, formDB, AList.lookup_insert]
  rfl

/-- The first rank to the first team, and so on. -/
def formAssignments (n : ℕ) : List Assignment :=
  (List.range n).map fun i => ⟨Int64.ofNat (i + 1), letter i⟩

/-- The organizer's deposit. -/
def formDeposited : Escrow.State :=
  Escrow.okOf (Escrow.exec (Escrow.Sample.env 3 [Escrow.Sample.organizer])
    (Escrow.genesis Escrow.Sample.balances)
    (.depositFunds Escrow.Sample.organizer Escrow.Sample.token (.ofNat 1000))) (by decide +kernel)

/-- The creation of the event, with the reward of its prizes. -/
def formCreate (reward : Int64) : Escrow.Call :=
  .createEvent Escrow.Sample.organizer Escrow.Sample.judge (some Escrow.Sample.resolver)
    Escrow.Sample.token (encodeI128 reward) 7

def formGoLive : Escrow.Call := .setEventInProgress Escrow.Sample.organizer 7 100

def formEnv : Escrow.Env Escrow.Sample.escrow := Escrow.Sample.env 4 [Escrow.Sample.organizer]

end Sample

theorem keepsReward_goLive (s s' : Escrow.State) :
    ∀ t ∈ [(⟨s, .call Sample.formEnv Sample.formGoLive, s'⟩ :
      Transition Escrow.State (Escrow.Label Escrow.Sample.escrow))], Escrow.KeepsReward 7 t := by
  intro t ht env admin resolver amount heq
  rw [List.mem_singleton.mp ht] at heq
  injection heq with henv hcall
  exact nomatch hcall

/-- A form with two prizes pays both. -/
theorem created_payable_two : ∃ s e, Escrow.exec Sample.formEnv Sample.formDeposited
      (Sample.formCreate 2) = .ok s ∧ s.event.lookup 7 = some e ∧
    Pays (Sample.formLoaded 2) (Sample.formAssignments 2) e.reward := by
  have hcreate := Escrow.okOf_eq (r := Escrow.exec Sample.formEnv Sample.formDeposited
    (Sample.formCreate 2)) (by decide +kernel)
  have hlook : (Escrow.okOf (Escrow.exec Sample.formEnv Sample.formDeposited
      (Sample.formCreate 2)) (by decide +kernel)).event.lookup 7
      = some { Escrow.Sample.liveEvent with
          reward := encodeI128 2, state := .created, judgingDeadline := none } := by
    decide +kernel
  have hteams : RegisteredTeams (Sample.formDB 2) Sample.formEvent.uuid :=
    ⟨by decide +kernel, by decide +kernel, by decide +kernel⟩
  have hprizes : HoldsPrizes (Sample.formDB 2) Sample.formEvent.uuid (Sample.formRows 2) := by
    unfold HoldsPrizes
    decide +kernel
  have hdraft : draftPrizes (Sample.form 2) = .ok (Sample.formDrafts 2) := by decide +kernel
  have hrows : (Sample.formDrafts 2).map PrizeDraft.row = (Sample.formRows 2).map some := by
    decide +kernel
  have hcovered : ((Sample.formAssignments 2).map (·.rank)).Perm
      ((Sample.formLoaded 2).prizes.map (·.rank)) := by decide +kernel
  have hall := created_payable hdraft hrows hprizes hteams (Sample.load_form 2)
    (by decide +kernel) hcreate .nil (fun t ht => nomatch ht) hlook hcovered (by decide +kernel)
    (by decide +kernel)
  exact ⟨_, _, hcreate, hlook, hall.mpr ⟨by decide +kernel, by decide +kernel⟩⟩

/-- A form with 26 prizes becomes a live event that its judge cannot release. -/
theorem created_unpayable :
    draftPrizes (Sample.form 26) = .ok (Sample.formDrafts 26) ∧
    (Sample.formDrafts 26).map PrizeDraft.row = (Sample.formRows 26).map some ∧
    HoldsPrizes (Sample.formDB 26) Sample.formEvent.uuid (Sample.formRows 26) ∧
    RegisteredTeams (Sample.formDB 26) Sample.formEvent.uuid ∧
    loadEventForRelease (Sample.formDB 26) Sample.formEvent = .ok (Sample.formLoaded 26) ∧
    sumPrizes 0 (Sample.formLoaded 26).prizes = .ok 26 ∧
    ((Sample.formAssignments 26).map (·.rank)).Perm ((Sample.formLoaded 26).prizes.map (·.rank)) ∧
    ((Sample.formAssignments 26).map (·.teamID)).Nodup ∧
    (∀ a ∈ Sample.formAssignments 26, ∃ t ∈ (Sample.formLoaded 26).teams, t.id = a.teamID) ∧
    ∃ s₁ s e tr,
      Escrow.exec Sample.formEnv Sample.formDeposited (Sample.formCreate 26) = .ok s₁ ∧
      Run (Escrow.Step Escrow.Sample.escrow) s₁ tr s ∧ (∀ t ∈ tr, Escrow.KeepsReward 7 t) ∧
      s.event.lookup 7 = some e ∧ e.state = .inProgress ∧
      ¬ Pays (Sample.formLoaded 26) (Sample.formAssignments 26) e.reward := by
  have hcreate := Escrow.okOf_eq (r := Escrow.exec Sample.formEnv Sample.formDeposited
    (Sample.formCreate 26)) (by decide +kernel)
  have hlive := Escrow.okOf_eq (r := Escrow.exec Sample.formEnv
    (Escrow.okOf (Escrow.exec Sample.formEnv Sample.formDeposited (Sample.formCreate 26))
      (by decide +kernel)) Sample.formGoLive) (by decide +kernel)
  refine ⟨by decide +kernel, by decide +kernel, ?_,
    ⟨by decide +kernel, by decide +kernel, by decide +kernel⟩, Sample.load_form 26,
    by decide +kernel, by decide +kernel, by decide +kernel, by decide +kernel, _, _,
    { Escrow.Sample.liveEvent with reward := encodeI128 26 }, _, hcreate,
    Run.single (.call hlive), keepsReward_goLive _ _, by decide +kernel, rfl, ?_⟩
  · unfold HoldsPrizes
    decide +kernel
  · rintro ⟨-, positions, teams, sum, ws, rws, hinput, hallocate, -⟩
    have hrefused : (match buildAllocationInput (Sample.formLoaded 26) (Sample.formAssignments 26)
        with
      | .ok (positions, teams, sum) => (allocateWinners sum positions teams).isOk
      | .error _ => false) = false := by decide +kernel
    rw [hinput] at hrefused
    simp only [hallocate] at hrefused
    exact nomatch hrefused

end Service
