/-
# The rules of an allocation

What `AllocateWinners` checks of positions and teams that are given independently, in any
order and with any amounts and shares, and what its documentation says it checks.  The two
differ where a place is repeated or a sum wraps, and nowhere else; its own post-condition
never fails.
-/
import Astrea.AllocateExact
import Astrea.FloorShares

open Guard ListBlocks

namespace Service

/-! ## What is checked -/

/-- The members of the team declared for a place, none when there is no team. -/
def membersAt (teams : List WinningTeam) (place : UInt32) : List Member :=
  match teams.find? (·.place = place) with
  | some team => team.members
  | none => []

/-- What is checked of the team that won a position, in wrapping arithmetic. -/
structure PayableTeam (amount : Int64) (members : List Member) : Prop where
  nonempty : members ≠ []
  shares_pos : ∀ m ∈ members, 0 < m.shareBasisPoints
  ordinals : (members.map (·.ordinal)).Nodup
  shares_sum : (members.map (·.shareBasisPoints)).sum = totalShareBasisPoints
  amounts_pos : ∀ x ∈ splitOf amount members, 0 < x

/-- What is checked of an allocation, and the lines it returns. -/
structure Allocated (reward : Int64) (positions : List Position) (teams : List WinningTeam)
    (ws : List Winner) : Prop where
  nonempty : positions ≠ []
  amounts_pos : ∀ p ∈ positions, 0 < p.amount
  total : (positions.map (·.amount)).sum = reward
  count : teams.length = positions.length
  places : (teams.map (·.place)).Nodup
  members : (teams.map (·.members.length)).sum ≤ maxWinners
  payable : ∀ p ∈ positions, ∃ t ∈ teams, t.place = p.place ∧ PayableTeam p.amount t.members
  lines : ws = positions.flatMap fun p => linesOf p.place p.amount (membersAt teams p.place)

/-- The sum of the shares exists when every share is positive and no ordinal is met twice. -/
theorem sumShares_eq_ok {place : UInt32} {seen : List Int64} {acc total : Int64}
    {members : List Member} :
    sumShares place seen acc members = .ok total ↔
      (∀ m ∈ members, 0 < m.shareBasisPoints) ∧ (members.map (·.ordinal)).Nodup ∧
        (∀ m ∈ members, m.ordinal ∉ seen) ∧
        total = acc + (members.map (·.shareBasisPoints)).sum := by
  induction members generalizing seen acc with
  | nil =>
      simp only [sumShares, Except.ok.injEq, List.not_mem_nil, false_imp_iff, implies_true,
        List.map_nil, List.nodup_nil, List.sum_nil, Int64.add_zero, true_and]
      exact eq_comm
  | cons m members ih =>
      simp only [sumShares, bind_eq_ok, ensure_eq_ok, exists_const, ih, List.forall_mem_cons,
        List.map_cons, List.nodup_cons, List.sum_cons, Int64.add_assoc]
      constructor
      · rintro ⟨hpos, hnew, hrest, hnodup, hseen, rfl⟩
        refine ⟨⟨hpos, hrest⟩, ⟨?_, hnodup⟩,
          ⟨hnew, fun m' hm' => List.not_mem_of_not_mem_cons (hseen m' hm')⟩, rfl⟩
        intro hmem
        obtain ⟨m', hm', heq⟩ := List.mem_map.mp hmem
        exact List.ne_of_not_mem_cons (hseen m' hm') heq
      · rintro ⟨⟨hpos, hrest⟩, ⟨hnot, hnodup⟩, ⟨hnew, hseen⟩, rfl⟩
        refine ⟨hpos, hnew, hrest, hnodup, fun m' hm' => ?_, rfl⟩
        refine List.not_mem_cons_of_ne_of_not_mem (fun heq => hnot ?_) (hseen m' hm')
        exact heq ▸ List.mem_map_of_mem hm'

/-- The amounts of a position's lines. -/
theorem amounts_linesOf (place : UInt32) (amount : Int64) (members : List Member) :
    (linesOf place amount members).map (·.amount) = splitOf amount members := by
  rw [linesOf, List.map_map]
  exact List.map_snd_zip (by rw [length_splitOf])

/-- Whom a position's lines pay: its members, in order. -/
theorem payees_linesOf (place : UInt32) (amount : Int64) (members : List Member) :
    (linesOf place amount members).map (fun w => (w.place, w.address))
      = members.map fun m => (place, m.address) := by
  have hfst : (members.zip (splitOf amount members)).map Prod.fst = members :=
    List.map_fst_zip (by rw [length_splitOf])
  rw [linesOf, List.map_map]
  conv_rhs => rw [← hfst, List.map_map]
  rfl

/-- What a team's members are paid adds up to the position's amount. -/
theorem sum_linesOf {place : UInt32} {amount : Int64} {members : List Member}
    (hne : members ≠ []) : ((linesOf place amount members).map (·.amount)).sum = amount := by
  rw [amounts_linesOf, sum_splitOf hne]

/-- When every position is allocated, and the lines. -/
theorem allocatePositions_iff {teams l : List WinningTeam} {positions : List Position}
    {ws : List Winner} (hplaces : (teams.map (·.place)).Nodup)
    (hl : ∀ t, t ∈ l ↔ t ∈ teams) :
    allocatePositions l positions = .ok ws ↔
      (∀ p ∈ positions, ∃ t ∈ teams, t.place = p.place ∧ PayableTeam p.amount t.members) ∧
      ws = positions.flatMap fun p => linesOf p.place p.amount (membersAt teams p.place) := by
  have hone : ∀ (p : Position) (ws : List Winner), allocatePosition l p = .ok ws ↔
      (∃ t ∈ teams, t.place = p.place ∧ PayableTeam p.amount t.members) ∧
        ws = linesOf p.place p.amount (membersAt teams p.place) := by
    intro p ws
    rw [allocatePosition_eq_ok]
    constructor
    · rintro ⟨t, hfind, hne, hshares, hpos, rfl⟩
      have ht : t ∈ teams := (hl t).mp (List.mem_of_find?_eq_some hfind)
      have hplace : t.place = p.place := by simpa using List.find?_some hfind
      obtain ⟨hshare, hordinals, -, hsum⟩ := sumShares_eq_ok.mp hshares
      rw [Int64.zero_add] at hsum
      refine ⟨⟨t, ht, hplace, hne, hshare, hordinals, hsum.symm, hpos⟩, ?_⟩
      rw [membersAt, ← hplace, find_team hplaces ht fun _ => Iff.rfl]
    · rintro ⟨⟨t, ht, hplace, hpay⟩, rfl⟩
      refine ⟨t, ?_, hpay.nonempty, ?_, hpay.amounts_pos, ?_⟩
      · rw [← hplace]
        exact find_team hplaces ht hl
      · exact sumShares_eq_ok.mpr ⟨hpay.shares_pos, hpay.ordinals,
          fun _ _ => List.not_mem_nil, by rw [hpay.shares_sum, Int64.zero_add]⟩
      · rw [membersAt, ← hplace, find_team hplaces ht fun _ => Iff.rfl]
  induction positions generalizing ws with
  | nil =>
      simp only [allocatePositions, Except.ok.injEq, List.not_mem_nil, false_imp_iff,
        implies_true, true_and, List.flatMap_nil]
      exact eq_comm
  | cons p ps ih =>
      simp only [allocatePositions, bind_eq_ok, pure_eq_ok, ih, hone, List.forall_mem_cons,
        List.flatMap_cons]
      constructor
      · rintro ⟨_, ⟨hp, rfl⟩, _, ⟨hps, rfl⟩, rfl⟩
        exact ⟨⟨hp, hps⟩, rfl⟩
      · rintro ⟨⟨hp, hps⟩, rfl⟩
        exact ⟨_, ⟨hp, rfl⟩, _, ⟨hps, rfl⟩, rfl⟩

/-- The lines of the checked positions add up, in wrapping arithmetic, to the positions. -/
theorem sum_lines {teams : List WinningTeam} {positions : List Position}
    (hplaces : (teams.map (·.place)).Nodup)
    (hpay : ∀ p ∈ positions, ∃ t ∈ teams, t.place = p.place ∧ PayableTeam p.amount t.members) :
    ((positions.flatMap fun p => linesOf p.place p.amount (membersAt teams p.place)).map
      (·.amount)).sum = (positions.map (·.amount)).sum := by
  induction positions with
  | nil => rfl
  | cons p ps ih =>
      obtain ⟨t, ht, hplace, hteam⟩ := hpay p List.mem_cons_self
      have hne : membersAt teams p.place ≠ [] := by
        rw [membersAt, ← hplace, find_team hplaces ht fun _ => Iff.rfl]
        exact hteam.nonempty
      rw [List.flatMap_cons, List.map_append, List.sum_append, sum_linesOf hne,
        ih fun q hq => hpay q (List.mem_cons_of_mem _ hq), List.map_cons, List.sum_cons]

/-- An allocation succeeds exactly when its checks do; the post-condition adds none. -/
theorem allocateWinners_iff_allocated {reward : Int64} {positions : List Position}
    {teams : List WinningTeam} {ws : List Winner} :
    allocateWinners reward positions teams = .ok ws ↔ Allocated reward positions teams ws := by
  simp only [allocateWinners, bind_eq_ok, ensure_eq_ok, exists_const, pure_eq_ok,
    sumPositions_eq_ok, indexTeams_eq_ok, List.not_mem_nil, false_imp_iff, implies_true,
    true_and, List.append_nil, Int64.zero_add, ne_eq]
  constructor
  · rintro ⟨hne, _, ⟨hpos, rfl⟩, hreward, hcount, _, ⟨hplaces, rfl⟩, hlen, ws', hall, -, rfl⟩
    obtain ⟨hpay, rfl⟩ := (allocatePositions_iff hplaces fun _ => List.mem_reverse).mp hall
    exact ⟨hne, hpos, hreward, hcount, hplaces, hlen, hpay, rfl⟩
  · rintro ⟨hne, hpos, hreward, hcount, hplaces, hlen, hpay, rfl⟩
    refine ⟨hne, _, ⟨hpos, rfl⟩, hreward, hcount, _, ⟨hplaces, rfl⟩, hlen, _,
      (allocatePositions_iff hplaces fun _ => List.mem_reverse).mpr ⟨hpay, rfl⟩, ?_, rfl⟩
    rw [sum_lines hplaces hpay, hreward]

/-! ## The post-condition -/

/-- A failure other than the panic of the post-condition. -/
theorem ne_panicked_allocation {e : AllocationError} {m : Message} :
    AllocateFailure.allocation e ≠ .panicked m := nofun

theorem ne_panicked_error {m m' : Message} : AllocateFailure.error m ≠ .panicked m' := nofun

/-- Adding up positions does not panic. -/
theorem sumPositions_not_panicked {acc : Int64} {ps : List Position} {m : Message} :
    sumPositions acc ps ≠ .error (.panicked m) := by
  induction ps generalizing acc with
  | nil => exact nofun
  | cons p ps ih => exact bind_ne_error (ensure_ne_error ne_panicked_allocation) fun _ _ => ih

/-- Nor does indexing the teams. -/
theorem indexTeams_not_panicked {index ts : List WinningTeam} {m : Message} :
    indexTeams index ts ≠ .error (.panicked m) := by
  induction ts generalizing index with
  | nil => exact nofun
  | cons t ts ih => exact bind_ne_error (ensure_ne_error ne_panicked_error) fun _ _ => ih

/-- Nor does adding up shares. -/
theorem sumShares_not_panicked {place : UInt32} {seen : List Int64} {acc : Int64}
    {members : List Member} {m : Message} :
    sumShares place seen acc members ≠ .error (.panicked m) := by
  induction members generalizing seen acc with
  | nil => exact nofun
  | cons member members ih =>
      exact bind_ne_error (ensure_ne_error ne_panicked_allocation) fun _ _ =>
        bind_ne_error (ensure_ne_error ne_panicked_allocation) fun _ _ => ih

/-- Nor does the check of the amounts. -/
theorem payable_not_panicked {pos : Position} {l : List (Member × Int64)} {m : Message} :
    payable pos l ≠ .error (.panicked m) := by
  induction l with
  | nil => exact nofun
  | cons e l ih =>
      exact bind_ne_error (ensure_ne_error ne_panicked_allocation) fun _ _ =>
        bind_ne_error ih fun _ _ => nofun

/-- Nor do the positions together. -/
theorem allocatePositions_not_panicked {index : List WinningTeam} {ps : List Position}
    {m : Message} : allocatePositions index ps ≠ .error (.panicked m) := by
  induction ps with
  | nil => exact nofun
  | cons p ps ih =>
      refine bind_ne_error ?_ fun _ _ => bind_ne_error ih fun _ _ => nofun
      exact bind_ne_error (expect_ne_error ne_panicked_error) fun _ _ =>
        bind_ne_error (ensure_ne_error ne_panicked_allocation) fun _ _ =>
        bind_ne_error sumShares_not_panicked fun _ _ =>
        bind_ne_error (ensure_ne_error ne_panicked_allocation) fun _ _ => payable_not_panicked

/-- The panic of the post-condition is not reached: the lines add up to the positions, in the
same wrapping arithmetic that compares them. -/
theorem allocateWinners_not_panicked (reward : Int64) (positions : List Position)
    (teams : List WinningTeam) (m : Message) :
    allocateWinners reward positions teams ≠ .error (.panicked m) := by
  refine bind_ne_error (ensure_ne_error ne_panicked_error) fun _ _ => ?_
  refine bind_ne_error sumPositions_not_panicked fun total htotal => ?_
  refine bind_ne_error (ensure_ne_error ne_panicked_error) fun _ hreward => ?_
  refine bind_ne_error (ensure_ne_error ne_panicked_error) fun _ _ => ?_
  refine bind_ne_error indexTeams_not_panicked fun index hindex => ?_
  refine bind_ne_error (ensure_ne_error ne_panicked_error) fun _ _ => ?_
  refine bind_ne_error allocatePositions_not_panicked fun ws hws => ?_
  refine bind_ne_error (ensure_ne_error_of ?_) fun _ _ => nofun
  obtain ⟨hplaces, -, rfl⟩ := indexTeams_eq_ok.mp hindex
  rw [List.append_nil] at hws
  obtain ⟨hpay, rfl⟩ := (allocatePositions_iff hplaces fun _ => List.mem_reverse).mp hws
  obtain ⟨-, rfl⟩ := sumPositions_eq_ok.mp htotal
  rw [sum_lines hplaces hpay, ← ensure_eq_ok.mp hreward, Int64.zero_add]

/-! ## The rules on every input -/

/-- What the rules promise of a returned list, in exact arithmetic. -/
structure Enforced (reward : Int64) (positions : List Position) (teams : List WinningTeam)
    (ws : List Winner) : Prop where
  positions_sum : WrappingSum.exact (positions.map (·.amount)) = reward.toInt
  /-- The teams, in the order of the positions they are paid for, and their lines. -/
  paid : ∃ paid : List WinningTeam, paid.Perm teams ∧ (teams.map (·.place)).Nodup ∧
    List.Forall₂ (fun p t => p.place = t.place) positions paid ∧
    ws.map (fun w => (w.place, w.address))
      = paid.flatMap fun t => t.members.map fun m => (t.place, m.address)
  shares : ∀ t ∈ teams, (∀ m ∈ t.members, 0 < m.shareBasisPoints) ∧
    WrappingSum.exact (t.members.map (·.shareBasisPoints)) = 10000 ∧
    (t.members.map (·.ordinal)).Nodup
  cap : ws.length ≤ maxWinners
  amounts_pos : ∀ w ∈ ws, 0 < w.amount
  amounts_sum : WrappingSum.exact (ws.map (·.amount)) = reward.toInt

/-- The inputs on which the rules are enforced: no place is asked for twice, and the sums of
the amounts and of every team's shares fit in 64 bits. -/
structure Enforceable (positions : List Position) (teams : List WinningTeam) : Prop where
  places : (positions.map (·.place)).Nodup
  amounts : WrappingSum.exact (positions.map (·.amount)) < 2 ^ 63
  shares : ∀ t ∈ teams, WrappingSum.exact (t.members.map (·.shareBasisPoints)) < 2 ^ 63

/-- The team that is paid for a position. -/
def paidTeam (teams : List WinningTeam) (p : Position) : WinningTeam :=
  ⟨p.place, membersAt teams p.place⟩

/-- The team that a position pays is one of the teams, and can be paid. -/
theorem paidTeam_mem {reward : Int64} {positions : List Position} {teams : List WinningTeam}
    {ws : List Winner} (h : Allocated reward positions teams ws) {p : Position}
    (hp : p ∈ positions) :
    paidTeam teams p ∈ teams ∧ PayableTeam p.amount (membersAt teams p.place) := by
  obtain ⟨t, ht, hplace, hpay⟩ := h.payable p hp
  have hmembers : membersAt teams p.place = t.members := by
    rw [membersAt, ← hplace, find_team h.places ht fun _ => Iff.rfl]
  rw [paidTeam, hmembers, ← hplace]
  exact ⟨ht, hpay⟩

/-- Where no place is asked for twice, the paid teams are the declared ones. -/
theorem paidTeam_perm {reward : Int64} {positions : List Position} {teams : List WinningTeam}
    {ws : List Winner} (h : Allocated reward positions teams ws)
    (hplaces : (positions.map (·.place)).Nodup) :
    (positions.map (paidTeam teams)).Perm teams := by
  have hnodup : (positions.map (paidTeam teams)).Nodup := by
    apply List.Nodup.of_map WinningTeam.place
    rw [List.map_map]
    exact hplaces
  have hsub : positions.map (paidTeam teams) ⊆ teams := by
    intro t ht
    obtain ⟨p, hp, rfl⟩ := List.mem_map.mp ht
    exact (paidTeam_mem h hp).1
  refine (List.subperm_of_subset hnodup hsub).perm_of_length_le ?_
  rw [List.length_map, h.count]

/-- Where no place is asked for twice and no sum wraps, the rules hold. -/
theorem enforced_of_enforceable {reward : Int64} {positions : List Position}
    {teams : List WinningTeam} {ws : List Winner} (h : Allocated reward positions teams ws)
    (hinput : Enforceable positions teams) : Enforced reward positions teams ws := by
  have hperm := paidTeam_perm h hinput.places
  -- the exact sum of the positions, and of the shares of any team
  have hpositions : WrappingSum.exact (positions.map (·.amount)) = reward.toInt := by
    rw [← h.total, WrappingSum.toInt_sum_of_lt ?_ hinput.amounts]
    intro x hx
    obtain ⟨p, hp, rfl⟩ := List.mem_map.mp hx
    exact h.amounts_pos p hp
  have hlines : ws.map (fun w => (w.place, w.address))
      = (positions.map (paidTeam teams)).flatMap
          fun t => t.members.map fun m => (t.place, m.address) := by
    rw [h.lines, List.map_flatMap, List.flatMap_map]
    exact List.flatMap_congr fun p _ => payees_linesOf _ _ _
  refine ⟨hpositions, ⟨_, hperm, h.places, ?_, hlines⟩, ?_, ?_, ?_, ?_⟩
  · rw [List.forall₂_map_right_iff]
    exact List.forall₂_same.mpr fun _ _ => rfl
  · intro t ht
    obtain ⟨p, hp, rfl⟩ := List.mem_map.mp (hperm.mem_iff.mpr ht)
    have hpay := (paidTeam_mem h hp).2
    refine ⟨hpay.shares_pos, ?_, hpay.ordinals⟩
    have hexact := WrappingSum.toInt_sum_of_lt (l := (membersAt teams p.place).map
      (·.shareBasisPoints)) ?_ (hinput.shares _ ht)
    · rw [hpay.shares_sum] at hexact
      exact hexact.symm
    · intro x hx
      obtain ⟨m, hm, rfl⟩ := List.mem_map.mp hx
      exact hpay.shares_pos m hm
  · have hlength := congrArg List.length hlines
    rw [List.length_map, List.length_flatMap] at hlength
    have hsum := (hperm.map fun t => t.members.length).sum_eq
    simp only [List.length_map] at hlength
    rw [hlength, hsum]
    exact h.members
  · intro w hw
    rw [h.lines] at hw
    obtain ⟨p, hp, hw⟩ := List.mem_flatMap.mp hw
    obtain ⟨e, he, rfl⟩ := List.mem_map.mp hw
    exact (paidTeam_mem h hp).2.amounts_pos _ (List.of_mem_zip he).2
  · rw [h.lines, ← hpositions, WrappingSum.exact, WrappingSum.exact, List.map_map, List.map_map]
    rw [ListBlocks.sum_map_flatMap]
    refine congrArg List.sum (List.map_congr_left fun p hp => ?_)
    obtain ⟨hmem, hpay⟩ := paidTeam_mem h hp
    have hlen : (membersAt teams p.place).length ≤ maxWinners :=
      (List.single_le_sum (fun _ _ => Nat.zero_le _) _
        (List.mem_map_of_mem (f := fun t : WinningTeam => t.members.length) hmem)).trans h.members
    have hexact := exact_splitOf hpay.nonempty hlen (h.amounts_pos p hp) hpay.amounts_pos
    rw [Function.comp_apply, ← hexact, WrappingSum.exact, ← amounts_linesOf p.place, List.map_map]

/-- The allocation never panics, and a list that it returns keeps all its rules exactly when
no place is asked for twice and no sum of amounts or of a team's shares leaves 64 bits. -/
theorem allocateWinners_rules (reward : Int64) (positions : List Position)
    (teams : List WinningTeam) :
    (∀ m, allocateWinners reward positions teams ≠ .error (.panicked m)) ∧
      ∀ ws, allocateWinners reward positions teams = .ok ws →
        (Enforced reward positions teams ws ↔ Enforceable positions teams) := by
  refine ⟨allocateWinners_not_panicked reward positions teams, fun ws hws => ?_⟩
  have h := allocateWinners_iff_allocated.mp hws
  refine ⟨fun henforced => ?_, enforced_of_enforceable h⟩
  obtain ⟨paid, hperm, hplaces, hpaid, -⟩ := henforced.paid
  refine ⟨?_, ?_, fun t ht => ?_⟩
  · have heq : positions.map (·.place) = paid.map (·.place) :=
      List.forall₂_eq_eq_eq ▸ (List.forall₂_map_left_iff.mpr (List.forall₂_map_right_iff.mpr hpaid))
    rw [heq]
    exact (hperm.map _).nodup_iff.mpr hplaces
  · rw [henforced.positions_sum]
    exact reward.toInt_lt
  · rw [(henforced.shares t ht).2.1]
    decide

namespace Sample

def firstTeam : WinningTeam := ⟨1, [⟨.account 2, 1, 4000⟩, ⟨.account 1, 0, 6000⟩]⟩

def secondTeam : WinningTeam := ⟨2, [⟨.account 3, 0, 10000⟩]⟩

end Sample

/-- Two positions, given in another order than their teams. -/
theorem allocateWinners_rules_twoTeams :
    Enforced 151 [⟨2, 50⟩, ⟨1, 101⟩] [Sample.firstTeam, Sample.secondTeam]
      [⟨2, 50, .account 3⟩, ⟨1, 40, .account 2⟩, ⟨1, 61, .account 1⟩] :=
  ((allocateWinners_rules 151 [⟨2, 50⟩, ⟨1, 101⟩] [Sample.firstTeam, Sample.secondTeam]).2 _
    (by decide)).mpr ⟨by decide, by decide, by decide⟩

/-- A place asked for twice is paid twice to its team, and the other team not at all. -/
theorem place_paidTwice :
    allocateWinners 100 [⟨2, 50⟩, ⟨2, 50⟩] [Sample.firstTeam, Sample.secondTeam]
        = .ok [⟨2, 50, .account 3⟩, ⟨2, 50, .account 3⟩] ∧
      ¬ Enforced 100 [⟨2, 50⟩, ⟨2, 50⟩] [Sample.firstTeam, Sample.secondTeam]
        [⟨2, 50, .account 3⟩, ⟨2, 50, .account 3⟩] := by
  refine ⟨by decide, fun henforced => ?_⟩
  obtain ⟨paid, hperm, -, hpaid, -⟩ := henforced.paid
  -- both paid teams have place 2, and the declared ones have not
  obtain ⟨p, hp, hplace⟩ : ∃ t ∈ paid, t.place = 1 :=
    ⟨Sample.firstTeam, hperm.mem_iff.mpr List.mem_cons_self, rfl⟩
  rcases hpaid with _ | ⟨h₁, _ | ⟨h₂, _ | _⟩⟩
  rcases List.mem_cons.mp hp with rfl | hp
  · exact absurd (h₁.trans hplace) (by decide)
  · rw [List.mem_singleton.mp hp] at hplace
    exact absurd (h₂.trans hplace) (by decide)

end Service
