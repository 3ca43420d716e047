/-
# What an allocation pays

The lines of an allocation as one list, position after position and member after member, and
the exactness of each position's split: although products and sums wrap, the amounts paid for
a position add up, as integers, to the position's amount.
-/
import Astrea.Allocate
import Astrea.WrappingSum
import Astrea.ListBlocks

open Guard

namespace Service

/-- The members' amounts for a position: the floors, with the remainder added. -/
def splitOf (amount : Int64) (members : List Member) : List Int64 :=
  addRemainder (amount - (floors amount members).sum) members (floors amount members)

/-- The payout lines of a position. -/
def linesOf (place : UInt32) (amount : Int64) (members : List Member) : List Winner :=
  (members.zip (splitOf amount members)).map fun e => ⟨place, e.2, e.1.address⟩

@[simp] theorem length_floors (amount : Int64) (members : List Member) :
    (floors amount members).length = members.length := List.length_map _

@[simp] theorem length_splitOf (amount : Int64) (members : List Member) :
    (splitOf amount members).length = members.length := by
  unfold splitOf addRemainder
  cases members with
  | nil => rfl
  | cons m ms =>
      simp only
      split
      · exact length_floors _ _
      · rw [List.length_modify, length_floors]

@[simp] theorem length_linesOf (place : UInt32) (amount : Int64) (members : List Member) :
    (linesOf place amount members).length = members.length := by
  rw [linesOf, List.length_map, List.length_zip, length_splitOf, min_self]

/-! ## The lines -/

/-- The payout lines exist when every amount is positive. -/
theorem payable_eq_ok {pos : Position} {l : List (Member × Int64)} {ws : List Winner} :
    payable pos l = .ok ws ↔
      (∀ e ∈ l, 0 < e.2) ∧ ws = l.map fun e => ⟨pos.place, e.2, e.1.address⟩ := by
  induction l generalizing ws with
  | nil =>
      simp only [payable, Except.ok.injEq, List.not_mem_nil, false_imp_iff, implies_true,
        true_and, List.map_nil]
      exact eq_comm
  | cons e l ih =>
      obtain ⟨m, amount⟩ := e
      simp only [payable, bind_eq_ok, ensure_eq_ok, exists_const, pure_eq_ok, ih,
        List.forall_mem_cons, List.map_cons]
      constructor
      · rintro ⟨hpos, ws', ⟨hrest, rfl⟩, rfl⟩
        exact ⟨⟨hpos, hrest⟩, rfl⟩
      · rintro ⟨⟨hpos, hrest⟩, rfl⟩
        exact ⟨hpos, _, ⟨hrest, rfl⟩, rfl⟩

/-- A position is allocated when its team exists, has members whose shares are in order and
add up, and every amount is positive. -/
theorem allocatePosition_eq_ok {index : List WinningTeam} {pos : Position} {ws : List Winner} :
    allocatePosition index pos = .ok ws ↔
      ∃ team, index.find? (·.place = pos.place) = some team ∧ team.members ≠ [] ∧
        sumShares pos.place [] 0 team.members = .ok totalShareBasisPoints ∧
        (∀ x ∈ splitOf pos.amount team.members, 0 < x) ∧
        ws = linesOf pos.place pos.amount team.members := by
  have hamounts : ∀ members : List Member,
      (∀ e ∈ members.zip (splitOf pos.amount members), 0 < e.2) ↔
        ∀ x ∈ splitOf pos.amount members, 0 < x := by
    intro members
    have hsnd : (members.zip (splitOf pos.amount members)).map Prod.snd
        = splitOf pos.amount members :=
      List.map_snd_zip (by rw [length_splitOf])
    constructor
    · intro h x hx
      rw [← hsnd] at hx
      obtain ⟨e, he, rfl⟩ := List.mem_map.mp hx
      exact h e he
    · intro h e he
      apply h
      rw [← hsnd]
      exact List.mem_map_of_mem he
  simp only [allocatePosition, bind_eq_ok, expect_eq_ok, ensure_eq_ok, exists_const]
  constructor
  · rintro ⟨team, hfind, hne, shareSum, hshares, rfl, hpay⟩
    obtain ⟨hpos, rfl⟩ := payable_eq_ok.mp hpay
    exact ⟨team, hfind, hne, hshares, (hamounts _).mp hpos, rfl⟩
  · rintro ⟨team, hfind, hne, hshares, hpos, rfl⟩
    exact ⟨team, hfind, hne, _, hshares, rfl, payable_eq_ok.mpr ⟨(hamounts _).mpr hpos, rfl⟩⟩

/-- The index of the teams exists when no place is named twice, and holds the teams, last
first. -/
theorem indexTeams_eq_ok {index ts index' : List WinningTeam} :
    indexTeams index ts = .ok index' ↔
      (ts.map (·.place)).Nodup ∧ (∀ t ∈ ts, ∀ t' ∈ index, t'.place ≠ t.place) ∧
        index' = ts.reverse ++ index := by
  induction ts generalizing index with
  | nil =>
      simp only [indexTeams, Except.ok.injEq, List.map_nil, List.nodup_nil, List.not_mem_nil,
        false_imp_iff, implies_true, true_and, List.reverse_nil, List.nil_append]
      exact eq_comm
  | cons t ts ih =>
      simp only [indexTeams, bind_eq_ok, ensure_eq_ok, exists_const, ih, List.map_cons,
        List.nodup_cons, List.forall_mem_cons, List.reverse_cons, List.append_assoc,
        List.singleton_append]
      constructor
      · rintro ⟨hnew, hnodup, hrest, rfl⟩
        refine ⟨⟨?_, hnodup⟩, ⟨hnew, fun t' ht' => (hrest t' ht').2⟩, rfl⟩
        intro hmem
        obtain ⟨t', ht', heq⟩ := List.mem_map.mp hmem
        exact (hrest t' ht').1 heq.symm
      · rintro ⟨⟨hnot, hnodup⟩, ⟨hnew, hrest⟩, rfl⟩
        refine ⟨hnew, hnodup, fun t' ht' => ⟨?_, hrest t' ht'⟩, rfl⟩
        intro heq
        exact hnot (heq ▸ List.mem_map_of_mem ht')

/-- Under distinct places a team is found under its own, from either end. -/
theorem find_team {teams : List WinningTeam} (hplaces : (teams.map (·.place)).Nodup)
    {t : WinningTeam} (ht : t ∈ teams) {l : List WinningTeam} (hl : ∀ t', t' ∈ l ↔ t' ∈ teams) :
    l.find? (·.place = t.place) = some t := by
  cases hfind : l.find? (·.place = t.place) with
  | none =>
      exact absurd (decide_eq_true rfl) (List.find?_eq_none.mp hfind t ((hl t).mpr ht))
  | some t' =>
      have hplace : t'.place = t.place := by simpa using List.find?_some hfind
      rw [List.inj_on_of_nodup_map hplaces ((hl t').mp (List.mem_of_find?_eq_some hfind)) ht hplace]

section Prizes

variable {α : Type} {prizes : List α} {place : α → UInt32} {amount : α → Int64}
  {members : α → List Member}

/-- The team of a prize is found under its place. -/
theorem find_index (hnodup : (prizes.map place).Nodup) {p : α} (hp : p ∈ prizes) :
    (prizes.map fun p => (⟨place p, members p⟩ : WinningTeam)).reverse.find?
      (·.place = place p) = some ⟨place p, members p⟩ := by
  have hplaces : ((prizes.map fun p => (⟨place p, members p⟩ : WinningTeam)).map
      (·.place)).Nodup := by
    rw [List.map_map]
    exact hnodup
  have hmem : (⟨place p, members p⟩ : WinningTeam)
      ∈ prizes.map fun p => (⟨place p, members p⟩ : WinningTeam) :=
    List.mem_map.mpr ⟨p, hp, rfl⟩
  exact find_team hplaces hmem fun _ => List.mem_reverse

/-- What the allocation of every position comes to. -/
theorem allocatePositions_eq_ok {index : List WinningTeam} {ws : List Winner}
    (hindex : ∀ p ∈ prizes,
      index.find? (·.place = place p) = some ⟨place p, members p⟩) :
    allocatePositions index (prizes.map fun p => ⟨place p, amount p⟩) = .ok ws ↔
      (∀ p ∈ prizes, members p ≠ [] ∧
        sumShares (place p) [] 0 (members p) = .ok totalShareBasisPoints ∧
        ∀ x ∈ splitOf (amount p) (members p), 0 < x) ∧
      ws = prizes.flatMap fun p => linesOf (place p) (amount p) (members p) := by
  induction prizes generalizing ws with
  | nil =>
      simp only [List.map_nil, allocatePositions, Except.ok.injEq, List.not_mem_nil,
        false_imp_iff, implies_true, true_and, List.flatMap_nil]
      exact eq_comm
  | cons p ps ih =>
      have hps := fun q hq => hindex q (List.mem_cons_of_mem _ hq)
      simp only [List.map_cons, allocatePositions, bind_eq_ok, pure_eq_ok, ih hps,
        allocatePosition_eq_ok, hindex p List.mem_cons_self, List.forall_mem_cons,
        List.flatMap_cons, Option.some_inj]
      constructor
      · rintro ⟨_, ⟨_, rfl, hne, hshares, hpos, rfl⟩, _, ⟨hrest, rfl⟩, rfl⟩
        exact ⟨⟨⟨hne, hshares, hpos⟩, hrest⟩, rfl⟩
      · rintro ⟨⟨⟨hne, hshares, hpos⟩, hrest⟩, rfl⟩
        exact ⟨_, ⟨_, rfl, hne, hshares, hpos, rfl⟩, _, ⟨hrest, rfl⟩, rfl⟩

/-- The sum of the positions exists when every amount is positive. -/
theorem sumPositions_eq_ok {ps : List Position} {acc total : Int64} :
    sumPositions acc ps = .ok total ↔
      (∀ p ∈ ps, 0 < p.amount) ∧ total = acc + (ps.map (·.amount)).sum := by
  induction ps generalizing acc with
  | nil =>
      simp only [sumPositions, Except.ok.injEq, List.not_mem_nil, false_imp_iff, implies_true,
        List.map_nil, List.sum_nil, Int64.add_zero, true_and]
      exact eq_comm
  | cons p ps ih =>
      simp only [sumPositions, bind_eq_ok, ensure_eq_ok, exists_const, ih, List.forall_mem_cons,
        List.map_cons, List.sum_cons, Int64.add_assoc, and_assoc]

/-- When the allocation of a list of prizes, each with its team, succeeds, and its lines. -/
theorem allocateWinners_eq_ok {reward : Int64} {ws : List Winner} :
    allocateWinners reward (prizes.map fun p => ⟨place p, amount p⟩)
        (prizes.map fun p => ⟨place p, members p⟩) = .ok ws ↔
      prizes ≠ [] ∧ (∀ p ∈ prizes, 0 < amount p) ∧ (prizes.map amount).sum = reward ∧
      (prizes.map place).Nodup ∧ (prizes.map fun p => (members p).length).sum ≤ maxWinners ∧
      (∀ p ∈ prizes, members p ≠ [] ∧
        sumShares (place p) [] 0 (members p) = .ok totalShareBasisPoints ∧
        ∀ x ∈ splitOf (amount p) (members p), 0 < x) ∧
      (ws.map (·.amount)).sum = reward ∧
      ws = prizes.flatMap fun p => linesOf (place p) (amount p) (members p) := by
  have hplaces : (prizes.map fun p => (⟨place p, members p⟩ : WinningTeam)).map (·.place)
      = prizes.map place := by
    rw [List.map_map]
    rfl
  have hamounts : (prizes.map fun p => (⟨place p, amount p⟩ : Position)).map (·.amount)
      = prizes.map amount := by
    rw [List.map_map]
    rfl
  have hlengths : (prizes.map fun p => (⟨place p, members p⟩ : WinningTeam)).map
      (·.members.length) = prizes.map fun p => (members p).length := by
    rw [List.map_map]
    rfl
  simp only [allocateWinners, bind_eq_ok, ensure_eq_ok, exists_const, pure_eq_ok,
    sumPositions_eq_ok, indexTeams_eq_ok, hplaces, hamounts, hlengths, List.length_map,
    List.not_mem_nil, false_imp_iff, implies_true, true_and, List.append_nil, Int64.zero_add,
    ne_eq, List.map_eq_nil_iff, List.forall_mem_map]
  constructor
  · rintro ⟨hne, _, ⟨hpos, rfl⟩, hreward, _, ⟨hnodup, rfl⟩, hlen, ws', hall, htotal, rfl⟩
    obtain ⟨hteams, hlines⟩ :=
      (allocatePositions_eq_ok fun p hp => find_index hnodup hp).mp hall
    exact ⟨hne, hpos, hreward, hnodup, hlen, hteams, htotal, hlines⟩
  · rintro ⟨hne, hpos, hreward, hnodup, hlen, hteams, htotal, hlines⟩
    exact ⟨hne, _, ⟨hpos, rfl⟩, hreward, _, ⟨hnodup, rfl⟩, hlen, ws,
      (allocatePositions_eq_ok fun p hp => find_index hnodup hp).mpr ⟨hteams, hlines⟩, htotal, rfl⟩

end Prizes

/-! ## The split is exact -/

theorem lowestOrdinal_lt {ms : List Member} {lowest i : ℕ} {ordinal : Int64}
    (h : lowest < i) : lowestOrdinal lowest ordinal i ms < i + ms.length := by
  induction ms generalizing lowest i ordinal with
  | nil => exact h
  | cons m ms ih =>
      rw [lowestOrdinal, List.length_cons]
      split
      · have hlt : lowestOrdinal i m.ordinal (i + 1) ms < i + 1 + ms.length :=
          ih (Nat.lt_succ_self i)
        omega
      · have hlt : lowestOrdinal lowest ordinal (i + 1) ms < i + 1 + ms.length :=
          ih (Nat.lt_succ_of_lt h)
        omega

/-- In wrapping arithmetic the split adds up to the amount, whatever the products did. -/
theorem sum_splitOf {amount : Int64} {members : List Member} (hne : members ≠ []) :
    (splitOf amount members).sum = amount := by
  unfold splitOf addRemainder
  cases members with
  | nil => exact absurd rfl hne
  | cons m ms =>
      simp only
      split
      · rename_i hzero
        have hsum := Int64.sub_add_cancel amount (floors amount (m :: ms)).sum
        rwa [hzero, Int64.zero_add] at hsum
      · have hlt : lowestOrdinal 0 m.ordinal 1 ms < (floors amount (m :: ms)).length := by
          have hindex : lowestOrdinal 0 m.ordinal 1 ms < 1 + ms.length :=
            lowestOrdinal_lt Nat.one_pos
          rw [length_floors, List.length_cons]
          omega
        rw [WrappingSum.sum_modify hlt, Int64.add_comm, Int64.sub_add_cancel]

/-- The most a floor can be: the largest product over ten thousand. -/
def maxFloor : ℤ := 922337203685478

/-- A quotient by ten thousand does not wrap; it rounds towards zero. -/
theorem toInt_div_total (z : Int64) : (z / totalShareBasisPoints).toInt = z.toInt.tdiv 10000 ∧
    -maxFloor ≤ z.toInt.tdiv 10000 ∧ z.toInt.tdiv 10000 ≤ maxFloor := by
  have hupper := z.toInt_lt
  have hlower := z.le_toInt
  have hdivisor : totalShareBasisPoints.toInt = 10000 := rfl
  rw [Int64.toInt_div, hdivisor]
  generalize z.toInt = z at hupper hlower
  have hquot : -maxFloor ≤ z.tdiv 10000 ∧ z.tdiv 10000 ≤ maxFloor := by
    unfold maxFloor
    rcases le_total 0 z with hz | hz
    · rw [Int.tdiv_eq_ediv_of_nonneg hz]
      omega
    · obtain ⟨y, rfl⟩ : ∃ y, z = -y := ⟨-z, (Int.neg_neg z).symm⟩
      rw [Int.neg_tdiv, Int.tdiv_eq_ediv_of_nonneg (by omega)]
      omega
  refine ⟨?_, hquot⟩
  unfold maxFloor at hquot
  exact Int.bmod_eq_of_le (by norm_num; omega) (by norm_num; omega)

/-- A floor is a quotient by ten thousand, so it stays far below a full word even where the
product wrapped. -/
theorem floor_le (amount : Int64) (members : List Member) :
    ∀ x ∈ floors amount members, x.toInt ≤ maxFloor := by
  intro x hx
  obtain ⟨m, -, rfl⟩ := List.mem_map.mp hx
  obtain ⟨hquot, -, hle⟩ := toInt_div_total (amount * m.shareBasisPoints)
  rwa [hquot]

/-- The amounts paid for a position add up to it exactly, when at most 25 members are paid and
every amount is positive. -/
theorem exact_splitOf {amount : Int64} {members : List Member} (hne : members ≠ [])
    (hlen : members.length ≤ maxWinners) (hamount : 0 < amount)
    (hpos : ∀ x ∈ splitOf amount members, 0 < x) :
    WrappingSum.exact (splitOf amount members) = amount.toInt := by
  -- below a full word: floors are small even where a product has wrapped
  have hlt : WrappingSum.exact (splitOf amount members) < 2 ^ 64 := by
    have hlen' : (members.length : ℤ) ≤ 25 := by exact_mod_cast hlen
    have hbound : ∀ i (f : Int64 → Int64),
        WrappingSum.exact ((floors amount members).modify i f) < 2 ^ 64 := by
      intro i f
      have h := WrappingSum.exact_modify_lt (floor_le amount members) (by decide) i f
      rw [length_floors] at h
      unfold maxFloor at h
      omega
    unfold splitOf addRemainder
    cases members with
    | nil => exact absurd rfl hne
    | cons m ms =>
        simp only
        split
        · have h := hbound 0 id
          rwa [List.modify_id] at h
        · exact hbound _ _
  -- and positive, so the sum is the one integer of its class in that range
  have hgt : 0 < WrappingSum.exact (splitOf amount members) := by
    have hsome : (splitOf amount members).map Int64.toInt ≠ [] := by
      intro hnil
      have hlength := congrArg List.length hnil
      rw [List.length_map, length_splitOf] at hlength
      exact hne (List.eq_nil_of_length_eq_zero hlength)
    apply List.sum_pos _ _ hsome
    intro y hy
    obtain ⟨x, hx, rfl⟩ := List.mem_map.mp hy
    exact Int64.lt_iff_toInt_lt.mp (hpos x hx)
  have hword : amount.toInt = (WrappingSum.exact (splitOf amount members)).bmod (2 ^ 64) := by
    rw [← WrappingSum.toInt_sum, sum_splitOf hne]
  exact (WrappingSum.eq_of_bmod hgt hlt (Int64.lt_iff_toInt_lt.mp hamount) hword).symm

end Service
