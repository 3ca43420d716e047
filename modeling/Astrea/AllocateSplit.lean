/-
# The documented split

The split that the documentation of `AllocateWinners` promises, over unbounded integers, next
to the one computed with a 64-bit product.  The post-condition cannot tell them apart: the
lowest ordinal takes up whatever the floors leave.  They agree exactly when no other member's
product leaves 64 bits.
-/
import Astrea.AllocateRules

open Guard ListBlocks

namespace Service

/-! ## The exact split -/

/-- The floor of a member's share, over unbounded integers. -/
def exactFloor (amount : Int64) (m : Member) : ℤ :=
  FloorShares.floorShare amount.toInt 10000 (fun m : Member => m.shareBasisPoints.toInt) m

/-- The amount minus the sum of the floors. -/
def exactRemainder (amount : Int64) (members : List Member) : ℤ :=
  FloorShares.remainder amount.toInt 10000 (fun m : Member => m.shareBasisPoints.toInt) members

/-- The member with the lowest ordinal of its team. -/
def IsLowest (members : List Member) (m : Member) : Prop := ∀ m' ∈ members, m.ordinal ≤ m'.ordinal

instance (members : List Member) (m : Member) : Decidable (IsLowest members m) :=
  inferInstanceAs (Decidable (∀ m' ∈ members, m.ordinal ≤ m'.ordinal))

/-- What a member of a team is to receive: its floor, and the remainder for the lowest
ordinal. -/
def exactAmount (amount : Int64) (members : List Member) (m : Member) : ℤ :=
  exactFloor amount m + if IsLowest members m then exactRemainder amount members else 0

/-- The lines of a position pay its team the exact split, and the remainder is not negative
and less than the number of members. -/
def SplitExactly (teams : List WinningTeam) (ws : List Winner) (p : Position) : Prop :=
  ∃ t ∈ teams, t.place = p.place ∧
    (ws.filter (·.place = p.place)).map (·.address) = t.members.map (·.address) ∧
    (ws.filter (·.place = p.place)).map (·.amount.toInt)
      = t.members.map (exactAmount p.amount t.members) ∧
    0 ≤ exactRemainder p.amount t.members ∧ exactRemainder p.amount t.members < t.members.length

/-- Rules 1, 2 and 6 on the inputs, in exact arithmetic. -/
structure Ruled (reward : Int64) (positions : List Position) (teams : List WinningTeam) :
    Prop where
  amounts_pos : ∀ p ∈ positions, 0 < p.amount
  total : WrappingSum.exact (positions.map (·.amount)) = reward.toInt
  covered : ∀ p ∈ positions, ∃ t ∈ teams, t.place = p.place
  assigned : ∀ t ∈ teams, ∃ p ∈ positions, p.place = t.place
  places : (teams.map (·.place)).Nodup
  shares_pos : ∀ t ∈ teams, ∀ m ∈ t.members, 0 < m.shareBasisPoints
  shares_sum : ∀ t ∈ teams, WrappingSum.exact (t.members.map (·.shareBasisPoints)) = 10000
  ordinals : ∀ t ∈ teams, (t.members.map (·.ordinal)).Nodup
  members : (teams.map (·.members.length)).sum ≤ maxWinners

/-- Every exact amount is positive. -/
def ExactlyPayable (positions : List Position) (teams : List WinningTeam) : Prop :=
  ∀ p ∈ positions, ∀ t ∈ teams, t.place = p.place →
    ∀ m ∈ t.members, 0 < exactAmount p.amount t.members m

/-- What the documentation says of an input: a returned list is the exact split, and where the
rules hold and every exact amount is positive a list is returned. -/
def Documented (reward : Int64) (positions : List Position) (teams : List WinningTeam) : Prop :=
  (∀ ws, allocateWinners reward positions teams = .ok ws →
    ∀ p ∈ positions, SplitExactly teams ws p) ∧
  (Ruled reward positions teams → ExactlyPayable positions teams →
    ∃ ws, allocateWinners reward positions teams = .ok ws)

/-- The product of an amount and a share fits in 64 bits. -/
def Fits (amount : Int64) (m : Member) : Prop :=
  amount.toInt * m.shareBasisPoints.toInt < 2 ^ 63

/-- The products of a team fit, that of its lowest ordinal apart. -/
def TeamFits (amount : Int64) (members : List Member) : Prop :=
  ∀ m ∈ members, ¬ IsLowest members m → Fits amount m

/-- No product wraps, other than those of the lowest ordinals. -/
def NoWrap (positions : List Position) (teams : List WinningTeam) : Prop :=
  ∀ p ∈ positions, ∀ t ∈ teams, t.place = p.place → TeamFits p.amount t.members

/-! ## The member with the lowest ordinal -/

/-- The index of the lowest ordinal, when `lowest` is that of the members before. -/
theorem lowestOrdinal_spec (pre ms : List Member) {lowest : ℕ} {m₀ : Member}
    (hlowest : pre[lowest]? = some m₀) (hle : IsLowest pre m₀) :
    ∃ m, (pre ++ ms)[lowestOrdinal lowest m₀.ordinal pre.length ms]? = some m ∧
      IsLowest (pre ++ ms) m := by
  induction ms generalizing pre lowest m₀ with
  | nil =>
      rw [List.append_nil]
      exact ⟨m₀, hlowest, hle⟩
  | cons m ms ih =>
      rw [lowestOrdinal, List.append_cons]
      have hlength : pre.length + 1 = (pre ++ [m]).length := by
        rw [List.length_append, List.length_singleton]
      rw [hlength]
      split
      · rename_i hlt
        apply ih
        · rw [List.getElem?_append_right (le_refl _), Nat.sub_self]
          rfl
        · intro m' hm'
          rcases List.mem_append.mp hm' with hm' | hm'
          · exact Int64.le_of_lt (Int64.lt_of_lt_of_le hlt (hle m' hm'))
          · rw [List.mem_singleton.mp hm']
            exact Int64.le_refl _
      · rename_i hnot
        apply ih
        · rw [List.getElem?_append_left (List.getElem?_eq_some_iff.mp hlowest).1]
          exact hlowest
        · intro m' hm'
          rcases List.mem_append.mp hm' with hm' | hm'
          · exact hle m' hm'
          · rw [List.mem_singleton.mp hm']
            exact Int64.not_lt.mp hnot

/-- Every amount of a split is the member's floor, that of a lowest ordinal apart. -/
theorem splitOf_lowest (amount : Int64) {members : List Member} (hne : members ≠ []) :
    ∃ l₁ m₀ l₂ x₀, members = l₁ ++ m₀ :: l₂ ∧ IsLowest members m₀ ∧
      splitOf amount members = floors amount l₁ ++ x₀ :: floors amount l₂ := by
  cases members with
  | nil => exact absurd rfl hne
  | cons m ms =>
      obtain ⟨m₀, hget, hlowest⟩ :=
        lowestOrdinal_spec [m] ms (rfl : [m][0]? = some m) (by
          intro m' hm'
          rw [List.mem_singleton.mp hm']
          exact Int64.le_refl _)
      rw [List.singleton_append] at hget hlowest
      obtain ⟨l₁, l₂, hsplit, hindex⟩ := split_of_getElem? hget
      have hfloors : floors amount (m :: ms) = floors amount l₁
          ++ (amount * m₀.shareBasisPoints / totalShareBasisPoints) :: floors amount l₂ := by
        rw [hsplit, floors, List.map_append, List.map_cons, floors, floors]
      have hmodify : ∀ f, (floors amount (m :: ms)).modify (lowestOrdinal 0 m.ordinal 1 ms) f
          = floors amount l₁
            ++ f (amount * m₀.shareBasisPoints / totalShareBasisPoints) :: floors amount l₂ := by
        intro f
        rw [List.length_singleton] at hindex
        rw [hfloors, ← hindex, ← length_floors amount l₁, modify_length]
      unfold splitOf addRemainder
      simp only
      split
      · exact ⟨l₁, m₀, l₂, _, hsplit, hlowest, hfloors⟩
      · exact ⟨l₁, m₀, l₂, _, hsplit, hlowest, hmodify _⟩

/-! ## Floors -/

/-- A computed floor is the exact one when the product fits, and only then. -/
theorem toInt_floor_iff {amount : Int64} {m : Member} (hamount : 0 < amount)
    (hshare : 0 < m.shareBasisPoints) :
    (amount * m.shareBasisPoints / totalShareBasisPoints).toInt = exactFloor amount m ↔
      Fits amount m := by
  rw [(toInt_div_total _).1, Int64.toInt_mul, exactFloor, FloorShares.floorShare, Fits]
  have hpos : 0 < amount.toInt * m.shareBasisPoints.toInt :=
    Int.mul_pos (Int64.lt_iff_toInt_lt.mp hamount) (Int64.lt_iff_toInt_lt.mp hshare)
  generalize amount.toInt * m.shareBasisPoints.toInt = z at hpos
  constructor
  · intro heq
    by_contra hnot
    -- a product below `2^64` wraps to a negative one, a larger one has too large a floor
    have hle := (toInt_div_total (Int64.ofInt z)).2.2
    rw [Int64.toInt_ofInt, heq] at hle
    unfold maxFloor at hle
    have hwrapped : z.bmod (2 ^ 64) = z - 2 ^ 64 := by
      have hmod : z % ((2 ^ 64 : ℕ) : ℤ) = z := Int.emod_eq_of_lt (by omega) (by norm_num; omega)
      rw [Int.bmod, hmod, if_neg (by norm_num; omega)]
      norm_num
    rw [hwrapped] at heq
    obtain ⟨y, hy⟩ : ∃ y, z - 2 ^ 64 = -y := ⟨2 ^ 64 - z, by omega⟩
    rw [hy, Int.neg_tdiv, Int.tdiv_eq_ediv_of_nonneg (by omega)] at heq
    omega
  · intro hfits
    rw [Int.bmod_eq_of_le (by norm_num; omega) (by norm_num; omega),
      Int.tdiv_eq_ediv_of_nonneg (le_of_lt hpos)]

theorem map_toInt_floors_iff {amount : Int64} {l : List Member} (hamount : 0 < amount)
    (hshares : ∀ m ∈ l, 0 < m.shareBasisPoints) :
    (floors amount l).map Int64.toInt = l.map (exactFloor amount) ↔
      ∀ m ∈ l, Fits amount m := by
  rw [floors, List.map_map, List.map_inj_left]
  exact forall₂_congr fun m hm => toInt_floor_iff hamount (hshares m hm)

/-! ## The split of a team -/

section Team

variable {amount : Int64} {members l₁ l₂ : List Member} {m₀ : Member}

/-- Only one member has the lowest ordinal. -/
theorem not_isLowest (hsplit : members = l₁ ++ m₀ :: l₂)
    (hordinals : (members.map (·.ordinal)).Nodup) (hlowest : IsLowest members m₀) {m : Member}
    (hm : m ∈ l₁ ++ l₂) : ¬ IsLowest members m := by
  intro hm'
  subst hsplit
  have hmem : m ∈ l₁ ++ m₀ :: l₂ := by
    rw [List.mem_append, List.mem_cons]
    rcases List.mem_append.mp hm with hm | hm
    · exact .inl hm
    · exact .inr (.inr hm)
  have heq : m.ordinal = m₀.ordinal :=
    Int64.le_antisymm (hm' m₀ (List.mem_append_cons_self)) (hlowest m hmem)
  rw [List.perm_middle.map _ |>.nodup_iff, List.map_cons, List.nodup_cons] at hordinals
  exact hordinals.1 (heq ▸ List.mem_map_of_mem hm)

/-- The exact split, cut at the lowest ordinal. -/
theorem map_exactAmount (amount : Int64) (hsplit : members = l₁ ++ m₀ :: l₂)
    (hordinals : (members.map (·.ordinal)).Nodup) (hlowest : IsLowest members m₀) :
    members.map (exactAmount amount members) = l₁.map (exactFloor amount)
      ++ (amount.toInt - (l₁.map (exactFloor amount)).sum - (l₂.map (exactFloor amount)).sum)
        :: l₂.map (exactFloor amount) := by
  have hrest : ∀ m ∈ l₁ ++ l₂, exactAmount amount members m = exactFloor amount m := by
    intro m hm
    rw [exactAmount, if_neg (not_isLowest hsplit hordinals hlowest hm), add_zero]
  have hfirst : exactAmount amount members m₀ = amount.toInt
      - (l₁.map (exactFloor amount)).sum - (l₂.map (exactFloor amount)).sum := by
    have hsum : (members.map (exactFloor amount)).sum = (l₁.map (exactFloor amount)).sum
        + (exactFloor amount m₀ + (l₂.map (exactFloor amount)).sum) := by
      rw [hsplit, List.map_append, List.sum_append, List.map_cons, List.sum_cons]
    have hremainder : exactRemainder amount members
        = amount.toInt - (members.map (exactFloor amount)).sum := rfl
    rw [exactAmount, if_pos hlowest, hremainder, hsum]
    ring
  conv_lhs => rw [hsplit, List.map_append, List.map_cons, ← hsplit]
  rw [hfirst, List.map_congr_left fun m hm => hrest m (List.mem_append_left _ hm),
    List.map_congr_left fun m hm => hrest m (List.mem_append_right _ hm)]

theorem teamFits_iff (hsplit : members = l₁ ++ m₀ :: l₂)
    (hordinals : (members.map (·.ordinal)).Nodup) (hlowest : IsLowest members m₀) :
    TeamFits amount members ↔ (∀ m ∈ l₁, Fits amount m) ∧ ∀ m ∈ l₂, Fits amount m := by
  constructor
  · intro h
    have hall : ∀ m ∈ l₁ ++ l₂, Fits amount m := by
      intro m hm
      refine h m ?_ (not_isLowest hsplit hordinals hlowest hm)
      rw [hsplit, List.mem_append, List.mem_cons]
      rcases List.mem_append.mp hm with hm | hm
      · exact .inl hm
      · exact .inr (.inr hm)
    exact ⟨fun m hm => hall m (List.mem_append_left _ hm),
      fun m hm => hall m (List.mem_append_right _ hm)⟩
  · rintro ⟨h₁, h₂⟩ m hm hnot
    rw [hsplit] at hm
    rcases List.mem_append.mp hm with hm | hm
    · exact h₁ m hm
    · rcases List.mem_cons.mp hm with rfl | hm
      · exact absurd hlowest hnot
      · exact h₂ m hm

/-- An exact floor is not negative. -/
theorem exactFloor_nonneg (hamount : 0 < amount) {m : Member} (hshare : 0 < m.shareBasisPoints) :
    0 ≤ exactFloor amount m :=
  Int.ediv_nonneg (Int.mul_nonneg (le_of_lt (Int64.lt_iff_toInt_lt.mp hamount))
    (le_of_lt (Int64.lt_iff_toInt_lt.mp hshare))) (by decide)

theorem sum_exactFloor_nonneg (hamount : 0 < amount) {l : List Member}
    (hshares : ∀ m ∈ l, 0 < m.shareBasisPoints) : 0 ≤ (l.map (exactFloor amount)).sum := by
  apply List.sum_nonneg
  intro x hx
  obtain ⟨m, hm, rfl⟩ := List.mem_map.mp hx
  exact exactFloor_nonneg hamount (hshares m hm)

/-- A split that adds up is the exact one when the products fit, and only then. -/
theorem map_splitOf_iff (hne : members ≠ []) (hamount : 0 < amount)
    (hshares : ∀ m ∈ members, 0 < m.shareBasisPoints)
    (hordinals : (members.map (·.ordinal)).Nodup)
    (hexact : WrappingSum.exact (splitOf amount members) = amount.toInt) :
    (splitOf amount members).map Int64.toInt = members.map (exactAmount amount members) ↔
      TeamFits amount members := by
  obtain ⟨l₁, m₀, l₂, x₀, hsplit, hlowest, hamounts⟩ := splitOf_lowest amount hne
  have hshares₁ : ∀ m ∈ l₁, 0 < m.shareBasisPoints := fun m hm =>
    hshares m (hsplit ▸ List.mem_append_left _ hm)
  have hshares₂ : ∀ m ∈ l₂, 0 < m.shareBasisPoints := fun m hm =>
    hshares m (hsplit ▸ List.mem_append_right _ (List.mem_cons_of_mem _ hm))
  rw [hamounts, WrappingSum.exact_append, WrappingSum.exact_cons, WrappingSum.exact,
    WrappingSum.exact] at hexact
  rw [teamFits_iff hsplit hordinals hlowest, map_exactAmount amount hsplit hordinals hlowest, hamounts,
    List.map_append, List.map_cons, ← map_toInt_floors_iff hamount hshares₁,
    ← map_toInt_floors_iff hamount hshares₂]
  constructor
  · intro heq
    obtain ⟨h₁, hrest⟩ := List.append_inj heq (by simp only [List.length_map, length_floors])
    exact ⟨h₁, (List.cons.inj hrest).2⟩
  · rintro ⟨h₁, h₂⟩
    rw [h₁, h₂] at hexact ⊢
    rw [show x₀.toInt = amount.toInt - (l₁.map (exactFloor amount)).sum
      - (l₂.map (exactFloor amount)).sum by omega]

/-- Where a split is payable and its products fit, the shares add up exactly. -/
theorem exact_shares (hpay : PayableTeam amount members) (hlen : members.length ≤ maxWinners)
    (hamount : 0 < amount) (hfits : TeamFits amount members) :
    WrappingSum.exact (members.map (·.shareBasisPoints)) = 10000 := by
  have hexact := exact_splitOf hpay.nonempty hlen hamount hpay.amounts_pos
  have hword := hpay.shares_sum
  obtain ⟨l₁, m₀, l₂, x₀, hsplit, hlowest, hamounts⟩ :=
    splitOf_lowest amount hpay.nonempty
  obtain ⟨hfits₁, hfits₂⟩ := (teamFits_iff hsplit hpay.ordinals hlowest).mp hfits
  -- no floor exceeds the amount, so no share but the lowest ordinal's reaches 20000
  have hsmall : ∀ l : List Member, floors amount l ⊆ splitOf amount members →
      (∀ m ∈ l, m ∈ members ∧ Fits amount m) →
      (l.map fun m => m.shareBasisPoints.toInt).sum ≤ l.length * 20000 := by
    intro l hsub hl
    refine (List.sum_le_card_nsmul _ 20000 ?_).trans (by simp)
    intro x hx
    obtain ⟨m, hm, rfl⟩ := List.mem_map.mp hx
    have hmem : amount * m.shareBasisPoints / totalShareBasisPoints ∈ splitOf amount members :=
      hsub (List.mem_map_of_mem hm)
    have hle : (amount * m.shareBasisPoints / totalShareBasisPoints).toInt ≤ amount.toInt := by
      rw [← hexact]
      refine List.single_le_sum ?_ _ (List.mem_map_of_mem hmem)
      intro y hy
      obtain ⟨z, hz, rfl⟩ := List.mem_map.mp hy
      exact le_of_lt (Int64.lt_iff_toInt_lt.mp (hpay.amounts_pos z hz))
    rw [(toInt_floor_iff hamount (hpay.shares_pos m (hl m hm).1)).mpr (hl m hm).2, exactFloor,
      FloorShares.floorShare] at hle
    have hpos := Int64.lt_iff_toInt_lt.mp hamount
    by_contra hge
    have hprod : amount.toInt * 20000 ≤ amount.toInt * m.shareBasisPoints.toInt :=
      Int.mul_le_mul_of_nonneg_left (by omega) (le_of_lt hpos)
    rw [Int64.toInt_zero] at hpos
    omega
  have h₁ := hsmall l₁ (hamounts ▸ List.subset_append_left _ _) fun m hm =>
    ⟨hsplit ▸ List.mem_append_left _ hm, hfits₁ m hm⟩
  have h₂ := hsmall l₂ (hamounts ▸ fun x hx => List.mem_append_right _ (List.mem_cons_of_mem _ hx))
    fun m hm => ⟨hsplit ▸ List.mem_append_right _ (List.mem_cons_of_mem _ hm), hfits₂ m hm⟩
  have hlength : l₁.length + (l₂.length + 1) ≤ 25 := by
    rw [hsplit, List.length_append, List.length_cons] at hlen
    exact hlen
  have hsum : WrappingSum.exact (members.map (·.shareBasisPoints))
      = (l₁.map fun m => m.shareBasisPoints.toInt).sum + (m₀.shareBasisPoints.toInt
        + (l₂.map fun m => m.shareBasisPoints.toInt).sum) := by
    rw [hsplit, WrappingSum.exact, List.map_map, List.map_append, List.sum_append, List.map_cons,
      List.sum_cons]
    rfl
  have hfirst := m₀.shareBasisPoints.toInt_lt
  have hpos : 0 < WrappingSum.exact (members.map (·.shareBasisPoints)) := by
    apply List.sum_pos
    · intro x hx
      rw [List.map_map] at hx
      obtain ⟨m, hm, rfl⟩ := List.mem_map.mp hx
      exact Int64.lt_iff_toInt_lt.mp (hpay.shares_pos m hm)
    · simpa using hpay.nonempty
  have hresidue := WrappingSum.toInt_sum (members.map (·.shareBasisPoints))
  rw [hword] at hresidue
  exact (WrappingSum.eq_of_bmod hpos (by omega) (by decide) hresidue).symm

/-- Where the shares add up exactly and the products fit, positive exact amounts are paid. -/
theorem payableTeam_of_exact (hamount : 0 < amount)
    (hshares : ∀ m ∈ members, 0 < m.shareBasisPoints)
    (hordinals : (members.map (·.ordinal)).Nodup)
    (hsum : WrappingSum.exact (members.map (·.shareBasisPoints)) = 10000)
    (hpos : ∀ m ∈ members, 0 < exactAmount amount members m) (hfits : TeamFits amount members) :
    PayableTeam amount members := by
  have hne : members ≠ [] := by
    rintro rfl
    exact absurd hsum (by decide)
  refine ⟨hne, hshares, hordinals, ?_, ?_⟩
  · rw [← Int64.toInt_inj, WrappingSum.toInt_sum, hsum]
    decide
  · obtain ⟨l₁, m₀, l₂, x₀, hsplit, hlowest, hamounts⟩ := splitOf_lowest amount hne
    obtain ⟨hfits₁, hfits₂⟩ := (teamFits_iff hsplit hordinals hlowest).mp hfits
    have hshares₁ : ∀ m ∈ l₁, 0 < m.shareBasisPoints := fun m hm =>
      hshares m (hsplit ▸ List.mem_append_left _ hm)
    have hshares₂ : ∀ m ∈ l₂, 0 < m.shareBasisPoints := fun m hm =>
      hshares m (hsplit ▸ List.mem_append_right _ (List.mem_cons_of_mem _ hm))
    have hword := congrArg Int64.toInt (@sum_splitOf amount _ hne)
    rw [WrappingSum.toInt_sum, hamounts, WrappingSum.exact_append, WrappingSum.exact_cons,
      WrappingSum.exact, WrappingSum.exact, (map_toInt_floors_iff hamount hshares₁).mpr hfits₁,
      (map_toInt_floors_iff hamount hshares₂).mpr hfits₂] at hword
    have hmap := map_exactAmount amount hsplit hordinals hlowest
    have hfirst : 0 < amount.toInt - (l₁.map (exactFloor amount)).sum
        - (l₂.map (exactFloor amount)).sum := by
      obtain ⟨m, hm, heq⟩ := List.mem_map.mp (hmap ▸ List.mem_append_cons_self)
      exact heq ▸ hpos m hm
    have hnonneg₁ := sum_exactFloor_nonneg hamount hshares₁
    have hnonneg₂ := sum_exactFloor_nonneg hamount hshares₂
    have hlower := x₀.le_toInt
    have hupper := x₀.toInt_lt
    have hx₀ : x₀.toInt = amount.toInt - (l₁.map (exactFloor amount)).sum
        - (l₂.map (exactFloor amount)).sum := by
      have hlt := amount.toInt_lt
      rw [Int.bmod] at hword
      split at hword <;> omega
    have heq : (splitOf amount members).map Int64.toInt
        = members.map (exactAmount amount members) := by
      rw [hmap, hamounts, List.map_append, List.map_cons, hx₀,
        (map_toInt_floors_iff hamount hshares₁).mpr hfits₁,
        (map_toInt_floors_iff hamount hshares₂).mpr hfits₂]
    intro x hx
    obtain ⟨m, hm, hxm⟩ := List.mem_map.mp (heq ▸ List.mem_map_of_mem (f := Int64.toInt) hx)
    rw [Int64.lt_iff_toInt_lt, ← hxm]
    exact hpos m hm

end Team

/-! ## The split of every position -/

section Positions

variable {reward : Int64} {positions : List Position} {teams : List WinningTeam}

/-- The lines of a position among all. -/
theorem filter_lines {ws : List Winner} (h : Allocated reward positions teams ws)
    (hplaces : (positions.map (·.place)).Nodup) {p : Position} (hp : p ∈ positions) :
    ws.filter (·.place = p.place) = linesOf p.place p.amount (membersAt teams p.place) := by
  have hplace : ∀ q : Position, ∀ w ∈ linesOf q.place q.amount (membersAt teams q.place),
      w.place = q.place := by
    intro q w hw
    obtain ⟨e, -, rfl⟩ := List.mem_map.mp hw
    rfl
  rw [h.lines]
  apply filter_flatMap_eq (hplaces.of_map _) hp
  · intro w hw
    exact decide_eq_true (hplace p w hw)
  · intro q hq hne w hw
    refine decide_eq_false fun heq => hne ?_
    exact List.inj_on_of_nodup_map hplaces hq hp ((hplace q w hw).symm.trans heq)

/-- A position's lines are the exact split when its products fit, and only then. -/
theorem splitExactly_iff {ws : List Winner} (h : Allocated reward positions teams ws)
    (hplaces : (positions.map (·.place)).Nodup) {p : Position} (hp : p ∈ positions)
    {t : WinningTeam} (ht : t ∈ teams) (hplace : t.place = p.place) :
    SplitExactly teams ws p ↔ TeamFits p.amount t.members := by
  have hteam : ∀ t' ∈ teams, t'.place = p.place → t' = t := fun t' ht' heq =>
    List.inj_on_of_nodup_map h.places ht' ht (heq.trans hplace.symm)
  obtain ⟨t', ht', heq, hpay⟩ := h.payable p hp
  obtain rfl := hteam t' ht' heq
  have hmembers : membersAt teams p.place = t'.members := by
    rw [membersAt, ← heq, find_team h.places ht' fun _ => Iff.rfl]
  have hlen : t'.members.length ≤ maxWinners :=
    (List.single_le_sum (fun _ _ => Nat.zero_le _) _
      (List.mem_map_of_mem (f := fun t : WinningTeam => t.members.length) ht')).trans h.members
  have hamount := h.amounts_pos p hp
  have hlines := filter_lines h hplaces hp
  rw [hmembers] at hlines
  have haddresses : (ws.filter (·.place = p.place)).map (·.address)
      = t'.members.map (·.address) := by
    have hpayees := congrArg (List.map Prod.snd) (payees_linesOf p.place p.amount t'.members)
    rw [List.map_map, List.map_map] at hpayees
    rw [hlines]
    exact hpayees
  have hamounts : (ws.filter (·.place = p.place)).map (·.amount.toInt)
      = (splitOf p.amount t'.members).map Int64.toInt := by
    rw [hlines, ← amounts_linesOf p.place, List.map_map]
    rfl
  rw [← map_splitOf_iff hpay.nonempty hamount hpay.shares_pos hpay.ordinals
    (exact_splitOf hpay.nonempty hlen hamount hpay.amounts_pos), ← hamounts]
  constructor
  · rintro ⟨t, ht, htp, -, hsplit, -⟩
    rwa [hteam t ht htp] at hsplit
  · intro hsplit
    refine ⟨t', ht', heq, haddresses, hsplit, ?_⟩
    rw [hamounts, map_splitOf_iff hpay.nonempty hamount hpay.shares_pos hpay.ordinals
      (exact_splitOf hpay.nonempty hlen hamount hpay.amounts_pos)] at hsplit
    have hshares := exact_shares hpay hlen hamount hsplit
    rw [WrappingSum.exact, List.map_map] at hshares
    exact FloorShares.remainder_bounds (by decide) hshares

/-- Rules, payable exact amounts and products that fit: a list is returned. -/
theorem allocated_of_ruled (hplaces : (positions.map (·.place)).Nodup)
    (hrules : Ruled reward positions teams) (hpos : ExactlyPayable positions teams)
    (hne : positions ≠ []) (hfits : NoWrap positions teams) :
    ∃ ws, allocateWinners reward positions teams = .ok ws := by
  have hcount : (teams.map (·.place)).Perm (positions.map (·.place)) := by
    rw [List.perm_ext_iff_of_nodup hrules.places hplaces]
    intro place
    constructor
    · intro hmem
      obtain ⟨t, ht, rfl⟩ := List.mem_map.mp hmem
      obtain ⟨p, hp, heq⟩ := hrules.assigned t ht
      exact heq ▸ List.mem_map_of_mem hp
    · intro hmem
      obtain ⟨p, hp, rfl⟩ := List.mem_map.mp hmem
      obtain ⟨t, ht, heq⟩ := hrules.covered p hp
      exact heq ▸ List.mem_map_of_mem ht
  refine ⟨_, allocateWinners_iff_allocated.mpr
    ⟨hne, hrules.amounts_pos, ?_, ?_, hrules.places, hrules.members, ?_, rfl⟩⟩
  · rw [← Int64.toInt_inj, WrappingSum.toInt_sum, hrules.total]
    have hlower := reward.le_toInt
    have hupper := reward.toInt_lt
    exact Int.bmod_eq_of_le (by norm_num; omega) (by norm_num; omega)
  · have hlength := hcount.length_eq
    rwa [List.length_map, List.length_map] at hlength
  · intro p hp
    obtain ⟨t, ht, hplace⟩ := hrules.covered p hp
    exact ⟨t, ht, hplace, payableTeam_of_exact (hrules.amounts_pos p hp) (hrules.shares_pos t ht)
      (hrules.ordinals t ht) (hrules.shares_sum t ht) (hpos p hp t ht hplace)
      (hfits p hp t ht hplace)⟩

/-- On distinct places, where a list is returned or the rules ask for one, the documentation is
right exactly when there is a position and no member's product wraps, those of the lowest
ordinals apart. -/
theorem allocateWinners_split (hplaces : (positions.map (·.place)).Nodup)
    (hinput : (∃ ws, allocateWinners reward positions teams = .ok ws) ∨
      Ruled reward positions teams ∧ ExactlyPayable positions teams) :
    Documented reward positions teams ↔ positions ≠ [] ∧ NoWrap positions teams := by
  constructor
  · rintro ⟨hsplit, hlist⟩
    obtain ⟨ws, hws⟩ : ∃ ws, allocateWinners reward positions teams = .ok ws := by
      rcases hinput with hws | ⟨hrules, hpos⟩
      · exact hws
      · exact hlist hrules hpos
    have h := allocateWinners_iff_allocated.mp hws
    exact ⟨h.nonempty, fun p hp t ht hplace =>
      (splitExactly_iff h hplaces hp ht hplace).mp (hsplit ws hws p hp)⟩
  · rintro ⟨hne, hfits⟩
    refine ⟨fun ws hws p hp => ?_, fun hrules hpos =>
      allocated_of_ruled hplaces hrules hpos hne hfits⟩
    have h := allocateWinners_iff_allocated.mp hws
    obtain ⟨t, ht, hplace, -⟩ := h.payable p hp
    exact (splitExactly_iff h hplaces hp ht hplace).mpr (hfits p hp t ht hplace)

end Positions

/-- A team whose lowest ordinal does not come first. -/
theorem allocateWinners_split_twoTeams :
    Documented 151 [⟨2, 50⟩, ⟨1, 101⟩] [Sample.firstTeam, Sample.secondTeam] := by
  refine (allocateWinners_split (by decide) (.inl ⟨_, rfl⟩)).mpr ⟨by decide, ?_⟩
  intro p hp t ht _ m hm _
  have hsmall : ∀ p ∈ ([⟨2, 50⟩, ⟨1, 101⟩] : List Position),
      ∀ t ∈ [Sample.firstTeam, Sample.secondTeam], ∀ m ∈ t.members,
        p.amount.toInt * m.shareBasisPoints.toInt < 2 ^ 63 := by decide
  exact hsmall p hp t ht m hm

namespace Sample

/-- A team that shares a prize equally. -/
def equalTeam : WinningTeam := ⟨1, [⟨.account 1, 0, 5000⟩, ⟨.account 2, 1, 5000⟩]⟩

end Sample

/-- A prize of 400 million USDC in equal parts: the second product wraps, and the list that is
returned pays 384 and 16 million. -/
theorem split_wrapped :
    allocateWinners 4000000000000000 [⟨1, 4000000000000000⟩] [Sample.equalTeam]
        = .ok [⟨1, 3844674407370956, .account 1⟩, ⟨1, 155325592629044, .account 2⟩] ∧
      ¬ Documented 4000000000000000 [⟨1, 4000000000000000⟩] [Sample.equalTeam] := by
  have hlines : allocateWinners 4000000000000000 [⟨1, 4000000000000000⟩] [Sample.equalTeam]
      = .ok [⟨1, 3844674407370956, .account 1⟩, ⟨1, 155325592629044, .account 2⟩] := by decide
  refine ⟨hlines, fun h => ?_⟩
  obtain ⟨t, ht, -, -, hamounts, -⟩ := h.1 _ hlines _ List.mem_cons_self
  rw [List.mem_singleton.mp ht] at hamounts
  exact absurd hamounts (by decide)

end Service
