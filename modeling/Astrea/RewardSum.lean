/-
# One reward from one prize list

Three places add up the prizes of an event: the creation and the release in `int64`, which
wraps, and the fund page in unbounded integers.  They come to one number exactly when the sum
of the prizes in stroops fits an `int64`; no bound on the number of prizes keeps it there.
-/
import Astrea.DraftPrizes
import Astrea.ReleaseAllocation

open Guard

namespace Service

/-! ## The fund page -/

/-- How `sumUsdcAmounts` throws. -/
inductive SumError where
  | notUsdcAmount (raw : JsString)
  deriving DecidableEq

/-- The sum of the amounts, from `acc` on. -/
def sumUsdcAmountsFrom (acc : ℕ) : List JsString → Except SumError ℕ
  | [] => .ok acc
  | a :: rest => do
      let v ← expect (parseUsdcAmount a) (.notUsdcAmount a)
      sumUsdcAmountsFrom (acc + v) rest

def sumUsdcAmounts (amounts : List JsString) : Except SumError ℕ := sumUsdcAmountsFrom 0 amounts

/-- A byte text as a JavaScript string. -/
def jsOf (s : GoString) : JsString := s.map UInt8.toUInt16

/-- `raw` is a plain spelling of a decimal of `n` units in the last place: digits, and behind a
point one to seven more. -/
def Spells (raw : JsString) (n : ℕ) : Prop :=
  ∃ whole frac, whole ≠ [] ∧ isDigits whole = true ∧ isDigits frac = true ∧ frac.length ≤ 7 ∧
    raw = jsOf whole ++ (if frac = [] then [] else 46 :: jsOf frac) ∧
    digitsValue (stroopsDigits whole frac) = n

/-- Digits have one value in both languages. -/
theorem bigInt_jsOf (s : GoString) : bigInt (jsOf s) = digitsValue s := by
  rw [bigInt, jsOf, List.foldl_map, digitsValue]
  rfl

theorem isJsDigit_toUInt16 (c : UInt8) : isJsDigit c.toUInt16 = isDigit c := by
  simp [isJsDigit, isDigit, UInt16.le_iff_toNat_le, UInt8.le_iff_toNat_le]

/-- The digits of a text are digits on the page, and no spaces. -/
theorem isJsDigit_of_mem {s : GoString} (hs : isDigits s = true) {c : UInt16}
    (hc : c ∈ jsOf s) : isJsDigit c = true := by
  obtain ⟨b, hb, rfl⟩ := List.mem_map.mp hc
  rw [isJsDigit_toUInt16]
  exact List.all_eq_true.mp hs b hb

theorem not_isJsSpace_digit {c : UInt16} (hc : isJsDigit c = true) : isJsSpace c = false := by
  simp only [isJsDigit, Bool.and_eq_true, decide_eq_true_eq, UInt16.le_iff_toNat_le] at hc
  obtain ⟨hlow, hhigh⟩ := hc
  simp [isJsSpace, UInt16.le_iff_toNat_le, ← UInt16.toNat_inj] at hlow hhigh ⊢
  omega

/-- A text without spaces is not trimmed. -/
theorem trim_eq_self {raw : JsString} (h : ∀ c ∈ raw, isJsSpace c = false) : trim raw = raw := by
  have hdrop : ∀ s : JsString, (∀ c ∈ s, isJsSpace c = false) → s.dropWhile isJsSpace = s := by
    intro s hs
    cases s with
    | nil => rfl
    | cons c s => exact List.dropWhile_cons_of_neg (by simpa using hs c List.mem_cons_self)
  rw [trim, hdrop raw h, hdrop _ fun c hc => h c (List.mem_reverse.mp hc), List.reverse_reverse]

/-- What the page's pattern captures of a plain spelling. -/
theorem matchDecimal_spelled {whole frac : GoString} (hne : whole ≠ [])
    (hwhole : isDigits whole = true) (hfrac : isDigits frac = true) (hplaces : frac.length ≤ 7) :
    matchDecimal (jsOf whole ++ (if frac = [] then [] else 46 :: jsOf frac))
      = some (jsOf whole, jsOf frac) := by
  have hdigits := fun (c : UInt16) (hc : c ∈ jsOf whole) => isJsDigit_of_mem hwhole hc
  have hjs : ∀ {s : GoString}, s ≠ [] → jsOf s ≠ [] := fun hs => by
    rw [jsOf, Ne, List.map_eq_nil_iff]
    exact hs
  by_cases hnil : frac = []
  · subst hnil
    rw [if_pos rfl, List.append_nil, matchDecimal, List.takeWhile_eq_self_iff.mpr hdigits,
      List.dropWhile_eq_nil_iff.mpr hdigits]
    exact if_neg (hjs hne)
  · have htake : (jsOf whole ++ 46 :: jsOf frac).takeWhile isJsDigit = jsOf whole := by
      rw [List.takeWhile_append_of_pos hdigits, List.takeWhile_cons_of_neg (by decide),
        List.append_nil]
    have hdrop : (jsOf whole ++ 46 :: jsOf frac).dropWhile isJsDigit = 46 :: jsOf frac := by
      rw [List.dropWhile_append_of_pos hdigits, List.dropWhile_cons_of_neg (by decide)]
    rw [if_neg hnil, matchDecimal, htake, hdrop]
    refine if_pos ⟨hjs hne, rfl, hjs hnil, ?_, ?_⟩
    · rw [jsOf, List.length_map]
      exact hplaces
    · exact List.all_eq_true.mpr fun c hc => isJsDigit_of_mem hfrac hc

/-- A plain spelling has no spaces. -/
theorem Spells.not_isJsSpace {raw : JsString} {n : ℕ} (h : Spells raw n) {c : UInt16}
    (hc : c ∈ raw) : isJsSpace c = false := by
  obtain ⟨whole, frac, -, hwhole, hfrac, -, rfl, -⟩ := h
  rcases List.mem_append.mp hc with hc | hc
  · exact not_isJsSpace_digit (isJsDigit_of_mem hwhole hc)
  · split at hc
    · exact absurd hc List.not_mem_nil
    · rcases List.mem_cons.mp hc with rfl | hc
      · decide
      · exact not_isJsSpace_digit (isJsDigit_of_mem hfrac hc)

theorem Spells.ne_nil {s : JsString} {n : ℕ} (h : Spells s n) : s ≠ [] := by
  obtain ⟨whole, frac, hne, -, -, -, rfl, -⟩ := h
  intro hnil
  exact hne (List.map_eq_nil_iff.mp (List.append_eq_nil_iff.mp hnil).1)

/-- A spelled amount has no space around it. -/
theorem Spells.trim_eq {raw : JsString} {n : ℕ} (h : Spells raw n) : trim raw = raw :=
  trim_eq_self fun _ hc => h.not_isJsSpace hc

/-- The digits of a plain spelling, the fraction padded to seven places, denote its number. -/
theorem bigInt_spelled (whole : GoString) {frac : GoString} (hplaces : frac.length ≤ 7) :
    bigInt (jsOf whole) * 10 ^ 7
        + bigInt (jsOf frac ++ List.replicate (7 - (jsOf frac).length) 48)
      = digitsValue (stroopsDigits whole frac) := by
  have hzeros : List.replicate (7 - (jsOf frac).length) 48
      = jsOf (List.replicate (7 - frac.length) 48) := by
    rw [jsOf, jsOf, List.map_replicate, List.length_map]
    rfl
  have hlen : (frac ++ List.replicate (7 - frac.length) 48).length = 7 := by
    rw [List.length_append, List.length_replicate, Nat.add_sub_cancel' hplaces]
  rw [stroopsDigits, List.append_assoc, digitsValue_append, hlen, bigInt_jsOf, hzeros,
    ← bigInt_jsOf (frac ++ _), jsOf, jsOf, jsOf, List.map_append]

/-- The page reads a plain spelling as the number it denotes, when that is positive. -/
theorem parseUsdcAmount_plain {raw : JsString} {n : ℕ} (h : Spells raw n) :
    parseUsdcAmount raw = if 0 < n then some n else none := by
  have htrim := h.trim_eq
  obtain ⟨whole, frac, hne, hwhole, hfrac, hplaces, rfl, rfl⟩ := h
  have hvalue : bigInt (jsOf whole) * 10 ^ 7 + (if jsOf frac = [] then 0
      else bigInt (jsOf frac ++ List.replicate (7 - (jsOf frac).length) 48))
      = digitsValue (stroopsDigits whole frac) := by
    rw [← bigInt_spelled whole hplaces]
    congr 1
    split
    · rename_i hnil
      rw [hnil]
      rfl
    · rfl
  rw [parseUsdcAmount, htrim, matchDecimal_spelled hne hwhole hfrac hplaces, Option.bind_eq_bind,
    Option.bind_some]
  dsimp only
  rw [hvalue]

/-- A spelled amount above zero is parsed as what it spells. -/
theorem parseUsdcAmount_spells {raw : JsString} {n : ℕ} (h : Spells raw n) (hpos : 0 < n) :
    parseUsdcAmount raw = some n := by
  rw [parseUsdcAmount_plain h, if_pos hpos]

/-- The page's sum is exact. -/
theorem sumUsdcAmountsFrom_spells {page : List JsString} {amounts : List ℕ} (acc : ℕ)
    (h : List.Forall₂ Spells page amounts) (hpos : ∀ n ∈ amounts, 0 < n) :
    sumUsdcAmountsFrom acc page = .ok (acc + amounts.sum) := by
  induction h generalizing acc with
  | nil => rfl
  | @cons raw n page amounts hspells _ ih =>
      rw [sumUsdcAmountsFrom, parseUsdcAmount_spells hspells (hpos n List.mem_cons_self)]
      have hrest := ih (acc + n) fun m hm => hpos m (List.mem_cons_of_mem _ hm)
      rw [List.sum_cons, ← Nat.add_assoc]
      exact hrest

/-! ## The three sums -/

/-- The reward of a creation is the exact sum `total`, the release's reward and the sum of the
fund page. -/
def OneReward (prizes : List Prize) (release : EventForRelease) (assignments : List Assignment)
    (page : List JsString) (total : ℕ) : Prop :=
  ∀ reward, sumPrizes 0 prizes = .ok reward → reward.toInt = total ∧
    (∃ positions teams,
      buildAllocationInput release assignments = .ok (positions, teams, reward)) ∧
    sumUsdcAmounts page = .ok total

/-- Prizes of the table convert to the decimals they hold. -/
theorem prizeStroops_decimal {prizes : List Prize} {amounts : List ℕ}
    (hrange : ∀ n ∈ amounts, 0 < n ∧ n < 10 ^ 18)
    (hprizes : prizes.map (·.amount) = amounts.map decimalText) :
    (∀ p ∈ prizes, Convertible p) ∧ prizes.map prizeStroops = amounts.map Int64.ofNat := by
  induction amounts generalizing prizes with
  | nil =>
      obtain rfl := List.map_eq_nil_iff.mp hprizes
      exact ⟨fun p hp => absurd hp List.not_mem_nil, rfl⟩
  | cons n amounts ih =>
      obtain ⟨p, prizes, rfl, hp, hrest⟩ := List.map_eq_cons_iff.mp hprizes
      obtain ⟨hconvertible, hstroops⟩ := ih (fun m hm => hrange m (List.mem_cons_of_mem _ hm)) hrest
      obtain ⟨hpos, hlt⟩ := hrange n List.mem_cons_self
      have hn := amountToStroops_decimalText hpos (hlt.trans (by decide))
      rw [← hp] at hn
      refine ⟨List.forall_mem_cons.mpr ⟨⟨_, hn⟩, hconvertible⟩, ?_⟩
      rw [List.map_cons, List.map_cons, hstroops, prizeStroops_eq hn]

/-- The exact sum of the prizes in stroops. -/
theorem exact_map_ofNat {amounts : List ℕ} (hlt : ∀ n ∈ amounts, n < 10 ^ 18) :
    WrappingSum.exact (amounts.map Int64.ofNat) = amounts.sum := by
  induction amounts with
  | nil => rfl
  | cons n amounts ih =>
      have hn := (hlt n List.mem_cons_self).trans (by decide : 10 ^ 18 < 2 ^ 63)
      rw [List.map_cons, WrappingSum.exact_cons, ih fun m hm => hlt m (List.mem_cons_of_mem _ hm),
        Int64.toInt_ofNat_of_lt hn, List.sum_cons, Nat.cast_add]

/-- The amount asked from the organizer, the amount reserved and the amount released are one
number exactly when the prizes add up to less than `2^63` stroops. -/
theorem one_reward {prizes : List Prize} {release : EventForRelease}
    {assignments : List Assignment} {amounts : List ℕ} {page : List JsString}
    (hrange : ∀ n ∈ amounts, 0 < n ∧ n < 10 ^ 18)
    (hprizes : prizes.map (·.amount) = amounts.map decimalText)
    (hrelease : release.prizes = prizes) (hpage : List.Forall₂ Spells page amounts) :
    OneReward prizes release assignments page amounts.sum ↔ amounts.sum < 2 ^ 63 := by
  obtain ⟨hconvertible, hstroops⟩ := prizeStroops_decimal hrange hprizes
  have hexact := exact_map_ofNat fun n hn => (hrange n hn).2
  have hsum : sumPrizes 0 prizes = .ok (amounts.map Int64.ofNat).sum :=
    sumPrizes_eq_ok.mpr ⟨hconvertible, by rw [hstroops, Int64.zero_add]⟩
  constructor
  · intro hone
    have hword := (hone _ hsum).1
    have hlt := ((amounts.map Int64.ofNat).sum).toInt_lt
    omega
  · intro hlt reward hreward
    rw [hsum] at hreward
    obtain rfl := Except.ok.inj hreward
    refine ⟨?_, ⟨_, _, allocationOf_eq_ok.mpr ⟨?_, rfl, rfl, ?_⟩⟩, ?_⟩
    · -- no partial sum wraps
      rw [WrappingSum.toInt_sum_of_lt _ (by omega), hexact]
      intro x hx
      obtain ⟨n, hn, rfl⟩ := List.mem_map.mp hx
      rw [Int64.lt_iff_toInt_lt, Int64.toInt_ofNat_of_lt ((hrange n hn).2.trans (by decide))]
      exact Int.natCast_pos.mpr (hrange n hn).1
    · rw [hrelease]
      exact hconvertible
    · rw [hrelease, hstroops, Int64.zero_add]
    · rw [sumUsdcAmounts, sumUsdcAmountsFrom_spells 0 hpage fun n hn => (hrange n hn).1,
        Nat.zero_add]

/-- Two prizes, as the fund page spells them. -/
theorem one_reward_twoPrizes :
    OneReward Sample.twoPrizes.prizes Sample.twoPrizes Sample.twoAssignments
      [jsText "0.00005", jsText "0.00001"] 600 := by
  have hrange : ∀ n ∈ [500, 100], 0 < n ∧ n < 10 ^ 18 := by decide
  have hpage : List.Forall₂ Spells [jsText "0.00005", jsText "0.00001"] [500, 100] :=
    .cons ⟨bytes "0", bytes "00005", by decide, by decide, by decide, by decide, by decide,
      by decide⟩ (.cons ⟨bytes "0", bytes "00001", by decide, by decide, by decide, by decide,
      by decide, by decide⟩ .nil)
  exact (one_reward hrange (by decide) rfl hpage).mpr (by decide)

namespace Sample

/-- Twenty of the largest prizes the table can hold. -/
def largestAmounts : List ℕ := List.replicate 20 (10 ^ 18 - 1)

def largestPrizes : List Prize :=
  (List.range 20).map fun i => ⟨"prize", Int64.ofNat (i + 1), bytes "99999999999.9999999"⟩

def largestEvent : EventForRelease := { twoPrizes with prizes := largestPrizes }

def largestPage : List JsString := List.replicate 20 (jsText "99999999999.9999999")

end Sample

/-- Twenty of the largest prizes: the creation reserves and the release pays some 155 billion
of the 2 trillion USDC that the fund page asks for. -/
theorem reward_wrapped :
    (∀ n ∈ Sample.largestAmounts, 0 < n ∧ n < 10 ^ 18) ∧
      Sample.largestPrizes.map (·.amount) = Sample.largestAmounts.map decimalText ∧
      sumPrizes 0 Sample.largestPrizes = .ok 1553255926290448364 ∧
      sumUsdcAmounts Sample.largestPage = .ok 19999999999999999980 ∧
      ¬ OneReward Sample.largestPrizes Sample.largestEvent [] Sample.largestPage
        Sample.largestAmounts.sum := by
  have hsum : sumPrizes 0 Sample.largestPrizes = .ok 1553255926290448364 := by decide +kernel
  refine ⟨by decide, by decide +kernel, hsum, by decide +kernel, fun hone => ?_⟩
  exact absurd (hone _ hsum).1 (by decide)

end Service
