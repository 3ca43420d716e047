/-
# Amount texts

`AmountToStroops` read as a grammar: which texts it accepts and the number each denotes.
What it returns is that number in stroops, and rendering it again gives the canonical
spelling of the text, without a sign or needless zeros and with all seven places.
-/
import Astrea.Amount
import Mathlib.Data.List.Induction
import Mathlib.Data.List.TakeWhile
import Mathlib.Data.Rat.Defs
import Mathlib.Tactic.FieldSimp
import Mathlib.Tactic.IntervalCases
import Mathlib.Tactic.Ring

open Guard

namespace Service

/-! ## Digits -/

theorem digitsValue_append (s s' : GoString) :
    digitsValue (s ++ s') = digitsValue s * 10 ^ s'.length + digitsValue s' := by
  have hfrom : ∀ (s : GoString) (n : ℕ),
      s.foldl (fun n c => 10 * n + (c.toNat - 48)) n = n * 10 ^ s.length + digitsValue s := by
    intro s
    induction s with
    | nil => intro n; simp [digitsValue]
    | cons c s ih =>
        intro n
        have hhead : digitsValue (c :: s)
            = (10 * 0 + (c.toNat - 48)) * 10 ^ s.length + digitsValue s := ih _
        rw [List.foldl_cons, ih, hhead, List.length_cons, pow_succ]
        ring
  rw [digitsValue, List.foldl_append, hfrom]
  rfl

theorem digitsValue_zeros (k : ℕ) : digitsValue (List.replicate k 48) = 0 := by
  induction k with
  | zero => rfl
  | succ k ih =>
      rw [List.replicate_succ, ← List.singleton_append, digitsValue_append, ih]
      norm_num
      rfl

theorem isDigits_zeros (k : ℕ) : isDigits (List.replicate k 48) = true := by
  rw [isDigits, List.all_eq_true]
  intro c hc
  rw [List.eq_of_mem_replicate hc]
  rfl

/-- The byte of a digit character. -/
theorem toNat_digit {c : Char} (h : c.isDigit = true) :
    c.toNat.toUInt8.toNat = c.toNat ∧ 48 ≤ c.toNat ∧ c.toNat ≤ 57 := by
  have hrange : 48 ≤ c.toNat ∧ c.toNat ≤ 57 := by
    simpa [Char.isDigit, UInt32.le_iff_toNat_le] using h
  refine ⟨?_, hrange⟩
  rw [Nat.toUInt8, UInt8.toNat_ofNat']
  omega

theorem isDigits_formatNat (n : ℕ) : isDigits (formatNat n) = true := by
  rw [isDigits, List.all_eq_true]
  intro b hb
  obtain ⟨c, hc, rfl⟩ := List.mem_map.mp hb
  obtain ⟨hbyte, hlow, hhigh⟩ := toNat_digit
    (Nat.isDigit_of_mem_toDigits (by decide) (by decide) hc)
  simp only [isDigit, Bool.and_eq_true, decide_eq_true_eq, UInt8.le_iff_toNat_le, hbyte]
  exact ⟨hlow, hhigh⟩

theorem formatNat_ne_nil (n : ℕ) : formatNat n ≠ [] := by
  rw [formatNat, Ne, List.map_eq_nil_iff]
  exact Nat.toDigits_ne_nil

/-- Rendered digits denote the number. -/
theorem digitsValue_formatNat (n : ℕ) : digitsValue (formatNat n) = n := by
  have hchars : ∀ (l : List Char) (k : ℕ), (∀ c ∈ l, c.isDigit = true) →
      (l.map fun c => c.toNat.toUInt8).foldl (fun n c => 10 * n + (c.toNat - 48)) k
        = Nat.ofDigitChars 10 l k := by
    intro l
    induction l with
    | nil =>
        intro k _
        exact Nat.ofDigitChars_nil.symm
    | cons c l ih =>
        intro k hl
        have hc := (toNat_digit (hl c List.mem_cons_self)).1
        rw [List.map_cons, List.foldl_cons, ih _ fun c hc => hl c (List.mem_cons_of_mem _ hc),
          Nat.ofDigitChars_cons, hc]
        rfl
  rw [digitsValue, formatNat, hchars, Nat.ofDigitChars_ten_toDigits]
  intro c hc
  exact Nat.isDigit_of_mem_toDigits (by decide) (by decide) hc

/-- The seven places of a fraction. -/
theorem formatPadded_fraction {m : ℕ} (h : m < 10 ^ 7) :
    isDigits (formatPadded 7 m) = true ∧ (formatPadded 7 m).length = 7 ∧
      digitsValue (formatPadded 7 m) = m := by
  have hlen : (formatNat m).length ≤ 7 := by
    rw [formatNat, List.length_map]
    exact (Nat.length_toDigits_le_iff (by decide) (by decide)).mpr h
  have hpad : formatPadded 7 m
      = List.replicate (7 - (formatNat m).length) 48 ++ formatNat m := by
    rw [formatPadded, Int.natAbs_natCast, if_neg (by omega)]
  rw [hpad]
  refine ⟨?_, ?_, ?_⟩
  · rw [isDigits, List.all_append, Bool.and_eq_true]
    exact ⟨isDigits_zeros _, isDigits_formatNat m⟩
  · rw [List.length_append, List.length_replicate]
    omega
  · rw [digitsValue_append, digitsValue_zeros, Nat.zero_mul, Nat.zero_add,
      digitsValue_formatNat]

/-- A digit is not the point, nor a sign. -/
theorem ne_point {c : UInt8} (h : isDigit c = true) : c ≠ 46 := by
  rintro rfl
  exact absurd h (by decide)

/-- A text that starts with digits is cut at the point behind them. -/
theorem splitPoint_digits {s frac : GoString} (hs : isDigits s = true) :
    splitPoint (s ++ 46 :: frac) = (s, frac) := by
  have hne : ∀ c ∈ s, decide (c ≠ 46) = true := fun c hc =>
    decide_eq_true (ne_point (List.all_eq_true.mp hs c hc))
  rw [splitPoint, List.takeWhile_append_of_pos hne, List.dropWhile_append_of_pos hne]
  simp

/-! ## The grammar -/

/-- `s` spells an amount with the digits `whole` before the point and `frac` behind it: one
plus sign or none, at least one digit, and at most seven places when there is a point. -/
structure AmountText (s whole frac : GoString) : Prop where
  nonempty : whole ≠ []
  whole_digits : isDigits whole = true
  frac_digits : isDigits frac = true
  places : frac.length ≤ 7
  spelled : ∃ sign, (sign = [] ∨ sign = [43]) ∧
    ((s = sign ++ whole ∧ frac = []) ∨ s = sign ++ (whole ++ 46 :: frac))

/-- The number that `whole.frac` denotes. -/
def denoted (whole frac : GoString) : ℚ := digitsValue whole + digitsValue frac / 10 ^ frac.length

/-- The digits `AmountToStroops` parses. -/
def stroopsDigits (whole frac : GoString) : GoString :=
  whole ++ frac ++ List.replicate (7 - frac.length) 48

/-- The padded digits denote the amount in stroops. -/
theorem digitsValue_stroopsDigits {whole frac : GoString} (h : frac.length ≤ 7) :
    (digitsValue (stroopsDigits whole frac) : ℚ) = denoted whole frac * 10 ^ 7 := by
  have hpad : (10 : ℚ) ^ 7 = 10 ^ frac.length * 10 ^ (7 - frac.length) := by
    rw [← pow_add, Nat.add_sub_cancel' h]
  rw [stroopsDigits, digitsValue_append, digitsValue_append, digitsValue_zeros,
    List.length_replicate, denoted, hpad]
  push_cast
  field_simp
  ring

/-- Where a text is split at its first point. -/
theorem splitPoint_eq (s : GoString) :
    (s = (splitPoint s).1 ∧ (splitPoint s).2 = []) ∨
      s = (splitPoint s).1 ++ 46 :: (splitPoint s).2 := by
  simp only [splitPoint]
  have hsplit := List.takeWhile_append_dropWhile (p := fun c : UInt8 => decide (c ≠ 46)) (l := s)
  cases hrest : s.dropWhile (· ≠ 46) with
  | nil =>
      rw [hrest, List.append_nil] at hsplit
      exact .inl ⟨hsplit.symm, rfl⟩
  | cons c rest =>
      have hhead := List.head?_dropWhile_not (fun c : UInt8 => decide (c ≠ 46)) s
      rw [hrest, List.head?_cons] at hhead
      obtain rfl : c = 46 := by simpa using hhead
      rw [hrest] at hsplit
      exact .inr hsplit.symm

/-- A digit string is not split. -/
theorem splitPoint_whole {s : GoString} (hs : isDigits s = true) : splitPoint s = (s, []) := by
  have hne : ∀ c ∈ s, decide (c ≠ 46) = true := fun c hc =>
    decide_eq_true (ne_point (List.all_eq_true.mp hs c hc))
  rw [splitPoint, List.takeWhile_eq_self_iff.mpr hne, List.dropWhile_eq_nil_iff.mpr hne]
  rfl

/-! ## Parsing -/

/-- What `ParseInt` makes of a digit string. -/
theorem parseInt64_eq_some {s : GoString} {n : Int64} :
    parseInt64 s = some n ↔ n.toInt = digitsValue s := by
  unfold parseInt64
  constructor
  · intro h
    obtain ⟨hlt, heq⟩ := Option.ite_none_right_eq_some.mp h
    rw [← Option.some_inj.mp heq, Int64.toInt_ofNat_of_lt hlt]
  · intro h
    have hlt := n.toInt_lt
    rw [if_pos (by omega), Option.some_inj, ← Int64.toInt_inj, h,
      Int64.toInt_ofNat_of_lt (by omega)]

/-- The guards of `AmountToStroops`, in terms of the two parts it splits off. -/
theorem amountToStroops_parts {s : GoString} {n : Int64} :
    amountToStroops s = .ok n ↔ s ≠ [] ∧ s.head? ≠ some 45 ∧
      ((splitPoint (trimPlus s)).1 ≠ [] ∧ isDigits (splitPoint (trimPlus s)).1 = true) ∧
      (splitPoint (trimPlus s)).2.length ≤ 7 ∧ isDigits (splitPoint (trimPlus s)).2 = true ∧
      n.toInt
        = digitsValue (stroopsDigits (splitPoint (trimPlus s)).1 (splitPoint (trimPlus s)).2) ∧
      0 < n := by
  have hfrac : ∀ frac : GoString, (frac = [] ∨ isDigits frac = true) ↔ isDigits frac = true := by
    intro frac
    constructor
    · rintro (rfl | h)
      · rfl
      · exact h
    · exact .inr
  simp only [amountToStroops, bind_eq_ok, ensure_eq_ok, expect_eq_ok, exists_const, pure_eq_ok,
    hfrac, parseInt64_eq_some]
  constructor
  · rintro ⟨hne, hminus, hwhole, hplaces, hdigits, m, hvalue, hpos, rfl⟩
    exact ⟨hne, hminus, hwhole, hplaces, hdigits, hvalue, hpos⟩
  · rintro ⟨hne, hminus, hwhole, hplaces, hdigits, hvalue, hpos⟩
    exact ⟨hne, hminus, hwhole, hplaces, hdigits, n, hvalue, hpos, rfl⟩

/-- A text of the grammar is split into its digits. -/
theorem AmountText.parts {s whole frac : GoString} (h : AmountText s whole frac) :
    s ≠ [] ∧ s.head? ≠ some 45 ∧ splitPoint (trimPlus s) = (whole, frac) := by
  obtain ⟨c, rest, rfl⟩ := List.exists_cons_of_ne_nil h.nonempty
  have hc : isDigit c = true := List.all_eq_true.mp h.whole_digits c List.mem_cons_self
  have hminus : c ≠ 45 := by
    rintro rfl
    exact absurd hc (by decide)
  have hplus : ∀ tail, trimPlus (c :: tail) = c :: tail := by
    intro tail
    rw [trimPlus]
    intro s' heq
    rw [(List.cons.inj heq).1] at hc
    exact absurd hc (by decide)
  obtain ⟨sign, rfl | rfl, ⟨rfl, rfl⟩ | rfl⟩ := h.spelled
  · refine ⟨List.cons_ne_nil _ _, fun heq => hminus (Option.some_inj.mp heq), ?_⟩
    rw [List.nil_append, hplus, splitPoint_whole h.whole_digits]
  · refine ⟨List.cons_ne_nil _ _, fun heq => hminus (Option.some_inj.mp heq), ?_⟩
    rw [List.nil_append, List.cons_append, hplus, ← List.cons_append,
      splitPoint_digits h.whole_digits]
  · exact ⟨List.cons_ne_nil _ _, fun heq => absurd (Option.some_inj.mp heq) (by decide),
      splitPoint_whole h.whole_digits⟩
  · exact ⟨List.cons_ne_nil _ _, fun heq => absurd (Option.some_inj.mp heq) (by decide),
      splitPoint_digits h.whole_digits⟩

/-- What is split off an accepted text spells it. -/
theorem amountText_of_parts {s : GoString}
    (hne : (splitPoint (trimPlus s)).1 ≠ []) (hwhole : isDigits (splitPoint (trimPlus s)).1 = true)
    (hplaces : (splitPoint (trimPlus s)).2.length ≤ 7)
    (hfrac : isDigits (splitPoint (trimPlus s)).2 = true) :
    AmountText s (splitPoint (trimPlus s)).1 (splitPoint (trimPlus s)).2 := by
  refine ⟨hne, hwhole, hfrac, hplaces, ?_⟩
  have hsign : ∃ sign, (sign = [] ∨ sign = [43]) ∧ s = sign ++ trimPlus s := by
    unfold trimPlus
    split
    · exact ⟨[43], .inr rfl, rfl⟩
    · exact ⟨[], .inl rfl, rfl⟩
  obtain ⟨sign, hcases, hs⟩ := hsign
  refine ⟨sign, hcases, ?_⟩
  rcases splitPoint_eq (trimPlus s) with ⟨heq, hnil⟩ | heq
  · exact .inl ⟨by rw [← heq, ← hs], hnil⟩
  · exact .inr (by rw [← heq, ← hs])

/-- A text converts exactly when the grammar has it and its amount in stroops is a positive
`int64`, and to that amount. -/
theorem amountToStroops_eq_ok {s : GoString} {n : Int64} :
    amountToStroops s = .ok n ↔
      ∃ whole frac, AmountText s whole frac ∧ n.toInt = digitsValue (stroopsDigits whole frac) ∧
        0 < n := by
  rw [amountToStroops_parts]
  constructor
  · rintro ⟨-, -, ⟨hne, hwhole⟩, hplaces, hfrac, hvalue, hpos⟩
    exact ⟨_, _, amountText_of_parts hne hwhole hplaces hfrac, hvalue, hpos⟩
  · rintro ⟨whole, frac, htext, hvalue, hpos⟩
    obtain ⟨hne, hminus, hsplit⟩ := htext.parts
    rw [hsplit]
    exact ⟨hne, hminus, ⟨htext.nonempty, htext.whole_digits⟩, htext.places, htext.frac_digits,
      hvalue, hpos⟩

/-! ## Rendering -/

/-- The text of a `Decimal(18,7)` of `n` units in the last place. -/
def decimalText (n : ℕ) : GoString :=
  formatNat (n / 10 ^ 7) ++ 46 :: formatPadded 7 (n % 10 ^ 7 : ℕ)

/-- A positive amount is rendered as a decimal of seven places. -/
theorem stroopsToAmount_eq {n : Int64} (h : 0 < n) :
    stroopsToAmount n = decimalText n.toInt.toNat := by
  have hpos := Int64.lt_iff_toInt_lt.mp h
  have hneg : decide (n < 0) = false := by
    rw [decide_eq_false_iff_not, Int64.lt_iff_toInt_lt]
    exact not_lt.mpr hpos.le
  have hunit : stroopsPerUnit.toInt = 10 ^ 7 := rfl
  obtain ⟨k, hk⟩ : ∃ k : ℕ, n.toInt = k := Int.eq_ofNat_of_zero_le hpos.le
  have hlt := n.toInt_lt
  have hwhole : (n / stroopsPerUnit).toInt = (k / 10 ^ 7 : ℕ) := by
    rw [Int64.toInt_div_of_ne_right _ _ (by decide), hunit, hk]
    rfl
  have hfrac : (n % stroopsPerUnit).toInt = (k % 10 ^ 7 : ℕ) := by
    rw [Int64.toInt_mod, hunit, hk]
    rfl
  simp only [stroopsToAmount, hneg, Bool.false_eq_true, if_false, hwhole, hfrac, decimalText, hk,
    Int.toNat_natCast]
  rw [formatPadded, if_neg (by omega), Nat.zero_sub, List.replicate_zero, List.nil_append,
    Int.natAbs_natCast]

/-- The digit a byte stands for. -/
theorem digit_val {c : UInt8} (h : isDigit c = true) :
    c.toNat - 48 < 10 ∧ c = (48 + (c.toNat - 48)).toUInt8 := by
  simp only [isDigit, Bool.and_eq_true, decide_eq_true_eq, UInt8.le_iff_toNat_le] at h
  have hlow : 48 ≤ c.toNat := h.1
  have hhigh : c.toNat ≤ 57 := h.2
  refine ⟨by omega, ?_⟩
  rw [Nat.add_sub_cancel' hlow, Nat.toUInt8, UInt8.ofNat_toNat]

theorem digitsValue_snoc (s : GoString) (c : UInt8) :
    digitsValue (s ++ [c]) = 10 * digitsValue s + (c.toNat - 48) := by
  rw [digitsValue, List.foldl_append]
  rfl

theorem isDigits_snoc {s : GoString} {c : UInt8} :
    isDigits (s ++ [c]) = true ↔ isDigits s = true ∧ isDigit c = true := by
  simp [isDigits]

/-- Digit strings of one length that denote one number are equal. -/
theorem digitsValue_inj {s t : GoString} (hs : isDigits s = true) (ht : isDigits t = true)
    (hlen : s.length = t.length) (h : digitsValue s = digitsValue t) : s = t := by
  induction s using List.reverseRecOn generalizing t with
  | nil => exact (List.length_eq_zero_iff.mp hlen.symm).symm
  | append_singleton s c ih =>
      obtain rfl | ⟨t, d, rfl⟩ := t.eq_nil_or_concat
      · rw [List.length_append] at hlen
        exact nomatch hlen
      · rw [List.concat_eq_append] at *
        obtain ⟨hs, hc⟩ := isDigits_snoc.mp hs
        obtain ⟨ht, hd⟩ := isDigits_snoc.mp ht
        rw [digitsValue_snoc, digitsValue_snoc] at h
        have hlast : c.toNat - 48 = d.toNat - 48 := by
          have := (digit_val hc).1
          have := (digit_val hd).1
          omega
        have hcd : c = d := by
          rw [(digit_val hc).2, (digit_val hd).2, hlast]
        rw [List.length_append, List.length_append] at hlen
        rw [ih hs ht (Nat.add_right_cancel hlen) (by omega), hcd]

/-- A single digit. -/
theorem formatNat_digit {d : ℕ} (hd : d < 10) : formatNat d = [(48 + d).toUInt8] := by
  interval_cases d <;> rfl

/-- A number's digits, and one more. -/
theorem formatNat_snoc {n d : ℕ} (hn : 0 < n) (hd : d < 10) :
    formatNat (10 * n + d) = formatNat n ++ [(48 + d).toUInt8] := by
  rw [← formatNat_digit hd]
  simp only [formatNat, ← List.map_append, Nat.toDigits_append_toDigits (by decide) hn hd]

/-- Digits without needless zeros in front. -/
def stripZeros (whole : GoString) : GoString :=
  match whole.dropWhile (· = 48) with
  | [] => [48]
  | whole => whole

/-- The first digit that is kept is no zero. -/
theorem stripZeros_snoc (s : GoString) (c : UInt8) :
    (s.dropWhile (· = 48) = [] ∧ stripZeros (s ++ [c]) = [c]) ∨
      (∃ d rest, d ≠ 48 ∧ stripZeros s = d :: rest ∧ stripZeros (s ++ [c]) = stripZeros s ++ [c]) := by
  unfold stripZeros
  rw [List.dropWhile_append]
  cases hdrop : s.dropWhile (· = 48) with
  | nil =>
      refine .inl ⟨rfl, ?_⟩
      by_cases hc : c = 48
      · subst hc
        rfl
      · rw [List.isEmpty_nil, if_pos rfl, List.dropWhile_cons_of_neg (by simpa using hc)]
  | cons d rest =>
      have hhead := List.head?_dropWhile_not (fun c : UInt8 => decide (c = 48)) s
      rw [hdrop, List.head?_cons] at hhead
      exact .inr ⟨d, rest, by simpa using hhead, rfl, rfl⟩

/-- The digits of the number that a digit string denotes are the string without needless
zeros. -/
theorem formatNat_digitsValue {s : GoString} (hs : isDigits s = true) (hne : s ≠ []) :
    formatNat (digitsValue s) = stripZeros s := by
  induction s using List.reverseRecOn with
  | nil => exact absurd rfl hne
  | append_singleton s c ih =>
      obtain ⟨hs, hc⟩ := isDigits_snoc.mp hs
      obtain ⟨hlt, heq⟩ := digit_val hc
      rw [digitsValue_snoc]
      rcases stripZeros_snoc s c with ⟨hdrop, hstrip⟩ | ⟨d, rest, hd, hstrip, hsnoc⟩
      · -- only zeros stand before the last digit
        have hzeros : s = List.replicate s.length 48 := List.eq_replicate_of_mem fun b hb => by
          simpa using List.dropWhile_eq_nil_iff.mp hdrop b hb
        rw [hstrip, hzeros, digitsValue_zeros, Nat.mul_zero, Nat.zero_add, formatNat_digit hlt,
          ← heq]
      · have hs' : s ≠ [] := by
          rintro rfl
          cases hstrip
          exact hd rfl
        have hpos : 0 < digitsValue s := by
          rw [Nat.pos_iff_ne_zero]
          intro hzero
          have hfirst := ih hs hs'
          rw [hzero, hstrip] at hfirst
          cases hfirst
          exact hd rfl
        rw [formatNat_snoc hpos hlt, ih hs hs', hsnoc, ← heq]

theorem digitsValue_lt {s : GoString} (hs : isDigits s = true) : digitsValue s < 10 ^ s.length := by
  induction s using List.reverseRecOn with
  | nil => decide
  | append_singleton s c ih =>
      obtain ⟨hs, hc⟩ := isDigits_snoc.mp hs
      have hlast := (digit_val hc).1
      have hrest := ih hs
      rw [digitsValue_snoc, List.length_append, List.length_singleton, pow_succ]
      omega

/-- The canonical spelling of an amount: no sign, no needless zeros, all seven places. -/
def canonical (whole frac : GoString) : GoString :=
  stripZeros whole ++ 46 :: (frac ++ List.replicate (7 - frac.length) 48)

/-- The decimal that is rendered for an amount text is its canonical spelling. -/
theorem decimalText_stroopsDigits {s whole frac : GoString} (h : AmountText s whole frac) :
    decimalText (digitsValue (stroopsDigits whole frac)) = canonical whole frac := by
  have hlen : (frac ++ List.replicate (7 - frac.length) 48).length = 7 := by
    rw [List.length_append, List.length_replicate, Nat.add_sub_cancel' h.places]
  have hdigits : isDigits (frac ++ List.replicate (7 - frac.length) 48) = true := by
    rw [isDigits, List.all_append, Bool.and_eq_true]
    exact ⟨h.frac_digits, isDigits_zeros _⟩
  have hlt := digitsValue_lt hdigits
  have hvalue : digitsValue (stroopsDigits whole frac) = digitsValue whole * 10 ^ 7
      + digitsValue (frac ++ List.replicate (7 - frac.length) 48) := by
    rw [stroopsDigits, List.append_assoc, digitsValue_append, hlen]
  rw [hlen] at hlt
  obtain ⟨hplaces, hlength, hfrac⟩ := formatPadded_fraction hlt
  have hquot : digitsValue (stroopsDigits whole frac) / 10 ^ 7 = digitsValue whole := by omega
  have hmod : digitsValue (stroopsDigits whole frac) % 10 ^ 7
      = digitsValue (frac ++ List.replicate (7 - frac.length) 48) := by omega
  rw [decimalText, canonical, hquot, hmod, formatNat_digitsValue h.whole_digits h.nonempty,
    digitsValue_inj hplaces hdigits (hlength.trans hlen.symm) hfrac]

/-- The text of a decimal is an amount text with its seven places. -/
theorem decimalText_spelled (n : ℕ) :
    AmountText (decimalText n) (formatNat (n / 10 ^ 7)) (formatPadded 7 (n % 10 ^ 7 : ℕ)) ∧
      digitsValue (stroopsDigits (formatNat (n / 10 ^ 7)) (formatPadded 7 (n % 10 ^ 7 : ℕ))) = n := by
  obtain ⟨hdigits, hlength, hvalue⟩ :=
    formatPadded_fraction (Nat.mod_lt n (by decide : 0 < 10 ^ 7))
  refine ⟨⟨formatNat_ne_nil _, isDigits_formatNat _, hdigits, hlength.le, [], .inl rfl, .inr rfl⟩, ?_⟩
  rw [stroopsDigits, hlength, Nat.sub_self, List.replicate_zero, List.append_nil,
    digitsValue_append, hlength, digitsValue_formatNat, hvalue]
  omega

/-- The service reads a decimal as the stroops it stands for. -/
theorem amountToStroops_decimalText {n : ℕ} (hpos : 0 < n) (hlt : n < 2 ^ 63) :
    amountToStroops (decimalText n) = .ok (Int64.ofNat n) := by
  have hword : (Int64.ofNat n).toInt = n := Int64.toInt_ofNat_of_lt hlt
  obtain ⟨htext, hvalue⟩ := decimalText_spelled n
  refine amountToStroops_eq_ok.mpr ⟨_, _, htext, ?_, ?_⟩
  · rw [hvalue, hword]
  · rw [Int64.lt_iff_toInt_lt, hword]
    exact Int.natCast_pos.mpr hpos

/-- The parser is exact and the renderer its inverse: a text converts to `n` when it spells an
amount of `n` stroops and `n` is a positive `int64`, a rendered amount converts back, and what
converts is rendered in its canonical spelling. -/
theorem amountToStroops_exact :
    (∀ (s : GoString) (n : ℤ), (∃ m, amountToStroops s = .ok m ∧ m.toInt = n) ↔
      ∃ whole frac, AmountText s whole frac ∧ denoted whole frac * 10 ^ 7 = n ∧ 0 < n ∧ n < 2 ^ 63) ∧
    (∀ n : Int64, 0 < n → amountToStroops (stroopsToAmount n) = .ok n) ∧
    ∀ (s whole frac : GoString) (n : Int64), AmountText s whole frac →
      amountToStroops s = .ok n → stroopsToAmount n = canonical whole frac := by
  refine ⟨fun s n => ?_, fun n hpos => ?_, fun s whole frac n htext hok => ?_⟩
  · constructor
    · rintro ⟨m, hok, rfl⟩
      obtain ⟨whole, frac, htext, hvalue, hpos⟩ := amountToStroops_eq_ok.mp hok
      refine ⟨whole, frac, htext, ?_, Int64.lt_iff_toInt_lt.mp hpos, m.toInt_lt⟩
      rw [← digitsValue_stroopsDigits htext.places, hvalue, Int.cast_natCast]
    · rintro ⟨whole, frac, htext, hvalue, hpos, hlt⟩
      rw [← digitsValue_stroopsDigits htext.places] at hvalue
      have hdigits : (digitsValue (stroopsDigits whole frac) : ℤ) = n := by exact_mod_cast hvalue
      have hword : (Int64.ofInt n).toInt = n :=
        Int64.toInt_ofInt_of_le (by omega) (by omega)
      refine ⟨Int64.ofInt n, amountToStroops_eq_ok.mpr ⟨whole, frac, htext, ?_, ?_⟩, hword⟩
      · rw [hword, hdigits]
      · rw [Int64.lt_iff_toInt_lt, hword]
        exact hpos
  · have hlow : 0 < n.toInt := Int64.lt_iff_toInt_lt.mp hpos
    have hhigh := n.toInt_lt
    have hword : Int64.ofNat n.toInt.toNat = n := by
      rw [← Int64.toInt_inj, Int64.toInt_ofNat_of_lt (by omega), Int.toNat_of_nonneg hlow.le]
    rw [stroopsToAmount_eq hpos, amountToStroops_decimalText (by omega) (by omega), hword]
  · obtain ⟨whole', frac', htext', hvalue, hpos⟩ := amountToStroops_eq_ok.mp hok
    have hsame := htext.parts.2.2.symm.trans htext'.parts.2.2
    cases hsame
    rw [stroopsToAmount_eq hpos, hvalue, Int.toNat_natCast, decimalText_stroopsDigits htext]

theorem amountToStroops_exact_signed :
    amountToStroops (bytes "+007.5") = .ok 75000000 ∧
      amountToStroops (stroopsToAmount 75000000) = .ok 75000000 ∧
      stroopsToAmount 75000000 = canonical (bytes "007") (bytes "5") ∧
      canonical (bytes "007") (bytes "5") = bytes "7.5000000" := by
  have hparsed : amountToStroops (bytes "+007.5") = .ok 75000000 := by decide +kernel
  have htext : AmountText (bytes "+007.5") (bytes "007") (bytes "5") :=
    ⟨by decide, by decide, by decide, by decide, [43], .inr rfl, .inr (by decide)⟩
  exact ⟨hparsed, amountToStroops_exact.2.1 _ (by decide),
    amountToStroops_exact.2.2 _ _ _ _ htext hparsed, by decide⟩

end Service
