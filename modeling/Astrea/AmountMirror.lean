/-
# Two parsers of one amount

The web application's `parseUsdcAmount` and the service's `AmountToStroops` read the same text
as UTF-16 and as UTF-8.  They agree on plain decimals below `2^63` stroops, so that what the
explorer displays feeds back exactly (`displayed_feeds_back`); they differ on white space
around a decimal, on a plus sign, on a point with nothing behind it and on larger amounts, and
nowhere else (`amounts_agree`).
-/
import Astrea.RewardSum
import Astrea.Utf16
import Mathlib.Data.List.DropRight

open Guard Utf16

namespace Service

/-! ## One text in two encodings -/

/-- The units of an ASCII text are its bytes. -/
theorem jsOf_utf8 {s : JsString} (h : Ascii s) : jsOf (utf8 s) = s := map_utf8 h

/-- The bytes of an ASCII text are encoded as themselves. -/
theorem utf8_jsOf {g : GoString} (h : ∀ b ∈ g, b.toNat < 128) : utf8 (jsOf g) = g := by
  have hascii : Ascii (jsOf g) := by
    intro u hu
    obtain ⟨b, hb, rfl⟩ := List.mem_map.mp hu
    rw [UInt8.toNat_toUInt16]
    exact h b hb
  rw [utf8_ascii hascii, jsOf, List.map_map]
  have hunit : ∀ b ∈ g, (UInt16.toUInt8 ∘ UInt8.toUInt16) b = id b := by
    intro b _
    rw [Function.comp_apply, UInt8.toUInt8_toUInt16, id_eq]
  rw [List.map_congr_left hunit, List.map_id]

theorem digit_ascii {b : UInt8} (h : isDigit b = true) : b.toNat < 128 := by
  simp only [isDigit, Bool.and_eq_true, decide_eq_true_eq, UInt8.le_iff_toNat_le] at h
  have hhigh : b.toNat ≤ 57 := h.2
  omega

theorem digits_ascii {g : GoString} (h : isDigits g = true) : ∀ b ∈ g, b.toNat < 128 :=
  fun b hb => digit_ascii (List.all_eq_true.mp h b hb)

/-- A digit text of the page is one of bytes. -/
theorem exists_digits {s : JsString} (hs : s.all isJsDigit = true) :
    ∃ g, isDigits g = true ∧ jsOf g = s := by
  have hascii : Ascii s := by
    intro c hc
    have hdigit := List.all_eq_true.mp hs c hc
    simp only [isJsDigit, Bool.and_eq_true, decide_eq_true_eq, UInt16.le_iff_toNat_le] at hdigit
    have hhigh : c.toNat ≤ 57 := hdigit.2
    omega
  refine ⟨utf8 s, ?_, jsOf_utf8 hascii⟩
  rw [isDigits, List.all_eq_true]
  intro b hb
  have hmem : b.toUInt16 ∈ s := by
    rw [← jsOf_utf8 hascii]
    exact List.mem_map_of_mem hb
  rw [← isJsDigit_toUInt16]
  exact List.all_eq_true.mp hs _ hmem

/-- A plain spelling of the page is one of bytes. -/
theorem spelled_eq {whole frac : GoString} :
    jsOf whole ++ (if frac = [] then [] else 46 :: jsOf frac)
      = jsOf (whole ++ (if frac = [] then [] else 46 :: frac)) := by
  rw [jsOf, jsOf, jsOf, List.map_append]
  split <;> rfl

theorem plain_ascii {whole frac : GoString} (hwhole : isDigits whole = true)
    (hfrac : isDigits frac = true) :
    ∀ b ∈ whole ++ (if frac = [] then [] else 46 :: frac), b.toNat < 128 := by
  intro b hb
  rcases List.mem_append.mp hb with hb | hb
  · exact digits_ascii hwhole b hb
  · split at hb
    · exact absurd hb List.not_mem_nil
    · rcases List.mem_cons.mp hb with rfl | hb
      · decide
      · exact digits_ascii hfrac b hb

/-- The bytes of a plain spelling. -/
theorem utf8_spelled {whole frac : GoString} (hwhole : isDigits whole = true)
    (hfrac : isDigits frac = true) :
    utf8 (jsOf whole ++ (if frac = [] then [] else 46 :: jsOf frac))
      = whole ++ (if frac = [] then [] else 46 :: frac) := by
  rw [spelled_eq, utf8_jsOf (plain_ascii hwhole hfrac)]

/-! ## What each of them accepts -/

/-- What the page's pattern matches is a plain spelling. -/
theorem exists_spells {s whole frac : JsString} (h : matchDecimal s = some (whole, frac)) :
    ∃ n, Spells s n := by
  have hdigits : (s.takeWhile isJsDigit).all isJsDigit = true := List.all_takeWhile
  have hsplit := List.takeWhile_append_dropWhile (p := isJsDigit) (l := s)
  obtain ⟨g, hg, hjs⟩ := exists_digits hdigits
  have hne : s.takeWhile isJsDigit ≠ [] → g ≠ [] := by
    rintro hwhole rfl
    exact hwhole hjs.symm
  unfold matchDecimal at h
  split at h
  · rename_i hrest
    rw [Option.ite_none_left_eq_some] at h
    refine ⟨_, g, [], hne h.1, hg, rfl, Nat.zero_le _, ?_, rfl⟩
    rw [if_pos rfl, List.append_nil, hjs]
    rwa [hrest, List.append_nil, eq_comm] at hsplit
  · rename_i point rest hrest
    rw [Option.ite_none_right_eq_some] at h
    obtain ⟨⟨hwhole, rfl, hfrac, hplaces, hall⟩, -⟩ := h
    obtain ⟨f, hf, rfl⟩ := exists_digits hall
    refine ⟨_, g, f, hne hwhole, hg, hf, by simpa [jsOf] using hplaces, ?_, rfl⟩
    rw [if_neg fun hnil => hfrac (by rw [hnil]; rfl), hjs]
    rwa [hrest, eq_comm] at hsplit

/-- The web application reads a text as `n` when its trimmed text is a plain spelling of `n` and
`n` is positive. -/
theorem parseUsdcAmount_eq_some {s : JsString} {n : ℕ} :
    parseUsdcAmount s = some n ↔ Spells (trim s) n ∧ 0 < n := by
  constructor
  · intro h
    have hmatch := h
    simp only [parseUsdcAmount, Option.bind_eq_bind, Option.bind_eq_some_iff] at hmatch
    obtain ⟨⟨whole, frac⟩, hmatch, -⟩ := hmatch
    obtain ⟨m, hspells⟩ := exists_spells hmatch
    rw [← parseUsdcAmount_trim, parseUsdcAmount_plain hspells, Option.ite_none_right_eq_some,
      Option.some_inj] at h
    obtain ⟨hpos, rfl⟩ := h
    exact ⟨hspells, hpos⟩
  · rintro ⟨hspells, hpos⟩
    rw [← parseUsdcAmount_trim, parseUsdcAmount_spells hspells hpos]

/-- `s` spells `n` with a plus sign in front, or with a point and nothing behind it. -/
def SpellsLoosely (s : JsString) (n : ℕ) : Prop :=
  ∃ t, Spells t n ∧ (s = 43 :: t ∨ 46 ∉ t ∧ (s = t ++ [46] ∨ s = 43 :: (t ++ [46])))

/-- A spelling without a point is all digits. -/
theorem Spells.whole {t : JsString} {n : ℕ} (h : Spells t n) (hpoint : 46 ∉ t) :
    ∃ whole, whole ≠ [] ∧ isDigits whole = true ∧ t = jsOf whole ∧
      digitsValue (stroopsDigits whole []) = n := by
  obtain ⟨whole, frac, hne, hwhole, -, -, rfl, hvalue⟩ := h
  obtain rfl : frac = [] := by
    by_contra hfrac
    rw [if_neg hfrac] at hpoint
    exact hpoint (List.mem_append_right _ List.mem_cons_self)
  exact ⟨whole, hne, hwhole, by rw [if_pos rfl, List.append_nil], hvalue⟩

theorem not_mem_digits {whole : GoString} (h : isDigits whole = true) : 46 ∉ jsOf whole := by
  intro hmem
  exact absurd (isJsDigit_of_mem h hmem) (by decide)

/-- The bytes of an accepted text are ASCII: signs, points and digits. -/
theorem AmountText.ascii {t whole frac : GoString} (h : AmountText t whole frac) :
    ∀ b ∈ t, b.toNat < 128 := by
  obtain ⟨sign, hsign, hbytes⟩ := h.spelled
  have hsignByte : ∀ b ∈ sign, b.toNat < 128 := by
    rcases hsign with rfl | rfl
    · exact fun b hb => absurd hb List.not_mem_nil
    · exact fun b hb => by rw [List.mem_singleton.mp hb]; decide
  have hwhole := digits_ascii h.whole_digits
  have hfrac : ∀ b ∈ 46 :: frac, b.toNat < 128 :=
    List.forall_mem_cons.mpr ⟨by decide, digits_ascii h.frac_digits⟩
  rcases hbytes with ⟨rfl, -⟩ | rfl
  · exact List.forall_mem_append.mpr ⟨hsignByte, hwhole⟩
  · exact List.forall_mem_append.mpr ⟨hsignByte, List.forall_mem_append.mpr ⟨hwhole, hfrac⟩⟩

/-- A text whose bytes are accepted is plain, or has a plus sign or a point with nothing behind. -/
theorem AmountText.spells {s : JsString} {whole frac : GoString} {n : ℕ}
    (htext : AmountText (utf8 s) whole frac) (hvalue : digitsValue (stroopsDigits whole frac) = n) :
    Spells s n ∨ SpellsLoosely s n := by
  obtain ⟨sign, hsign, hbytes⟩ := htext.spelled
  have hplain : Spells (jsOf whole ++ (if frac = [] then [] else 46 :: jsOf frac)) n :=
    ⟨whole, frac, htext.nonempty, htext.whole_digits, htext.frac_digits, htext.places, rfl, hvalue⟩
  have hs := jsOf_utf8 (ascii_of_utf8 htext.ascii)
  have hpoint := not_mem_digits htext.whole_digits
  rcases hbytes with ⟨heq, rfl⟩ | heq
  · rw [if_pos rfl, List.append_nil] at hplain
    rcases hsign with rfl | rfl
    · rw [← hs, heq]
      exact .inl hplain
    · rw [← hs, heq]
      exact .inr ⟨_, hplain, .inl rfl⟩
  · by_cases hfrac : frac = []
    · subst hfrac
      rw [if_pos rfl, List.append_nil] at hplain
      have hdotted : jsOf (whole ++ [46]) = jsOf whole ++ [46] := List.map_append
      rcases hsign with rfl | rfl
      · rw [← hs, heq, List.nil_append, hdotted]
        exact .inr ⟨_, hplain, .inr ⟨hpoint, .inl rfl⟩⟩
      · refine .inr ⟨_, hplain, .inr ⟨hpoint, .inr ?_⟩⟩
        rw [← hs, heq, List.singleton_append, jsOf, List.map_cons, ← jsOf, hdotted]
        rfl
    · rw [if_neg hfrac] at hplain
      have hpointed : jsOf (whole ++ 46 :: frac) = jsOf whole ++ 46 :: jsOf frac :=
        List.map_append
      rcases hsign with rfl | rfl
      · rw [← hs, heq, List.nil_append, hpointed]
        exact .inl hplain
      · refine .inr ⟨_, hplain, .inl ?_⟩
        rw [← hs, heq, List.singleton_append, jsOf, List.map_cons, ← jsOf, hpointed]
        rfl

theorem utf8_plus {t : GoString} (ht : ∀ b ∈ t, b.toNat < 128) :
    utf8 (43 :: jsOf t) = 43 :: t := by
  have hplus : ∀ b ∈ 43 :: t, b.toNat < 128 := List.forall_mem_cons.mpr ⟨by decide, ht⟩
  exact utf8_jsOf hplus

/-- The bytes of a plain text are accepted, with a plus sign and without one. -/
theorem Spells.amountText {s : JsString} {n : ℕ} (h : Spells s n) :
    (∃ whole frac, AmountText (utf8 s) whole frac ∧
        digitsValue (stroopsDigits whole frac) = n) ∧
      ∃ whole frac, AmountText (utf8 (43 :: s)) whole frac ∧
        digitsValue (stroopsDigits whole frac) = n := by
  obtain ⟨whole, frac, hne, hwhole, hfrac, hplaces, rfl, hvalue⟩ := h
  constructor
  · refine ⟨whole, frac, ⟨hne, hwhole, hfrac, hplaces, [], .inl rfl, ?_⟩, hvalue⟩
    rw [utf8_spelled hwhole hfrac, List.nil_append, List.nil_append]
    split
    · rename_i hnil
      exact .inl ⟨List.append_nil _, hnil⟩
    · exact .inr rfl
  · refine ⟨whole, frac, ⟨hne, hwhole, hfrac, hplaces, [43], .inr rfl, ?_⟩, hvalue⟩
    rw [spelled_eq, utf8_plus (plain_ascii hwhole hfrac)]
    split
    · rename_i hnil
      exact .inl ⟨by rw [List.append_nil, List.singleton_append], hnil⟩
    · exact .inr rfl

/-- A point with nothing behind is accepted as well. -/
theorem Spells.amountText_point {s : JsString} {n : ℕ} (h : Spells s n) (hpoint : 46 ∉ s) :
    (∃ whole frac, AmountText (utf8 (s ++ [46])) whole frac ∧
        digitsValue (stroopsDigits whole frac) = n) ∧
      ∃ whole frac, AmountText (utf8 (43 :: (s ++ [46]))) whole frac ∧
        digitsValue (stroopsDigits whole frac) = n := by
  obtain ⟨whole, hne, hwhole, rfl, hvalue⟩ := h.whole hpoint
  have hascii : ∀ b ∈ whole ++ [46], b.toNat < 128 :=
    List.forall_mem_append.mpr ⟨digits_ascii hwhole, List.forall_mem_singleton.mpr (by decide)⟩
  have hdotted : jsOf whole ++ [46] = jsOf (whole ++ [46]) := by
    rw [jsOf, jsOf, List.map_append]
    rfl
  rw [hdotted, utf8_jsOf hascii, utf8_plus hascii]
  exact ⟨⟨whole, [], ⟨hne, hwhole, rfl, Nat.zero_le _, [], .inl rfl,
      .inr (by rw [List.nil_append])⟩, hvalue⟩,
    ⟨whole, [], ⟨hne, hwhole, rfl, Nat.zero_le _, [43], .inr rfl,
      .inr (by rw [List.singleton_append])⟩, hvalue⟩⟩

/-- The texts of the service's grammar are the plain spellings and the loose ones. -/
theorem amountText_utf8 {s : JsString} {n : ℕ} :
    (∃ whole frac, AmountText (utf8 s) whole frac ∧ digitsValue (stroopsDigits whole frac) = n) ↔
      Spells s n ∨ SpellsLoosely s n := by
  constructor
  · rintro ⟨whole, frac, htext, hvalue⟩
    exact htext.spells hvalue
  · rintro (hspells | ⟨t, hspells, rfl | ⟨hpoint, rfl | rfl⟩⟩)
    · exact hspells.amountText.1
    · exact hspells.amountText.2
    · exact (hspells.amountText_point hpoint).1
    · exact (hspells.amountText_point hpoint).2

/-- The service converts a text to `n` when it spells `n` and `n` is a positive `int64`. -/
theorem amountToStroops_utf8 {s : JsString} {n : ℕ} :
    (∃ m, amountToStroops (utf8 s) = .ok m ∧ m.toInt = n) ↔
      (Spells s n ∨ SpellsLoosely s n) ∧ 0 < n ∧ n < 2 ^ 63 := by
  rw [← amountText_utf8]
  constructor
  · rintro ⟨m, hok, hm⟩
    obtain ⟨whole, frac, htext, hvalue, hpos⟩ := amountToStroops_eq_ok.mp hok
    rw [Int64.lt_iff_toInt_lt, hm, Int64.toInt_zero] at hpos
    have hlt := m.toInt_lt
    rw [hm] at hlt
    exact ⟨⟨whole, frac, htext, by rw [hm] at hvalue; exact_mod_cast hvalue.symm⟩,
      by exact_mod_cast hpos, by exact_mod_cast hlt⟩
  · rintro ⟨⟨whole, frac, htext, hvalue⟩, hpos, hlt⟩
    have hword : (Int64.ofNat n).toInt = n := Int64.toInt_ofNat_of_lt hlt
    refine ⟨.ofNat n, amountToStroops_eq_ok.mpr ⟨whole, frac, htext, ?_, ?_⟩, hword⟩
    · rw [hword, hvalue]
    · rw [Int64.lt_iff_toInt_lt, hword]
      exact Int.natCast_pos.mpr hpos

/-! ## Where they agree -/

/-- A plain spelling starts and ends with a digit. -/
theorem Spells.ends {s : JsString} {n : ℕ} (h : Spells s n) :
    (∀ c ∈ s.head?, isJsDigit c = true) ∧ ∀ c ∈ s.getLast?, isJsDigit c = true := by
  obtain ⟨whole, frac, hne, hwhole, hfrac, -, rfl, -⟩ := h
  have hjs : jsOf whole ≠ [] := fun hnil => hne (List.map_eq_nil_iff.mp hnil)
  constructor
  · intro c hc
    rw [List.head?_append_of_ne_nil _ hjs] at hc
    exact isJsDigit_of_mem hwhole (List.mem_of_mem_head? hc)
  · intro c hc
    split at hc
    · rw [List.append_nil] at hc
      exact isJsDigit_of_mem hwhole (List.mem_of_mem_getLast? hc)
    · rename_i hnil
      have hjs : jsOf frac ≠ [] := fun hmap => hnil (List.map_eq_nil_iff.mp hmap)
      rw [List.getLast?_append_of_ne_nil _ (List.cons_ne_nil _ _), List.getLast?_cons_of_ne_nil hjs]
        at hc
      exact isJsDigit_of_mem hfrac (List.mem_of_mem_getLast? hc)

/-- A loose spelling is no plain one. -/
theorem SpellsLoosely.not_spells {s : JsString} {n m : ℕ} (h : SpellsLoosely s n) :
    ¬ Spells s m := by
  intro hspells
  obtain ⟨hhead, hlast⟩ := hspells.ends
  obtain ⟨t, -, rfl | ⟨-, rfl | rfl⟩⟩ := h
  · exact absurd (hhead 43 rfl) (by decide)
  · exact absurd (hlast 46 (by simp)) (by decide)
  · exact absurd (hhead 43 rfl) (by decide)

/-- A loose spelling has no spaces. -/
theorem SpellsLoosely.trim_eq {s : JsString} {n : ℕ} (h : SpellsLoosely s n) : trim s = s := by
  refine trim_eq_self fun c hc => ?_
  obtain ⟨t, hspells, rfl | ⟨-, rfl | rfl⟩⟩ := h
  · rcases List.mem_cons.mp hc with rfl | hc
    · decide
    · exact hspells.not_isJsSpace hc
  · rcases List.mem_append.mp hc with hc | hc
    · exact hspells.not_isJsSpace hc
    · rw [List.mem_singleton.mp hc]
      decide
  · rcases List.mem_cons.mp hc with rfl | hc
    · decide
    · rcases List.mem_append.mp hc with hc | hc
      · exact hspells.not_isJsSpace hc
      · rw [List.mem_singleton.mp hc]
        decide

/-- No positive amount is spelled with white space around it, with a plus sign or with a point
and nothing behind it, or is too large for an `int64`. -/
def Mirrored (s : JsString) : Prop :=
  (∀ n, 0 < n → Spells (trim s) n → trim s = s ∧ n < 2 ^ 63) ∧
    ∀ n, 0 < n → n < 2 ^ 63 → ¬ SpellsLoosely s n

/-- The two parsers read `s` as the same amount, or both refuse it. -/
def AmountsAgree (s : JsString) : Prop :=
  (∀ n : ℕ, parseUsdcAmount s = some n ↔ ∃ m, amountToStroops (utf8 s) = .ok m ∧ m.toInt = n) ∧
    (parseUsdcAmount s = none ↔ ∃ e, amountToStroops (utf8 s) = .error e)

/-- The parsers agree on a text exactly when it is `Mirrored`. -/
theorem amounts_agree (s : JsString) : AmountsAgree s ↔ Mirrored s := by
  constructor
  · rintro ⟨hagree, -⟩
    refine ⟨fun n hpos hspells => ?_, fun n hpos hlt hloose => ?_⟩
    · have hservice := (hagree n).mp (parseUsdcAmount_eq_some.mpr ⟨hspells, hpos⟩)
      obtain ⟨hs, -, hlt⟩ := amountToStroops_utf8.mp hservice
      refine ⟨?_, hlt⟩
      rcases hs with hs | hs
      · exact hs.trim_eq
      · exact hs.trim_eq
    · have hpage := (hagree n).mpr (amountToStroops_utf8.mpr ⟨.inr hloose, hpos, hlt⟩)
      have hspells := (parseUsdcAmount_eq_some.mp hpage).1
      rw [hloose.trim_eq] at hspells
      exact hloose.not_spells hspells
  · rintro ⟨hplain, hloose⟩
    have hsome : ∀ n : ℕ, parseUsdcAmount s = some n ↔
        ∃ m, amountToStroops (utf8 s) = .ok m ∧ m.toInt = n := by
      intro n
      rw [parseUsdcAmount_eq_some, amountToStroops_utf8]
      constructor
      · rintro ⟨hspells, hpos⟩
        obtain ⟨htrim, hlt⟩ := hplain n hpos hspells
        rw [htrim] at hspells
        exact ⟨.inl hspells, hpos, hlt⟩
      · rintro ⟨hspells | hspells, hpos, hlt⟩
        · exact ⟨by rwa [hspells.trim_eq], hpos⟩
        · exact absurd hspells (hloose n hpos hlt)
    refine ⟨hsome, ?_⟩
    constructor
    · intro hnone
      cases hservice : amountToStroops (utf8 s) with
      | error e => exact ⟨e, rfl⟩
      | ok m =>
          -- the service's amounts are positive, so the page would have read this one
          obtain ⟨-, -, -, -, hpos⟩ := amountToStroops_eq_ok.mp hservice
          rw [Int64.lt_iff_toInt_lt] at hpos
          have hread := (hsome m.toInt.toNat).mpr ⟨m, hservice, (Int.toNat_of_nonneg hpos.le).symm⟩
          rw [hnone] at hread
          cases hread
    · rintro ⟨e, he⟩
      cases hpage : parseUsdcAmount s with
      | none => rfl
      | some n =>
          obtain ⟨m, hm, -⟩ := (hsome n).mp hpage
          rw [he] at hm
          cases hm

/-- A space in front is trimmed on the page and refused by the service, which in turn takes a
plus sign that the page does not. -/
theorem amounts_agree_not : ¬ AmountsAgree (jsText " 1") ∧ ¬ AmountsAgree (jsText "+1") := by
  constructor
  · rintro ⟨-, hnone⟩
    have hservice : amountToStroops (utf8 (jsText " 1"))
        = .error ⟨"escrow: amount %q is not a valid decimal number", [.str (bytes " 1")]⟩ := by
      decide +kernel
    exact absurd (hnone.mpr ⟨_, hservice⟩) (by decide +kernel)
  · rintro ⟨hsome, -⟩
    have hservice : amountToStroops (utf8 (jsText "+1")) = .ok 10000000 := by decide +kernel
    exact absurd ((hsome 10000000).mpr ⟨_, hservice, rfl⟩) (by decide +kernel)

/-! ## The displayed amount -/

/-- `s.padStart(width, c)`. -/
def padStart (s : JsString) (width : ℕ) (c : UInt16) : JsString :=
  List.replicate (width - s.length) c ++ s

/-- `s.replace(/0+$/, "")`. -/
def stripTrailingZeros (s : JsString) : JsString := s.rdropWhile (· == 48)

/-- The amount in whole units of a token with `decimals` places. -/
def formatSmallestUnits (amount : JsString) (decimals : ℕ) : JsString :=
  let negative := amount.head? == some 45
  let digits := padStart (if negative then amount.drop 1 else amount) (decimals + 1) 48
  let whole := digits.take (digits.length - decimals)
  let frac := stripTrailingZeros (digits.drop (digits.length - decimals))
  (if negative then [45] else []) ++ whole ++ (if frac = [] then [] else 46 :: frac)

/-- What is stripped off a digit text is zeros. -/
theorem stripTrailingZeros_jsOf (s : GoString) :
    ∃ frac k, stripTrailingZeros (jsOf s) = jsOf frac ∧ frac ++ List.replicate k 48 = s := by
  have hsplit : stripTrailingZeros (jsOf s) ++ (jsOf s).rtakeWhile (· == 48) = jsOf s :=
    List.rdropWhile_append_rtakeWhile
  obtain ⟨frac, zeros, hs, hfrac, hzeros⟩ := List.map_eq_append_iff.mp hsplit.symm
  have hall : zeros = List.replicate zeros.length 48 := by
    refine List.eq_replicate_length.mpr fun b hb => ?_
    have hmem : b.toUInt16 ∈ (jsOf s).rtakeWhile (· == 48) := by
      rw [← hzeros]
      exact List.mem_map_of_mem hb
    have hzero := List.mem_rtakeWhile_imp hmem
    rw [beq_iff_eq, ← UInt16.toNat_inj, UInt8.toNat_toUInt16] at hzero
    exact UInt8.toNat_inj.mp hzero
  exact ⟨frac, zeros.length, hfrac.symm, by rw [← hall, ← hs]⟩

/-- The displayed amount is a plain spelling. -/
theorem formatSmallestUnits_spells (n : ℕ) :
    Spells (formatSmallestUnits (jsOf (formatNat n)) 7) n := by
  have hdigits := isDigits_formatNat n
  -- the digits, padded to at least eight
  obtain ⟨g, hg⟩ : ∃ g, g = List.replicate (8 - (formatNat n).length) 48 ++ formatNat n := ⟨_, rfl⟩
  have hgdigits : isDigits g = true := by
    rw [hg, isDigits, List.all_append, Bool.and_eq_true]
    exact ⟨isDigits_zeros _, hdigits⟩
  have hlength : 8 ≤ g.length := by
    rw [hg, List.length_append, List.length_replicate]
    omega
  have hvalue : digitsValue g = n := by
    rw [hg, digitsValue_append, digitsValue_zeros, Nat.zero_mul, Nat.zero_add,
      digitsValue_formatNat]
  have hsign : ((jsOf (formatNat n)).head? == some 45) = false := by
    rw [beq_eq_false_iff_ne]
    intro hhead
    exact absurd (isJsDigit_of_mem hdigits (List.mem_of_mem_head? hhead)) (by decide)
  have hpad : padStart (jsOf (formatNat n)) 8 48 = jsOf g := by
    rw [padStart, hg, jsOf, jsOf, List.map_append, List.map_replicate, List.length_map]
    rfl
  obtain ⟨whole, last, hwhole, hlast, hsplit⟩ :
      ∃ whole last, g.take (g.length - 7) = whole ∧ g.drop (g.length - 7) = last ∧
        whole ++ last = g := ⟨_, _, rfl, rfl, List.take_append_drop _ _⟩
  have hseven : last.length = 7 := by
    rw [← hlast, List.length_drop]
    omega
  have hne : whole ≠ [] := by
    rintro rfl
    rw [← hsplit, List.nil_append, hseven] at hlength
    omega
  rw [← hsplit, isDigits, List.all_append, Bool.and_eq_true] at hgdigits
  obtain ⟨frac, k, hstrip, hfrac⟩ := stripTrailingZeros_jsOf last
  have hplaces : frac.length + k = 7 := by
    rw [← hseven, ← hfrac, List.length_append, List.length_replicate]
  have hfracDigits : isDigits frac = true := by
    have hboth := hgdigits.2
    rw [← hfrac, List.all_append, Bool.and_eq_true] at hboth
    exact hboth.1
  refine ⟨whole, frac, hne, hgdigits.1, hfracDigits, by omega, ?_, ?_⟩
  · have htake : (jsOf g).take ((jsOf g).length - 7) = jsOf whole := by
      rw [← hwhole, jsOf, jsOf, List.length_map, List.map_take]
    have hdrop : (jsOf g).drop ((jsOf g).length - 7) = jsOf last := by
      rw [← hlast, jsOf, jsOf, List.length_map, List.map_drop]
    have hnil : jsOf frac = [] ↔ frac = [] := List.map_eq_nil_iff
    simp only [formatSmallestUnits, hsign, Bool.false_eq_true, if_false, hpad, htake, hdrop, hstrip,
      List.nil_append, hnil]
  · rw [stroopsDigits, show 7 - frac.length = k by omega, List.append_assoc, hfrac, hsplit, hvalue]

/-- An amount displayed by the web application is read back by it and by the service. -/
theorem displayed_feeds_back {n : ℕ} (hpos : 0 < n) (hlt : n < 2 ^ 63) :
    parseUsdcAmount (formatSmallestUnits (jsOf (formatNat n)) 7) = some n ∧
      amountToStroops (utf8 (formatSmallestUnits (jsOf (formatNat n)) 7))
        = .ok (Int64.ofNat n) := by
  have hspells := formatSmallestUnits_spells n
  refine ⟨parseUsdcAmount_spells hspells hpos, ?_⟩
  obtain ⟨m, hm, hvalue⟩ := amountToStroops_utf8.mpr ⟨.inl hspells, hpos, hlt⟩
  rw [hm, Except.ok.injEq, ← Int64.toInt_inj, hvalue, Int64.toInt_ofNat_of_lt hlt]

theorem displayed_feeds_back_max :
    formatSmallestUnits (jsOf (formatNat (2 ^ 63 - 1))) 7 = jsText "922337203685.4775807" ∧
      parseUsdcAmount (formatSmallestUnits (jsOf (formatNat (2 ^ 63 - 1))) 7)
        = some (2 ^ 63 - 1) :=
  ⟨by decide +kernel, (displayed_feeds_back (by decide) (by decide)).1⟩

end Service
