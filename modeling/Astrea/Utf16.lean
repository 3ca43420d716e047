/-
# UTF-16 texts and their UTF-8 bytes

Texts as sequences of UTF-16 code units, and their encoding as bytes.  A surrogate without its
partner is encoded as the replacement character, so every text has an encoding; and bytes that
are no encoding are read as replacement characters, so every sequence of bytes has a text.  A
text without lone surrogates is read back from its bytes (`utf8Decode_utf8`).
-/
import Mathlib.Data.List.Basic
import Mathlib.Data.UInt

namespace Utf16

/-- A text, as UTF-16 code units. -/
abbrev CodeUnits : Type := List UInt16

/-- The first unit of a surrogate pair. -/
def isHigh (u : UInt16) : Bool := 0xD800 ≤ u.toNat && u.toNat < 0xDC00

/-- The second unit of a surrogate pair. -/
def isLow (u : UInt16) : Bool := 0xDC00 ≤ u.toNat && u.toNat < 0xE000

/-- The scalar value of a surrogate pair. -/
def pairValue (u v : UInt16) : ℕ := 0x10000 + (u.toNat - 0xD800) * 0x400 + (v.toNat - 0xDC00)

/-- The UTF-8 bytes of a scalar value. -/
def scalarBytes (n : ℕ) : List UInt8 :=
  if n < 0x80 then [.ofNat n]
  else if n < 0x800 then [.ofNat (0xC0 + n / 64), .ofNat (0x80 + n % 64)]
  else if n < 0x10000 then
    [.ofNat (0xE0 + n / 4096), .ofNat (0x80 + n / 64 % 64), .ofNat (0x80 + n % 64)]
  else
    [.ofNat (0xF0 + n / 262144), .ofNat (0x80 + n / 4096 % 64), .ofNat (0x80 + n / 64 % 64),
      .ofNat (0x80 + n % 64)]

/-- The value a unit on its own stands for. -/
def unitValue (u : UInt16) : ℕ := if isHigh u || isLow u then 0xFFFD else u.toNat

/-- The UTF-8 bytes of a text. -/
def utf8 : CodeUnits → List UInt8
  | [] => []
  | [u] => scalarBytes (unitValue u)
  | u :: v :: rest =>
      if isHigh u && isLow v then scalarBytes (pairValue u v) ++ utf8 rest
      else scalarBytes (unitValue u) ++ utf8 (v :: rest)

/-- The units of a scalar value. -/
def scalarUnits (n : ℕ) : CodeUnits :=
  if n < 0x10000 then [.ofNat n]
  else [.ofNat (0xD800 + (n - 0x10000) / 0x400), .ofNat (0xDC00 + (n - 0x10000) % 0x400)]

/-- The text of a string. -/
def ofString (s : String) : CodeUnits := s.toList.flatMap fun c => scalarUnits c.toNat

/-- Every unit is below 128. -/
def Ascii (s : CodeUnits) : Prop := ∀ u ∈ s, u.toNat < 128

/-! ## ASCII texts -/

theorem unitValue_ascii {u : UInt16} (h : u.toNat < 128) : unitValue u = u.toNat := by
  have hplain : (isHigh u || isLow u) = false := by
    simp only [isHigh, isLow, Bool.or_eq_false_iff, Bool.and_eq_false_iff, decide_eq_false_iff_not]
    omega
  rw [unitValue, hplain]
  rfl

/-- A scalar value that is no ASCII character starts with a byte from 128 on. -/
theorem scalarBytes_head {n : ℕ} (h : 128 ≤ n) (hlt : n < 0x110000) :
    ∃ b ∈ scalarBytes n, 128 ≤ b.toNat := by
  unfold scalarBytes
  rw [if_neg (by omega)]
  split
  · refine ⟨_, List.mem_cons_self, ?_⟩
    rw [UInt8.toNat_ofNat']
    omega
  · split
    · refine ⟨_, List.mem_cons_self, ?_⟩
      rw [UInt8.toNat_ofNat']
      omega
    · refine ⟨_, List.mem_cons_self, ?_⟩
      rw [UInt8.toNat_ofNat']
      omega

theorem pairValue_lt {u v : UInt16} (hu : isHigh u = true) (hv : isLow v = true) :
    0x10000 ≤ pairValue u v ∧ pairValue u v < 0x110000 := by
  simp only [isHigh, isLow, Bool.and_eq_true, decide_eq_true_eq] at hu hv
  unfold pairValue
  omega

theorem ascii_of_unitValue {u : UInt16} (h : ∀ b ∈ scalarBytes (unitValue u), b.toNat < 128) :
    u.toNat < 128 := by
  by_contra hge
  have hrange : 128 ≤ unitValue u ∧ unitValue u < 0x110000 := by
    have := u.toNat_lt
    unfold unitValue
    split <;> omega
  obtain ⟨b, hb, hbig⟩ := scalarBytes_head hrange.1 hrange.2
  exact absurd (h b hb) (by omega)

/-- A text whose bytes are ASCII is ASCII. -/
theorem ascii_of_utf8 {s : CodeUnits} (h : ∀ b ∈ utf8 s, b.toNat < 128) : Ascii s := by
  induction s using utf8.induct with
  | case1 => exact fun u hu => absurd hu List.not_mem_nil
  | case2 u =>
      intro v hv
      rw [List.mem_singleton.mp hv]
      exact ascii_of_unitValue h
  | case3 u v rest hpair ih =>
      rw [utf8, if_pos hpair] at h
      obtain ⟨hu, hv⟩ := Bool.and_eq_true_iff.mp hpair
      obtain ⟨hlow, hhigh⟩ := pairValue_lt hu hv
      obtain ⟨b, hb, hbig⟩ := scalarBytes_head (by omega) hhigh
      exact absurd (h b (List.mem_append_left _ hb)) (by omega)
  | case4 u v rest hpair ih =>
      rw [utf8, if_neg hpair] at h
      have hu := ascii_of_unitValue fun b hb => h b (List.mem_append_left _ hb)
      have hrest := ih fun b hb => h b (List.mem_append_right _ hb)
      exact fun w hw => by
        rcases List.mem_cons.mp hw with rfl | hw
        · exact hu
        · exact hrest w hw

/-- The bytes of an ASCII text are its units. -/
theorem utf8_ascii {s : CodeUnits} (h : Ascii s) : utf8 s = s.map UInt16.toUInt8 := by
  have hone : ∀ u : UInt16, u.toNat < 128 → scalarBytes (unitValue u) = [u.toUInt8] := by
    intro u hu
    rw [unitValue_ascii hu, scalarBytes, if_pos hu]
    rfl
  induction s using utf8.induct with
  | case1 => rfl
  | case2 u =>
      rw [utf8, hone u (h u List.mem_cons_self)]
      rfl
  | case3 u v rest hpair ih =>
      have hu := h u List.mem_cons_self
      simp only [isHigh, Bool.and_eq_true, decide_eq_true_eq] at hpair
      omega
  | case4 u v rest hpair ih =>
      rw [utf8, if_neg hpair, hone u (h u List.mem_cons_self),
        ih fun w hw => h w (List.mem_cons_of_mem _ hw)]
      rfl

/-- The units of an ASCII text, from its bytes. -/
theorem map_utf8 {s : CodeUnits} (h : Ascii s) : (utf8 s).map UInt8.toUInt16 = s := by
  have hunit : ∀ c ∈ s, (UInt8.toUInt16 ∘ UInt16.toUInt8) c = id c := by
    intro c hc
    have hlow := h c hc
    rw [Function.comp_apply, id_eq, ← UInt16.toNat_inj, UInt8.toNat_toUInt16, UInt16.toNat_toUInt8]
    omega
  rw [utf8_ascii h, List.map_map, List.map_congr_left hunit, List.map_id]

/-- No other text has the bytes of an ASCII text. -/
theorem eq_of_utf8_eq {s t : CodeUnits} (ht : Ascii t) (h : utf8 s = utf8 t) : s = t := by
  have hs : Ascii s := by
    apply ascii_of_utf8
    rw [h, utf8_ascii ht]
    intro b hb
    obtain ⟨u, hu, rfl⟩ := List.mem_map.mp hb
    have hlow := ht u hu
    rw [UInt16.toNat_toUInt8]
    omega
  rw [← map_utf8 hs, h, map_utf8 ht]

theorem length_scalarBytes {n : ℕ} (h : n < 0x110000) :
    1 ≤ (scalarBytes n).length ∧ (128 ≤ n → 2 ≤ (scalarBytes n).length) ∧
      (0x10000 ≤ n → 4 ≤ (scalarBytes n).length) := by
  unfold scalarBytes
  split
  · simp only [List.length_cons, List.length_nil]
    omega
  · split
    · simp only [List.length_cons, List.length_nil]
      omega
    · split
      · simp only [List.length_cons, List.length_nil]
        omega
      · simp only [List.length_cons, List.length_nil]
        omega

/-- A text has at least as many bytes as units, and more when it is not ASCII. -/
theorem length_utf8 (s : CodeUnits) :
    s.length ≤ (utf8 s).length ∧ (¬ Ascii s → s.length < (utf8 s).length) := by
  have hunit : ∀ u : UInt16, 1 ≤ (scalarBytes (unitValue u)).length ∧
      (¬ u.toNat < 128 → 2 ≤ (scalarBytes (unitValue u)).length) := by
    intro u
    have hlt := u.toNat_lt
    have hvalue : unitValue u < 0x110000 ∧ (¬ u.toNat < 128 → 128 ≤ unitValue u) := by
      unfold unitValue
      split <;> omega
    obtain ⟨hone, htwo, -⟩ := length_scalarBytes hvalue.1
    exact ⟨hone, fun hu => htwo (hvalue.2 hu)⟩
  induction s using utf8.induct with
  | case1 => exact ⟨le_rfl, fun h => absurd (fun u hu => absurd hu List.not_mem_nil) h⟩
  | case2 u =>
      obtain ⟨hone, htwo⟩ := hunit u
      rw [utf8]
      refine ⟨hone, fun h => htwo fun hu => h fun w hw => ?_⟩
      rwa [List.mem_singleton.mp hw]
  | case3 u v rest hpair ih =>
      obtain ⟨hu, hv⟩ := Bool.and_eq_true_iff.mp hpair
      obtain ⟨hlow, hhigh⟩ := pairValue_lt hu hv
      have hfour := (length_scalarBytes hhigh).2.2 hlow
      have hle := ih.1
      rw [utf8, if_pos hpair, List.length_append, List.length_cons, List.length_cons]
      constructor
      · omega
      · intro _
        omega
  | case4 u v rest hpair ih =>
      obtain ⟨hone, htwo⟩ := hunit u
      obtain ⟨hle, hlt⟩ := ih
      rw [utf8, if_neg hpair, List.length_append]
      rw [List.length_cons] at hle hlt ⊢
      rw [List.length_cons]
      refine ⟨by omega, fun h => ?_⟩
      by_cases hu : u.toNat < 128
      · have hrest := hlt fun hrest => h (List.forall_mem_cons.mpr ⟨hu, hrest⟩)
        omega
      · have := htwo hu
        omega

/-! ## Reading bytes -/

/-- A sequence that has been started: how many bytes it lacks, the value so far, and the bounds of
the next byte. -/
structure Pending where
  needed : ℕ
  value : ℕ
  lower : ℕ
  upper : ℕ

/-- The first byte of a sequence. -/
def start (b : UInt8) : Option Pending × CodeUnits :=
  let n := b.toNat
  if n < 0x80 then (none, [.ofNat n])
  else if 0xC2 ≤ n ∧ n < 0xE0 then (some ⟨1, n - 0xC0, 0x80, 0xBF⟩, [])
  else if 0xE0 ≤ n ∧ n < 0xF0 then
    (some ⟨2, n - 0xE0, if n = 0xE0 then 0xA0 else 0x80, if n = 0xED then 0x9F else 0xBF⟩, [])
  else if 0xF0 ≤ n ∧ n < 0xF5 then
    (some ⟨3, n - 0xF0, if n = 0xF0 then 0x90 else 0x80, if n = 0xF4 then 0x8F else 0xBF⟩, [])
  else (none, [0xFFFD])

/-- One byte.  A byte that does not go on with the sequence ends it and starts another one. -/
def feed : Option Pending → UInt8 → Option Pending × CodeUnits
  | none, b => start b
  | some p, b =>
      if p.lower ≤ b.toNat ∧ b.toNat ≤ p.upper then
        let value := p.value * 64 + (b.toNat - 0x80)
        if p.needed = 1 then (none, scalarUnits value)
        else (some ⟨p.needed - 1, value, 0x80, 0xBF⟩, [])
      else ((start b).1, 0xFFFD :: (start b).2)

def decodeFrom (p : Option Pending) : List UInt8 → CodeUnits
  | [] => if p.isSome then [0xFFFD] else []
  | b :: rest => (feed p b).2 ++ decodeFrom (feed p b).1 rest

/-- The text of some bytes. -/
def utf8Decode (bytes : List UInt8) : CodeUnits := decodeFrom none bytes

/-- No surrogate stands alone. -/
def wellFormed : CodeUnits → Bool
  | [] => true
  | [u] => !(isHigh u || isLow u)
  | u :: v :: rest =>
      if isHigh u && isLow v then wellFormed rest
      else !(isHigh u || isLow u) && wellFormed (v :: rest)

/-- The bytes of a scalar value are read as its units. -/
theorem decodeFrom_scalarBytes {n : ℕ} (h : n < 0xD800 ∨ 0xE000 ≤ n ∧ n < 0x110000)
    (rest : List UInt8) :
    decodeFrom none (scalarBytes n ++ rest) = scalarUnits n ++ decodeFrom none rest := by
  have hbyte : ∀ k < 256, (UInt8.ofNat k).toNat = k := fun k hk => UInt8.toNat_ofNat_of_lt' hk
  -- a byte within the bounds goes on with the sequence
  have hnext : ∀ (p : Pending) (k : ℕ) (l : List UInt8), k < 256 → p.lower ≤ k → k ≤ p.upper →
      p.needed ≠ 1 → decodeFrom (some p) (UInt8.ofNat k :: l)
        = decodeFrom (some ⟨p.needed - 1, p.value * 64 + (k - 0x80), 0x80, 0xBF⟩) l := by
    intro p k l hk hlow hhigh hneeded
    rw [decodeFrom, feed, hbyte k hk, if_pos ⟨hlow, hhigh⟩, if_neg hneeded]
    rfl
  have hlast : ∀ (p : Pending) (k : ℕ) (l : List UInt8), k < 256 → p.lower ≤ k → k ≤ p.upper →
      p.needed = 1 → decodeFrom (some p) (UInt8.ofNat k :: l)
        = scalarUnits (p.value * 64 + (k - 0x80)) ++ decodeFrom none l := by
    intro p k l hk hlow hhigh hneeded
    rw [decodeFrom, feed, hbyte k hk, if_pos ⟨hlow, hhigh⟩, if_pos hneeded]
  unfold scalarBytes
  split
  · rename_i hlow
    rw [List.singleton_append, decodeFrom, feed, start, hbyte n (by omega), if_pos hlow,
      scalarUnits, if_pos (by omega)]
  · split
    · rw [List.cons_append, List.cons_append, List.nil_append, decodeFrom, feed, start,
        hbyte _ (by omega), if_neg (by omega), if_pos (by omega), List.nil_append,
        hlast _ _ _ (by omega) (by dsimp only; omega) (by dsimp only; omega) rfl]
      dsimp only
      rw [show (0xC0 + n / 64 - 0xC0) * 64 + (0x80 + n % 64 - 0x80) = n by omega]
    · split
      · rw [List.cons_append, List.cons_append, List.cons_append, List.nil_append, decodeFrom, feed,
          start, hbyte _ (by omega), if_neg (by omega), if_neg (by omega), if_pos (by omega),
          List.nil_append, hnext _ _ _ (by omega) (by dsimp only; split <;> omega)
            (by dsimp only; split <;> omega) (by dsimp only; omega),
          hlast _ _ _ (by omega) (by dsimp only; omega) (by dsimp only; omega) rfl]
        dsimp only
        rw [show ((0xE0 + n / 4096 - 0xE0) * 64 + (0x80 + n / 64 % 64 - 0x80)) * 64
          + (0x80 + n % 64 - 0x80) = n by omega]
      · rw [List.cons_append, List.cons_append, List.cons_append, List.cons_append, List.nil_append,
          decodeFrom, feed, start, hbyte _ (by omega), if_neg (by omega), if_neg (by omega),
          if_neg (by omega), if_pos (by omega), List.nil_append,
          hnext _ _ _ (by omega) (by dsimp only; split <;> omega)
            (by dsimp only; split <;> omega) (by dsimp only; omega),
          hnext _ _ _ (by omega) (by dsimp only; omega) (by dsimp only; omega) (by dsimp only; omega),
          hlast _ _ _ (by omega) (by dsimp only; omega) (by dsimp only; omega) rfl]
        dsimp only
        rw [show (((0xF0 + n / 262144 - 0xF0) * 64 + (0x80 + n / 4096 % 64 - 0x80)) * 64
          + (0x80 + n / 64 % 64 - 0x80)) * 64 + (0x80 + n % 64 - 0x80) = n by omega]

theorem scalarUnits_unit {u : UInt16} : scalarUnits u.toNat = [u] := by
  rw [scalarUnits, if_pos u.toNat_lt, UInt16.ofNat_toNat]

theorem scalarUnits_pair {u v : UInt16} (hu : isHigh u = true) (hv : isLow v = true) :
    scalarUnits (pairValue u v) = [u, v] := by
  have hrange := pairValue_lt hu hv
  simp only [isHigh, isLow, Bool.and_eq_true, decide_eq_true_eq] at hu hv
  have hhigh : 0xD800 + (pairValue u v - 0x10000) / 0x400 = u.toNat := by
    unfold pairValue
    omega
  have hlow : 0xDC00 + (pairValue u v - 0x10000) % 0x400 = v.toNat := by
    unfold pairValue
    omega
  rw [scalarUnits, if_neg (by omega), hhigh, hlow, UInt16.ofNat_toNat, UInt16.ofNat_toNat]

/-- A text without lone surrogates is read back from its bytes. -/
theorem utf8Decode_utf8 {s : CodeUnits} (h : wellFormed s = true) : utf8Decode (utf8 s) = s := by
  have hunit : ∀ u : UInt16, (isHigh u || isLow u) = false → ∀ rest,
      decodeFrom none (scalarBytes (unitValue u) ++ rest) = u :: decodeFrom none rest := by
    intro u hu rest
    have hvalue : unitValue u = u.toNat := by
      rw [unitValue, hu]
      rfl
    have hlt := u.toNat_lt
    simp only [isHigh, isLow, Bool.or_eq_false_iff, Bool.and_eq_false_iff,
      decide_eq_false_iff_not] at hu
    rw [hvalue, decodeFrom_scalarBytes (by omega), scalarUnits_unit, List.singleton_append]
  rw [utf8Decode]
  induction s using utf8.induct with
  | case1 => rfl
  | case2 u =>
      rw [wellFormed, Bool.not_eq_true'] at h
      have hbytes := hunit u h []
      rwa [List.append_nil] at hbytes
  | case3 u v rest hpair ih =>
      rw [wellFormed, if_pos hpair] at h
      obtain ⟨hu, hv⟩ := Bool.and_eq_true_iff.mp hpair
      have hrange := pairValue_lt hu hv
      rw [utf8, if_pos hpair, decodeFrom_scalarBytes (by omega), scalarUnits_pair hu hv, ih h]
      rfl
  | case4 u v rest hpair ih =>
      rw [wellFormed, if_neg hpair, Bool.and_eq_true, Bool.not_eq_true'] at h
      rw [utf8, if_neg hpair, hunit u h.1, ih h.2]

/-- An ASCII text has no surrogates. -/
theorem Ascii.wellFormed {s : CodeUnits} (h : Ascii s) : wellFormed s = true := by
  have hunit : ∀ u : UInt16, u.toNat < 128 → (isHigh u || isLow u) = false := by
    intro u hu
    simp only [isHigh, isLow, Bool.or_eq_false_iff, Bool.and_eq_false_iff, decide_eq_false_iff_not]
    omega
  induction s using Utf16.wellFormed.induct with
  | case1 => rfl
  | case2 u => rw [Utf16.wellFormed, hunit u (h u List.mem_cons_self), Bool.not_false]
  | case3 u v rest hpair ih =>
      have hhigh := (Bool.and_eq_true_iff.mp hpair).1
      have hnone := hunit u (h u List.mem_cons_self)
      rw [hhigh] at hnone
      exact nomatch hnone
  | case4 u v rest hpair ih =>
      rw [Utf16.wellFormed, if_neg hpair, hunit u (h u List.mem_cons_self),
        ih fun w hw => h w (List.mem_cons_of_mem _ hw), Bool.not_false, Bool.and_true]

theorem wellFormed_append {s t : CodeUnits} (hs : wellFormed s = true) (ht : wellFormed t = true) :
    wellFormed (s ++ t) = true := by
  induction s using wellFormed.induct with
  | case1 => exact ht
  | case2 u =>
      rw [wellFormed, Bool.not_eq_true', Bool.or_eq_false_iff] at hs
      cases t with
      | nil => rw [List.append_nil, wellFormed, hs.1, hs.2]; rfl
      | cons v t =>
          rw [List.singleton_append, wellFormed, hs.1, hs.2, ht]
          rfl
  | case3 u v rest hpair ih =>
      rw [wellFormed, if_pos hpair] at hs
      rw [List.cons_append, List.cons_append, wellFormed, if_pos hpair, ih hs]
  | case4 u v rest hpair ih =>
      rw [wellFormed, if_neg hpair, Bool.and_eq_true] at hs
      rw [List.cons_append, List.cons_append, wellFormed, if_neg hpair, Bool.and_eq_true]
      exact ⟨hs.1, ih hs.2⟩

/-! ## Texts of strings -/

/-- A scalar value is no surrogate, so its units end where they seem to. -/
theorem scalarUnits_append_inj {n m : ℕ} (hn : n.isValidChar) (hm : m.isValidChar) {s t : CodeUnits}
    (h : scalarUnits n ++ s = scalarUnits m ++ t) : n = m ∧ s = t := by
  have hunit : ∀ {k l : ℕ}, k < 0x10000 → l < 0x10000 → UInt16.ofNat k = UInt16.ofNat l → k = l := by
    intro k l hk hl heq
    have hnat := congrArg UInt16.toNat heq
    rwa [UInt16.toNat_ofNat_of_lt' hk, UInt16.toNat_ofNat_of_lt' hl] at hnat
  unfold Nat.isValidChar at hn hm
  unfold scalarUnits at h
  split at h <;> split at h
  · obtain ⟨hu, hrest⟩ := List.cons.inj h
    exact ⟨hunit (by omega) (by omega) hu, hrest⟩
  · obtain ⟨hu, -⟩ := List.cons.inj h
    have := hunit (by omega) (by omega) hu
    omega
  · obtain ⟨hu, -⟩ := List.cons.inj h
    have := hunit (by omega) (by omega) hu
    omega
  · obtain ⟨hu, htail⟩ := List.cons.inj h
    obtain ⟨hv, hrest⟩ := List.cons.inj htail
    have hhigh := hunit (by omega) (by omega) hu
    have hlow := hunit (by omega) (by omega) hv
    exact ⟨by omega, hrest⟩

theorem scalarUnits_append_ne_nil (n : ℕ) (s : CodeUnits) : scalarUnits n ++ s ≠ [] := by
  unfold scalarUnits
  split <;> exact List.cons_ne_nil _ _

/-- A text comes from one string. -/
theorem ofString_injective : Function.Injective ofString := by
  intro s t h
  unfold ofString at h
  rw [← String.toList_inj]
  generalize s.toList = l at h ⊢
  generalize t.toList = l' at h ⊢
  induction l generalizing l' with
  | nil =>
      cases l' with
      | nil => rfl
      | cons d l' => exact absurd h.symm (scalarUnits_append_ne_nil _ _)
  | cons c l ih =>
      cases l' with
      | nil => exact absurd h (scalarUnits_append_ne_nil _ _)
      | cons d l' =>
          rw [List.flatMap_cons, List.flatMap_cons] at h
          obtain ⟨hcd, hrest⟩ := scalarUnits_append_inj c.valid d.valid h
          rw [Char.toNat_inj.mp hcd, ih l' hrest]

theorem ofString_append (s t : String) : ofString (s ++ t) = ofString s ++ ofString t := by
  rw [ofString, String.toList_append, List.flatMap_append]
  rfl

/-- The characters of a text, with the replacement character for a lone surrogate. -/
def chars : CodeUnits → List Char
  | [] => []
  | [u] => [.ofNat (unitValue u)]
  | u :: v :: rest =>
      if isHigh u && isLow v then .ofNat (pairValue u v) :: chars rest
      else .ofNat (unitValue u) :: chars (v :: rest)

/-- The string of a text. -/
def string (s : CodeUnits) : String := .ofList (chars s)

theorem chars_pair {u v : UInt16} {rest : CodeUnits} (h : (isHigh u && isLow v) = true) :
    chars (u :: v :: rest) = .ofNat (pairValue u v) :: chars rest := by
  rw [chars, if_pos h]

theorem chars_unit {u v : UInt16} {rest : CodeUnits} (h : (isHigh u && isLow v) = false) :
    chars (u :: v :: rest) = .ofNat (unitValue u) :: chars (v :: rest) := by
  rw [chars, h, if_neg Bool.false_ne_true]

/-- The units of a character are read as it. -/
theorem chars_scalarUnits (c : Char) (s : CodeUnits) :
    chars (scalarUnits c.toNat ++ s) = c :: chars s := by
  have hvalid : c.toNat < 0xD800 ∨ 0xDFFF < c.toNat ∧ c.toNat < 0x110000 := c.valid
  have hchar : Char.ofNat c.toNat = c := Char.ofNat_toNat c
  unfold scalarUnits
  split
  · rename_i hlt
    have hunit : (UInt16.ofNat c.toNat).toNat = c.toNat := UInt16.toNat_ofNat_of_lt' hlt
    have hhigh : isHigh (.ofNat c.toNat) = false := by
      simp only [isHigh, hunit, Bool.and_eq_false_iff, decide_eq_false_iff_not]
      omega
    have hlow : isLow (.ofNat c.toNat) = false := by
      simp only [isLow, hunit, Bool.and_eq_false_iff, decide_eq_false_iff_not]
      omega
    have hvalue : unitValue (.ofNat c.toNat) = c.toNat := by
      rw [unitValue, hhigh, hlow, Bool.false_or, if_neg Bool.false_ne_true, hunit]
    cases s with
    | nil =>
        show [Char.ofNat (unitValue (.ofNat c.toNat))] = [c]
        rw [hvalue, hchar]
    | cons v s =>
        rw [List.singleton_append, chars_unit (by rw [hhigh, Bool.false_and]), hvalue, hchar]
  · rename_i hge
    have hu : (UInt16.ofNat (0xD800 + (c.toNat - 0x10000) / 0x400)).toNat
        = 0xD800 + (c.toNat - 0x10000) / 0x400 := UInt16.toNat_ofNat_of_lt' (by
      show _ < 65536
      omega)
    have hv : (UInt16.ofNat (0xDC00 + (c.toNat - 0x10000) % 0x400)).toNat
        = 0xDC00 + (c.toNat - 0x10000) % 0x400 := UInt16.toNat_ofNat_of_lt' (by
      show _ < 65536
      omega)
    have hpair : (isHigh (.ofNat (0xD800 + (c.toNat - 0x10000) / 0x400))
        && isLow (.ofNat (0xDC00 + (c.toNat - 0x10000) % 0x400))) = true := by
      simp only [isHigh, isLow, hu, hv, Bool.and_eq_true, decide_eq_true_eq]
      omega
    have hvalue : pairValue (.ofNat (0xD800 + (c.toNat - 0x10000) / 0x400))
        (.ofNat (0xDC00 + (c.toNat - 0x10000) % 0x400)) = c.toNat := by
      unfold pairValue
      generalize (UInt16.ofNat (0xD800 + (c.toNat - 0x10000) / 0x400)).toNat = n at hu ⊢
      generalize (UInt16.ofNat (0xDC00 + (c.toNat - 0x10000) % 0x400)).toNat = m at hv ⊢
      omega
    rw [List.cons_append, List.singleton_append, chars_pair hpair, hvalue, hchar]

/-- A string is read back from its text. -/
theorem string_ofString (s : String) : string (ofString s) = s := by
  have hchars : ∀ l : List Char, chars (l.flatMap fun c => scalarUnits c.toNat) = l := by
    intro l
    induction l with
    | nil => rfl
    | cons c l ih => rw [List.flatMap_cons, chars_scalarUnits, ih]
  rw [string, ofString, hchars, String.ofList_toList]

end Utf16
