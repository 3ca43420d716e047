/-
# Bytes as base64url texts

The URL-safe base 64 without padding: three bytes become four characters, of which the alphabet
is ASCII and has no point.  The decoder is lenient as the platform's is: it takes both alphabets,
skips other characters and stops at an equals sign.  It reads back what was encoded
(`decode_encode`).
-/
import Astrea.Utf16
import Mathlib.Data.List.TakeWhile

namespace Base64url

open Utf16

/-- The character of a six-bit value. -/
def digit (n : ℕ) : UInt16 :=
  if n < 26 then .ofNat (65 + n)
  else if n < 52 then .ofNat (71 + n)
  else if n < 62 then .ofNat (n - 4)
  else if n = 62 then 45 else 95

/-- The six-bit value of a character of either alphabet. -/
def sextet (u : UInt16) : Option ℕ :=
  let n := u.toNat
  if 65 ≤ n ∧ n ≤ 90 then some (n - 65)
  else if 97 ≤ n ∧ n ≤ 122 then some (n - 71)
  else if 48 ≤ n ∧ n ≤ 57 then some (n + 4)
  else if n = 45 ∨ n = 43 then some 62
  else if n = 95 ∨ n = 47 then some 63
  else none

/-- The six-bit values of some bytes, the last one filled up with zeros. -/
def sextets : List UInt8 → List ℕ
  | [] => []
  | [a] => [a.toNat / 4, a.toNat % 4 * 16]
  | [a, b] => [a.toNat / 4, a.toNat % 4 * 16 + b.toNat / 16, b.toNat % 16 * 4]
  | a :: b :: c :: rest =>
      a.toNat / 4 :: (a.toNat % 4 * 16 + b.toNat / 16) :: (b.toNat % 16 * 4 + c.toNat / 64)
        :: c.toNat % 64 :: sextets rest

def encode (bytes : List UInt8) : CodeUnits := (sextets bytes).map digit

/-- The bytes of some six-bit values; what is left of an incomplete byte is dropped. -/
def ofSextets : List ℕ → List UInt8
  | a :: b :: c :: d :: rest =>
      .ofNat (a * 4 + b / 16) :: .ofNat (b % 16 * 16 + c / 4) :: .ofNat (c % 4 * 64 + d)
        :: ofSextets rest
  | [a, b, c] => [.ofNat (a * 4 + b / 16), .ofNat (b % 16 * 16 + c / 4)]
  | [a, b] => [.ofNat (a * 4 + b / 16)]
  | _ => []

def decode (s : CodeUnits) : List UInt8 := ofSextets ((s.takeWhile (· ≠ 61)).filterMap sextet)

/-! ## The alphabet -/

theorem sextets_lt (bytes : List UInt8) : ∀ n ∈ sextets bytes, n < 64 := by
  induction bytes using sextets.induct with
  | case1 => exact fun n hn => absurd hn List.not_mem_nil
  | case2 a =>
      have ha := a.toNat_lt
      simp only [sextets, List.forall_mem_cons, List.not_mem_nil, false_imp_iff, implies_true,
        and_true]
      omega
  | case3 a b =>
      have ha := a.toNat_lt
      have hb := b.toNat_lt
      simp only [sextets, List.forall_mem_cons, List.not_mem_nil, false_imp_iff, implies_true,
        and_true]
      omega
  | case4 a b c rest ih =>
      have ha := a.toNat_lt
      have hb := b.toNat_lt
      have hc := c.toNat_lt
      simp only [sextets, List.forall_mem_cons]
      exact ⟨by omega, by omega, by omega, by omega, ih⟩

theorem digit_spec : ∀ n < 64, sextet (digit n) = some n ∧ digit n ≠ 61 ∧ digit n ≠ 46 ∧
    (digit n).toNat < 128 := by
  decide +kernel

/-- An encoded text is ASCII. -/
theorem encode_ascii (bytes : List UInt8) : Ascii (encode bytes) := by
  intro u hu
  obtain ⟨n, hn, rfl⟩ := List.mem_map.mp hu
  exact (digit_spec n (sextets_lt bytes n hn)).2.2.2

/-- An encoded text has no point. -/
theorem not_mem_encode (bytes : List UInt8) : 46 ∉ encode bytes := by
  intro hu
  obtain ⟨n, hn, heq⟩ := List.mem_map.mp hu
  exact (digit_spec n (sextets_lt bytes n hn)).2.2.1 heq

/-- The encoded length. -/
theorem length_encode (bytes : List UInt8) : (encode bytes).length = (4 * bytes.length + 2) / 3 := by
  rw [encode, List.length_map]
  induction bytes using sextets.induct with
  | case1 => rfl
  | case2 a => simp only [sextets, List.length_cons, List.length_nil]
  | case3 a b => simp only [sextets, List.length_cons, List.length_nil]
  | case4 a b c rest ih =>
      simp only [sextets, List.length_cons, ih]
      omega

/-! ## The round trip -/

theorem ofSextets_sextets (bytes : List UInt8) : ofSextets (sextets bytes) = bytes := by
  have hbyte : ∀ (b : UInt8) (n : ℕ), n = b.toNat → UInt8.ofNat n = b := by
    rintro b n rfl
    exact UInt8.ofNat_toNat
  induction bytes using sextets.induct with
  | case1 => rfl
  | case2 a => rw [sextets, ofSextets, hbyte a _ (by omega)]
  | case3 a b =>
      have hb := b.toNat_lt
      rw [sextets, ofSextets, hbyte a _ (by omega), hbyte b _ (by omega)]
  | case4 a b c rest ih =>
      have hb := b.toNat_lt
      have hc := c.toNat_lt
      rw [sextets, ofSextets, ih, hbyte a _ (by omega), hbyte b _ (by omega),
        hbyte c _ (by omega)]

/-- The decoder reads back what was encoded. -/
theorem decode_encode (bytes : List UInt8) : decode (encode bytes) = bytes := by
  have hstop : (encode bytes).takeWhile (· ≠ 61) = encode bytes := by
    rw [List.takeWhile_eq_self_iff]
    intro u hu
    obtain ⟨n, hn, rfl⟩ := List.mem_map.mp hu
    exact decide_eq_true (digit_spec n (sextets_lt bytes n hn)).2.1
  have hvalues : (encode bytes).filterMap sextet = sextets bytes := by
    rw [encode, List.filterMap_map, List.filterMap_congr (g := some), List.filterMap_some]
    intro n hn
    exact (digit_spec n (sextets_lt bytes n hn)).1
  rw [decode, hstop, hvalues, ofSextets_sextets]

end Base64url
