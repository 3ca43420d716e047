/-
# An `i128` as an `int64`

`EncodeI128` extends the sign of an `int64` into the high word, for every `int64`.
`DecodeI128ToInt64` wants the high word to be zero, so it takes every value that fits and is not
negative, exactly, and refuses the negative values as ones that do not fit.
-/
import Astrea.ContractArgs
import Astrea.Pipeline

open Guard Service

namespace Soroban

/-! ## Words and their values -/

/-- The values of an `int64`. -/
def InInt64 (z : ℤ) : Prop := -9223372036854775808 ≤ z ∧ z < 9223372036854775808

instance (z : ℤ) : Decidable (InInt64 z) := inferInstanceAs (Decidable (_ ∧ _))

theorem inInt64_toInt (v : Int64) : InInt64 v.toInt := ⟨v.le_toInt, v.toInt_lt⟩

/-- `uint64(v)`. -/
theorem toNat_toUInt64 (v : Int64) :
    (v.toUInt64.toNat : ℤ) = if v.toInt < 0 then v.toInt + 18446744073709551616 else v.toInt := by
  have hcond := BitVec.toInt_eq_toNat_cond v.toBitVec
  have hlt := v.toBitVec.isLt
  show (v.toBitVec.toNat : ℤ) =
    if v.toBitVec.toInt < 0 then v.toBitVec.toInt + 18446744073709551616 else v.toBitVec.toInt
  rw [hcond]
  split <;> split <;> omega

/-- `int64(u)` of a word in the lower half. -/
theorem toInt_toInt64 {u : UInt64} (h : u.toNat < 9223372036854775808) :
    u.toInt64.toInt = u.toNat := by
  show u.toBitVec.toInt = u.toBitVec.toNat
  rw [BitVec.toInt_eq_toNat_cond]
  have hlow : u.toBitVec.toNat < 9223372036854775808 := h
  exact if_pos (by omega)

/-- An `int64` is encoded to its own value, whatever its sign. -/
theorem encodeI128_toInt (v : Int64) :
    ∃ parts, encodeI128 v = .i128 parts ∧ parts.toInt = v.toInt := by
  refine ⟨_, rfl, ?_⟩
  show (if v < 0 then (-1 : Int64) else 0).toInt * 18446744073709551616
    + (v.toUInt64.toNat : ℤ) = v.toInt
  rw [toNat_toUInt64]
  by_cases hneg : v < 0
  · have hlt : v.toInt < 0 := Int64.lt_iff_toInt_lt.mp hneg
    have hminus : ((-1 : Int64)).toInt = -1 := rfl
    rw [if_pos hneg, if_pos hlt, hminus]
    omega
  · have hle : ¬ v.toInt < 0 := fun hlt => hneg (Int64.lt_iff_toInt_lt.mpr hlt)
    rw [if_neg hneg, if_neg hle, Int64.toInt_zero]
    omega

/-! ## What the decoder accepts -/

theorem decodeI128ToInt64_eq_ok {parts : Int128Parts} {n : Int64} :
    decodeI128ToInt64 (.i128 parts) = .ok n ↔
      parts.hi = 0 ∧ parts.lo ≤ 9223372036854775807 ∧ parts.lo.toInt64 = n := by
  simp only [decodeI128ToInt64, bind_eq_ok, ensure_eq_ok, exists_const, pure_eq_ok]

/-- The two words pass their checks exactly for the values that fit and are not negative. -/
theorem words_pass_iff (parts : Int128Parts) :
    parts.hi = 0 ∧ parts.lo ≤ 9223372036854775807 ↔
      0 ≤ parts.toInt ∧ parts.toInt < 9223372036854775808 := by
  have hlo := parts.lo.toNat_lt
  rw [← Int64.toInt_inj, UInt64.le_iff_toNat_le, Int64.toInt_zero]
  have hmax : (9223372036854775807 : UInt64).toNat = 9223372036854775807 := rfl
  rw [hmax, Int128Parts.toInt]
  omega

/-- What is decoded is the value. -/
theorem decodeI128ToInt64_value {parts : Int128Parts} {n : Int64}
    (h : decodeI128ToInt64 (.i128 parts) = .ok n) : n.toInt = parts.toInt := by
  obtain ⟨hhi, hlo, rfl⟩ := decodeI128ToInt64_eq_ok.mp h
  have hsmall : parts.lo.toNat ≤ 9223372036854775807 := UInt64.le_iff_toNat_le.mp hlo
  rw [toInt_toInt64 (by omega), Int128Parts.toInt, hhi, Int64.toInt_zero]
  omega

theorem decodeI128ToInt64_succeeds (parts : Int128Parts) :
    (∃ n, decodeI128ToInt64 (.i128 parts) = .ok n) ↔
      0 ≤ parts.toInt ∧ parts.toInt < 9223372036854775808 := by
  rw [← words_pass_iff]
  constructor
  · rintro ⟨n, h⟩
    obtain ⟨hhi, hlo, -⟩ := decodeI128ToInt64_eq_ok.mp h
    exact ⟨hhi, hlo⟩
  · rintro ⟨hhi, hlo⟩
    exact ⟨_, decodeI128ToInt64_eq_ok.mpr ⟨hhi, hlo, rfl⟩⟩

/-! ## Where it is exact -/

/-- The decoder is exact on a value: it succeeds if and only if the value is one of an `int64`, and
with that value. -/
def Exact (parts : Int128Parts) : Prop :=
  ((∃ n, decodeI128ToInt64 (.i128 parts) = .ok n) ↔ InInt64 parts.toInt) ∧
    ∀ n, decodeI128ToInt64 (.i128 parts) = .ok n → n.toInt = parts.toInt

/-- An `int64` is given back exactly when it is not negative. -/
theorem decode_encode_iff (v : Int64) : decodeI128ToInt64 (encodeI128 v) = .ok v ↔ 0 ≤ v := by
  obtain ⟨parts, hencode, hvalue⟩ := encodeI128_toInt v
  rw [hencode, Int64.le_iff_toInt_le, Int64.toInt_zero]
  constructor
  · intro h
    rw [← hvalue]
    exact ((decodeI128ToInt64_succeeds parts).mp ⟨v, h⟩).1
  · intro hnonneg
    have hlt := v.toInt_lt
    obtain ⟨n, hn⟩ := (decodeI128ToInt64_succeeds parts).mpr (by rw [hvalue]; omega)
    rw [hn, Int64.toInt_inj.mp ((decodeI128ToInt64_value hn).trans hvalue)]

/-- The decoder is exact on all but the negative values of an `int64`, gives back the `int64`s that
are not negative, and truncates nothing. -/
theorem decodeI128_exact_iff (parts : Int128Parts) (v : Int64) :
    (Exact parts ↔ ¬ (InInt64 parts.toInt ∧ parts.toInt < 0)) ∧
      (decodeI128ToInt64 (encodeI128 v) = .ok v ↔ 0 ≤ v) ∧
      ∀ n : Int64, decodeI128ToInt64 (.i128 parts) = .ok n → n.toInt = parts.toInt := by
  refine ⟨?_, decode_encode_iff v, fun n => decodeI128ToInt64_value⟩
  rw [Exact, decodeI128ToInt64_succeeds, InInt64]
  constructor
  · rintro ⟨hiff, -⟩ ⟨hfits, hneg⟩
    exact absurd (hiff.mpr hfits).1 (not_le.mpr hneg)
  · intro hnot
    refine ⟨?_, fun n => decodeI128ToInt64_value⟩
    omega

/-- `-1` is an `int64`, and is refused as one that does not fit. -/
theorem decodeI128_negative :
    decodeI128ToInt64 (encodeI128 (-1)) =
        .error ⟨"escrow: i128 value does not fit in int64 (hi=%d lo=%d)",
          [.int (-1), .int 18446744073709551615]⟩ ∧
      ¬ Exact ⟨-1, 18446744073709551615⟩ := by
  refine ⟨by decide, ?_⟩
  intro h
  obtain ⟨n, hn⟩ := h.1.mpr ⟨by decide, by decide⟩
  exact absurd (decodeI128ToInt64_eq_ok.mp hn).1 (by decide)

end Soroban
