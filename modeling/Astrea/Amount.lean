/-
# Amounts and messages of the Go service

The service's texts are Go strings, sequences of bytes.  An amount arrives as the text of
a `Decimal(18,7)` and becomes a whole number of stroops by exact digit arithmetic; paid
amounts are rendered back as text.  An error text is kept as its format with the
arguments that fill it.
-/
import Astrea.Transaction

open Guard

namespace Service

/-- A Go string. -/
abbrev GoString : Type := List UInt8

/-- The bytes of a literal. -/
def bytes (s : String) : GoString := s.toUTF8.data.toList

/-- An argument of a format. -/
inductive Arg where
  | int (z : ℤ)
  | str (s : GoString)
  | text (s : String)
  | address (a : Address)
  | muxedAddress (id : UInt64) (key : BitVec 256)
  | hash (h : TxHash)
  deriving DecidableEq

/-- What `fmt.Errorf` and `fmt.Sprintf` are given: a format and its arguments. -/
structure Message where
  format : String
  args : List Arg
  deriving DecidableEq

/-- `fmt.Errorf(format + "%w", args..., err)`: the wrapped error fills the end. -/
def Message.wrap (format : String) (args : List Arg) (err : Message) : Message :=
  ⟨format ++ err.format, args ++ err.args⟩

/-! ## Text to stroops -/

/-- The fixed scale of a token's smallest unit, `10^7`. -/
def stroopsPerUnit : Int64 := 10000000

def isDigit (c : UInt8) : Bool := 48 ≤ c && c ≤ 57

/-- Every rune is a digit; a digit is one byte and no other rune contains its byte. -/
def isDigits (s : GoString) : Bool := s.all isDigit

/-- The number a digit string denotes. -/
def digitsValue (s : GoString) : ℕ := s.foldl (fun n c => 10 * n + (c.toNat - 48)) 0

/-- `strconv.ParseInt(s, 10, 64)` of a digit string. -/
def parseInt64 (s : GoString) : Option Int64 :=
  if digitsValue s < 9223372036854775808 then some (Int64.ofNat (digitsValue s)) else none

/-- `strings.TrimPrefix(s, "+")`. -/
def trimPlus : GoString → GoString
  | 43 :: s => s
  | s => s

/-- What stands before the first point and what stands after it. -/
def splitPoint (s : GoString) : GoString × GoString :=
  (s.takeWhile (· ≠ 46), (s.dropWhile (· ≠ 46)).drop 1)

def amountToStroops (decimalText : GoString) : Except Message Int64 := do
  ensure (decimalText ≠ []) ⟨"escrow: amount is empty", []⟩
  ensure (decimalText.head? ≠ some 45) ⟨"escrow: amount %q must be positive", [.str decimalText]⟩
  let (intPart, fracPart) := splitPoint (trimPlus decimalText)
  ensure (intPart ≠ [] ∧ isDigits intPart = true)
    ⟨"escrow: amount %q is not a valid decimal number", [.str decimalText]⟩
  ensure (fracPart.length ≤ 7)
    ⟨"escrow: amount %q has more than 7 decimal places", [.str decimalText]⟩
  ensure (fracPart = [] ∨ isDigits fracPart = true)
    ⟨"escrow: amount %q is not a valid decimal number", [.str decimalText]⟩
  let digits := intPart ++ fracPart ++ List.replicate (7 - fracPart.length) 48
  let stroops ← expect (parseInt64 digits)
    (.wrap "escrow: amount %q overflows int64 stroops: " [.str decimalText]
      ⟨"strconv.ParseInt: parsing %q: value out of range", [.str digits]⟩)
  ensure (0 < stroops) ⟨"escrow: amount %q must be positive", [.str decimalText]⟩
  return stroops

/-! ## Stroops to text -/

/-- `%d` of a natural number. -/
def formatNat (n : ℕ) : GoString := (Nat.toDigits 10 n).map fun c => c.toNat.toUInt8

/-- `%0wd`: the sign, then zeros up to the width, then the digits. -/
def formatPadded (width : ℕ) (z : ℤ) : GoString :=
  let digits := formatNat z.natAbs
  if z < 0 then 45 :: (List.replicate (width - 1 - digits.length) 48 ++ digits)
  else List.replicate (width - digits.length) 48 ++ digits

def stroopsToAmount (stroops : Int64) : GoString :=
  let neg : Bool := stroops < 0
  let stroops := if neg then -stroops else stroops
  let whole := stroops / stroopsPerUnit
  let frac := stroops % stroopsPerUnit
  let s := formatPadded 0 whole.toInt ++ 46 :: formatPadded 7 frac.toInt
  if neg then 45 :: s else s

example : stroopsToAmount 10000000001 = bytes "1000.0000001" := by decide +kernel

/-! ## What a successful conversion gives -/

/-- A converted amount is positive. -/
theorem amountToStroops_pos {s : GoString} {n : Int64} (h : amountToStroops s = .ok n) :
    0 < n := by
  simp only [amountToStroops, bind_eq_ok, ensure_eq_ok, expect_eq_ok, exists_const,
    pure_eq_ok] at h
  obtain ⟨-, -, -, -, -, m, -, hpos, rfl⟩ := h
  exact hpos

end Service
