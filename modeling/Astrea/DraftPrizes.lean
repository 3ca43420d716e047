/-
# The prizes of a draft

The web application takes the prizes of a draft event as texts.  It trims each, accepts
digits with a fraction of at most seven places and a positive value, and ranks them by
position, however many there are.  The table keeps the amount as a `Decimal(18,7)`, whose
text is that of the stroops the form read.
-/
import Astrea.AmountText
import Astrea.StoreRelease

open Guard

namespace Service

/-! ## The form -/

/-- A JavaScript string, a sequence of UTF-16 code units. -/
abbrev JsString : Type := List UInt16

/-- The code units of a literal. -/
def jsText (s : String) : JsString := s.toList.map fun c => c.toNat.toUInt16

/-- The white space and line ends that `trim` strips. -/
def isJsSpace (c : UInt16) : Bool :=
  (9 ≤ c && c ≤ 13) || c == 32 || c == 160 || c == 5760 || (8192 ≤ c && c ≤ 8202) ||
    c == 8232 || c == 8233 || c == 8239 || c == 8287 || c == 12288 || c == 65279

/-- `raw.trim()`. -/
def trim (raw : JsString) : JsString :=
  ((raw.dropWhile isJsSpace).reverse.dropWhile isJsSpace).reverse

def isJsDigit (c : UInt16) : Bool := 48 ≤ c && c ≤ 57

/-- `BigInt(s)` of a digit string. -/
def bigInt (s : JsString) : ℕ := s.foldl (fun n c => 10 * n + (c.toNat - 48)) 0

/-- What `DECIMAL` captures: the digits before the point and those after it. -/
def matchDecimal (s : JsString) : Option (JsString × JsString) :=
  let whole := s.takeWhile isJsDigit
  match s.dropWhile isJsDigit with
  | [] => if whole = [] then none else some (whole, [])
  | point :: frac =>
      if whole ≠ [] ∧ point = 46 ∧ frac ≠ [] ∧ frac.length ≤ 7 ∧ frac.all isJsDigit = true then
        some (whole, frac)
      else none

/-- The positive whole number of stroops a text stands for. -/
def parseUsdcAmount (raw : JsString) : Option ℕ := do
  let (whole, frac) ← matchDecimal (trim raw)
  let frac := if frac = [] then 0 else bigInt (frac ++ List.replicate (7 - frac.length) 48)
  let stroops := bigInt whole * 10 ^ 7 + frac
  if 0 < stroops then some stroops else none

/-- How the prizes of a draft are refused. -/
inductive CreateDraftError where
  | noPrizes
  | invalidPrize (row : ℕ)
  deriving DecidableEq

/-- A prize of a draft, as it is handed to the table. -/
structure PrizeDraft where
  rank : ℕ
  amount : JsString
  deriving DecidableEq

/-- The prizes from index `i` on. -/
def draftPrizesFrom (i : ℕ) : List JsString → Except CreateDraftError (List PrizeDraft)
  | [] => .ok []
  | raw :: rest => do
      let amount := trim raw
      ensure (parseUsdcAmount amount ≠ none) (.invalidPrize (i + 1))
      let prizes ← draftPrizesFrom (i + 1) rest
      return ⟨i + 1, amount⟩ :: prizes

/-- The prizes `createDraftEvent` makes of the texts of the form. -/
def draftPrizes (raws : List JsString) : Except CreateDraftError (List PrizeDraft) := do
  ensure (raws ≠ []) .noPrizes
  draftPrizesFrom 0 raws

/-! ## The table -/

/-- The rank and amount the table keeps, when the rank is an `integer` and the amount a
`Decimal(18,7)`. -/
def PrizeDraft.row (d : PrizeDraft) : Option (Int64 × GoString) := do
  let n ← parseUsdcAmount d.amount
  if d.rank < 2 ^ 31 ∧ n < 10 ^ 18 then some (Int64.ofNat d.rank, decimalText n) else none

example : (draftPrizes [jsText " 2.5 ", jsText "007"]).toOption.map (·.map PrizeDraft.row)
    = some [some (1, bytes "2.5000000"), some (2, bytes "7.0000000")] := by
  decide +kernel

/-! ## The accepted amounts -/

/-- Trimming twice is trimming once. -/
theorem trim_trim (raw : JsString) : trim (trim raw) = trim raw := by
  have hfront : (trim raw).dropWhile isJsSpace = trim raw := by
    cases htrim : trim raw with
    | nil => rfl
    | cons c rest =>
        -- what is left of the front begins as it did before the end was cut
        have hprefix : trim raw <+: raw.dropWhile isJsSpace := by
          rw [← List.reverse_suffix, trim, List.reverse_reverse]
          exact List.dropWhile_suffix _
        obtain ⟨tail, htail⟩ := hprefix
        rw [htrim] at htail
        have hhead := List.head?_dropWhile_not isJsSpace raw
        rw [← htail, List.cons_append, List.head?_cons] at hhead
        rw [List.dropWhile_cons_of_neg (by simpa using hhead)]
  have hback : (trim raw).reverse.dropWhile isJsSpace = (trim raw).reverse := by
    rw [trim, List.reverse_reverse]
    exact List.dropWhile_eq_self_iff.mpr (List.dropWhile_get_zero_not _ _)
  rw [trim, hfront, hback, List.reverse_reverse]

theorem parseUsdcAmount_trim (raw : JsString) :
    parseUsdcAmount (trim raw) = parseUsdcAmount raw := by
  rw [parseUsdcAmount, parseUsdcAmount, trim_trim]

theorem parseUsdcAmount_pos {raw : JsString} {n : ℕ} (h : parseUsdcAmount raw = some n) :
    0 < n := by
  simp only [parseUsdcAmount, Option.bind_eq_bind, Option.bind_eq_some_iff] at h
  obtain ⟨parts, -, h⟩ := h
  rw [Option.ite_none_right_eq_some] at h
  obtain ⟨hpos, heq⟩ := h
  rwa [Option.some_inj.mp heq] at hpos

/-- The amounts of the form, in stroops. -/
def draftAmounts (raws : List JsString) : List ℕ := raws.filterMap parseUsdcAmount

/-- The rows the table keeps for accepted prizes: the amounts of the form, ranked from
`i + 1` on. -/
theorem draftPrizesFrom_rows {i : ℕ} {raws : List JsString} {drafts : List PrizeDraft}
    {rows : List (Int64 × GoString)} (h : draftPrizesFrom i raws = .ok drafts)
    (hrows : drafts.map PrizeDraft.row = rows.map some) :
    rows.map Prod.snd = (draftAmounts raws).map decimalText ∧
      rows.map Prod.fst = (List.range' (i + 1) raws.length).map Int64.ofNat ∧
      (∀ n ∈ draftAmounts raws, 0 < n ∧ n < 10 ^ 18) ∧
      ∀ k ∈ List.range' (i + 1) raws.length, k < 2 ^ 31 := by
  induction raws generalizing i drafts rows with
  | nil =>
      obtain rfl := Except.ok.inj h
      obtain rfl := List.map_eq_nil_iff.mp hrows.symm
      exact ⟨rfl, rfl, fun n hn => absurd hn List.not_mem_nil,
        fun k hk => absurd hk List.not_mem_nil⟩
  | cons raw raws ih =>
      simp only [draftPrizesFrom, bind_eq_ok, ensure_eq_ok, exists_const, pure_eq_ok] at h
      obtain ⟨-, rest, hrest, rfl⟩ := h
      obtain ⟨row, rows, rfl, hrow, hrestRows⟩ := List.map_eq_cons_iff.mp hrows.symm
      obtain ⟨hamounts, hranks, hbounds, hfit⟩ := ih hrest hrestRows.symm
      have hrow := hrow.symm
      simp only [PrizeDraft.row, parseUsdcAmount_trim, Option.bind_eq_bind,
        Option.bind_eq_some_iff, Option.ite_none_right_eq_some] at hrow
      obtain ⟨n, hn, hin, hrow⟩ := hrow
      obtain rfl := Option.some_inj.mp hrow
      have hcons : draftAmounts (raw :: raws) = n :: draftAmounts raws :=
        List.filterMap_cons_some hn
      rw [hcons, List.length_cons, List.range'_succ]
      simp only [List.map_cons, List.forall_mem_cons]
      exact ⟨by rw [hamounts], by rw [hranks], ⟨⟨parseUsdcAmount_pos hn, hin.2⟩, hbounds⟩,
        hin.1, hfit⟩

end Service
