/-
# Two classifications of one trustline

The web application asks Horizon for a trustline when a participant registers, the service when
a release is built.  Both look at the first line of the asset.  The page subtracts in unbounded
integers and the service in `int64`, which wraps: they agree on every well-formed answer except
where the balance and the buying liabilities exceed the limit by more than `2^63` stroops
(`trustlines_agree`), which is never so of a trustline on the ledger (`horizon_reflects`).
-/
import Astrea.RewardSum
import Astrea.TrustlineGuard

open Guard Service

namespace Trustline

/-! ## The web application -/

/-- What the page throws: `horizon: malformed amount "${value}"`, or Horizon's own error. -/
inductive PageError where
  | malformedAmount (value : JsString)
  | horizon (err : Message)
  deriving DecidableEq

def toStroops : Option JsString → Except PageError ℕ
  | none => .ok 0
  | some value =>
      if value = [] then .ok 0
      else
        match matchDecimal value with
        | none => .error (.malformedAmount value)
        | some (whole, frac) =>
            .ok (bigInt whole * 10 ^ 7 + bigInt (frac ++ List.replicate (7 - frac.length) 48))

/-- The page's `trustlineHeadroom`. -/
def pageHeadroom (limit balance buyingLiabilities : Option JsString) : Except PageError ℤ := do
  let limit ← toStroops limit
  let balance ← toStroops balance
  let buyingLiabilities ← toStroops buyingLiabilities
  return limit - balance - buyingLiabilities

/-- The page's check of an account, over what Horizon answers. -/
def hasUsdcTrustline (symbol issuer : JsString) : HorizonAnswer → Except PageError Bool
  | .account lines =>
      match lines.find? fun b =>
          b.assetCode.map jsOf = some symbol && b.assetIssuer.map jsOf = some issuer with
      | none => .ok false
      | some line =>
          if line.isAuthorized ≠ some true then .ok false
          else
            match pageHeadroom (line.limit.map jsOf) (line.balance.map jsOf)
                (line.buyingLiabilities.map jsOf) with
            | .ok headroom => .ok (0 < headroom)
            | .error err => .error err
  | .problem status err => if status = 404 then .ok false else .error (.horizon err)
  | .failed err => .error (.horizon err)

/-! ## Well-formed answers -/

/-- The field is absent, and stands for nothing, or spells `n` stroops. -/
def FieldSpells : Option GoString → ℕ → Prop
  | none, n => n = 0
  | some s, n => Spells (jsOf s) n

/-- The field is absent, or spells a number of stroops below `2^63`. -/
def AmountField (s : Option GoString) : Prop := ∃ n, FieldSpells s n ∧ n < 2 ^ 63

/-- A native line, a line of pool shares, or a line of a credit asset. -/
inductive WellFormedLine (b : HorizonLine) : Prop
  | native (type : b.assetType = bytes "native") (code : b.assetCode = none)
      (issuer : b.assetIssuer = none)
  | poolShares (type : b.assetType = bytes "liquidity_pool_shares") (code : b.assetCode = none)
      (issuer : b.assetIssuer = none)
  | credit (type : b.assetType ∈ [bytes "credit_alphanum4", bytes "credit_alphanum12"])
      (code : b.assetCode ≠ none) (issuer : b.assetIssuer ≠ none) (limit : AmountField b.limit)
      (balance : AmountField b.balance) (buyingLiabilities : AmountField b.buyingLiabilities)

/-- Well-formed lines, or no account. -/
inductive WellFormedAnswer : HorizonAnswer → Prop
  | account {lines : List HorizonLine} (h : ∀ b ∈ lines, WellFormedLine b) :
      WellFormedAnswer (.account lines)
  | notFound (err : Message) : WellFormedAnswer (.problem 404 err)

/-- The SDK parses a plain decimal below `2^63` stroops exactly. -/
def ParsesDecimals (parseAmount : GoString → Except Message Int64) : Prop :=
  ∀ s n, Spells (jsOf s) n → n < 2 ^ 63 → parseAmount s = .ok (Int64.ofNat n)

/-! ## Fields -/

/-- The page reads a field exactly. -/
theorem toStroops_of_spells {s : Option GoString} {n : ℕ} (h : FieldSpells s n) :
    toStroops (s.map jsOf) = .ok n := by
  cases s with
  | none =>
      rw [show n = 0 from h]
      rfl
  | some s =>
      have hne : jsOf s ≠ [] := Spells.ne_nil h
      obtain ⟨whole, frac, hwhole, hdigits, hfrac, hplaces, hs, rfl⟩ := (h : Spells (jsOf s) n)
      rw [Option.map_some, toStroops, if_neg hne, hs,
        matchDecimal_spelled hwhole hdigits hfrac hplaces]
      simp only [bigInt_spelled whole hplaces]

/-- A field spells one number. -/
theorem FieldSpells.unique {s : Option GoString} {n m : ℕ} (hn : FieldSpells s n)
    (hm : FieldSpells s m) : n = m :=
  Except.ok.inj ((toStroops_of_spells hn).symm.trans (toStroops_of_spells hm))

variable {parseAmount : GoString → Except Message Int64}

/-- The service reads a field exactly. -/
theorem fieldStroops_of_spells (hparse : ParsesDecimals parseAmount) {s : Option GoString} {n : ℕ}
    (h : FieldSpells s n) (hlt : n < 2 ^ 63) :
    fieldStroops parseAmount (s.getD []) = .ok (Int64.ofNat n) := by
  cases s with
  | none =>
      rw [show n = 0 from h]
      rfl
  | some s =>
      have hne : s ≠ [] := by
        rintro rfl
        exact Spells.ne_nil h rfl
      rw [Option.getD_some, fieldStroops, if_neg hne, hparse s n h hlt]

/-- The clamp at zero. -/
theorem toInt_max_zero (n : Int64) : (max n 0).toInt = max n.toInt 0 := by
  rw [show max n 0 = if n ≤ 0 then 0 else n from rfl]
  split
  · rename_i h
    rw [Int64.le_iff_toInt_le, Int64.toInt_zero] at h
    rw [Int64.toInt_zero, max_eq_right h]
  · rename_i h
    rw [Int64.le_iff_toInt_le, Int64.toInt_zero, not_le] at h
    rw [max_eq_left h.le]

/-- The service's headroom is the exact one modulo `2^64`, and never negative. -/
theorem trustlineHeadroom_of_spells (hparse : ParsesDecimals parseAmount)
    {limit balance buying : Option GoString} {l b u : ℕ} (hl : FieldSpells limit l)
    (hb : FieldSpells balance b) (hu : FieldSpells buying u) (hl' : l < 2 ^ 63) (hb' : b < 2 ^ 63)
    (hu' : u < 2 ^ 63) :
    ∃ headroom, trustlineHeadroom parseAmount (limit.getD []) (balance.getD []) (buying.getD [])
        = .ok headroom ∧ headroom.toInt = max ((l - b - u : ℤ).bmod (2 ^ 64)) 0 := by
  refine ⟨max (Int64.ofNat l - Int64.ofNat b - Int64.ofNat u) 0, ?_, ?_⟩
  · rw [trustlineHeadroom, fieldStroops_of_spells hparse hl hl', fieldStroops_of_spells hparse hb hb',
      fieldStroops_of_spells hparse hu hu']
    rfl
  · rw [toInt_max_zero, Int64.toInt_sub, Int64.toInt_sub, Int64.toInt_ofNat_of_lt hl',
      Int64.toInt_ofNat_of_lt hb', Int64.toInt_ofNat_of_lt hu', Int.bmod_sub_bmod]

/-- Where the difference wraps, the room appears to be positive. -/
theorem bmod_headroom {l b u : ℕ} (hl : l < 2 ^ 63) (hb : b < 2 ^ 63) (hu : u < 2 ^ 63) :
    0 < (l - b - u : ℤ).bmod (2 ^ 64) ↔ (0 : ℤ) < l - b - u ∨ l + 2 ^ 63 < b + u := by
  unfold Int.bmod
  dsimp only
  split <;> omega

/-! ## Lines -/

/-- A line of the asset. -/
def Matches (asset : Asset) (b : HorizonLine) : Prop :=
  b.assetCode = some asset.code ∧ b.assetIssuer = some asset.issuer

instance (asset : Asset) (b : HorizonLine) : Decidable (Matches asset b) :=
  inferInstanceAs (Decidable (_ ∧ _))

/-- The first line of the asset in Horizon's answer. -/
def firstMatch (asset : Asset) (lines : List HorizonLine) : Option HorizonLine :=
  lines.find? fun b => Matches asset b

/-- The service's view of a line: its authorisation, and its headroom modulo `2^64`. -/
structure Mirrors (b : HorizonLine) (bal : Balance) : Prop where
  authorized : bal.authorized = true ↔ b.isAuthorized = some true
  headroom : ∃ l a u, FieldSpells b.limit l ∧ FieldSpells b.balance a ∧
    FieldSpells b.buyingLiabilities u ∧ l < 2 ^ 63 ∧ a < 2 ^ 63 ∧ u < 2 ^ 63 ∧
    bal.headroom.toInt = max ((l - a - u : ℤ).bmod (2 ^ 64)) 0

/-- The page and the service find the asset on the same lines. -/
theorem toBalance_of_wellFormed (hparse : ParsesDecimals parseAmount) (v : Verifier)
    {b : HorizonLine} (h : WellFormedLine b) :
    ∃ bal, b.toBalance parseAmount = .ok bal ∧ (v.IsLine bal ↔ Matches v.asset b) ∧
      (Matches v.asset b → Mirrors b bal) := by
  have hnone : b.assetCode = none → ¬ Matches v.asset b := by
    rintro hcode ⟨hmatch, -⟩
    rw [hcode] at hmatch
    cases hmatch
  cases h with
  | native type code issuer =>
      refine ⟨⟨[], [], true, false, 0⟩, ?_, ?_, fun h => absurd h (hnone code)⟩
      · simp only [HorizonLine.toBalance, type, code, issuer, decide_true, Bool.true_eq_false,
          false_and, if_false, Option.getD_none]
      · exact ⟨fun h => (nomatch h.1), fun h => absurd h (hnone code)⟩
  | poolShares type code issuer =>
      have hnative : bytes "liquidity_pool_shares" ≠ bytes "native" := by decide +kernel
      refine ⟨⟨[], [], false, false, 0⟩, ?_, ?_, fun h => absurd h (hnone code)⟩
      · simp only [HorizonLine.toBalance, type, code, issuer, hnative, decide_false, ne_eq,
          not_true_eq_false, and_false, if_false, Option.getD_none]
      · exact ⟨fun h => absurd h.2.1.symm v.code_ne, fun h => absurd h (hnone code)⟩
  | credit type code issuer limit balance buying =>
      obtain ⟨l, hl, hl'⟩ := limit
      obtain ⟨a, ha, ha'⟩ := balance
      obtain ⟨u, hu, hu'⟩ := buying
      obtain ⟨headroom, hheadroom, hvalue⟩ := trustlineHeadroom_of_spells hparse hl ha hu hl' ha' hu'
      have htype : b.assetType ≠ bytes "native" ∧ b.assetType ≠ bytes "liquidity_pool_shares" := by
        rcases List.mem_pair.mp type with h | h
        · rw [h]
          decide +kernel
        · rw [h]
          decide +kernel
      obtain ⟨c, hc⟩ := Option.ne_none_iff_exists'.mp code
      obtain ⟨i, hi⟩ := Option.ne_none_iff_exists'.mp issuer
      refine ⟨⟨c, i, false, b.isAuthorized = some true, headroom⟩, ?_, ?_, fun _ =>
        ⟨decide_eq_true_iff, l, a, u, hl, ha, hu, hl', ha', hu', hvalue⟩⟩
      · simp only [HorizonLine.toBalance, htype, hheadroom, hc, hi, decide_false, ne_eq,
          not_false_eq_true, and_self, if_true, Option.getD_some]
      · simp only [Verifier.IsLine, Matches, hc, hi, true_and, Option.some_inj]

/-- The service looks at the line the page looks at. -/
theorem toBalances_of_wellFormed (hparse : ParsesDecimals parseAmount) (v : Verifier)
    {lines : List HorizonLine} (h : ∀ b ∈ lines, WellFormedLine b) :
    ∃ out, toBalances parseAmount lines = .ok out ∧
      (firstMatch v.asset lines = none → v.firstLine out = none) ∧
      ∀ b, firstMatch v.asset lines = some b → ∃ bal, v.firstLine out = some bal ∧ Mirrors b bal := by
  induction lines with
  | nil => exact ⟨[], rfl, fun _ => rfl, nofun⟩
  | cons b lines ih =>
      rw [List.forall_mem_cons] at h
      obtain ⟨bal, hbal, hline, hmirrors⟩ := toBalance_of_wellFormed hparse v h.1
      obtain ⟨out, hout, hnone, hsome⟩ := ih h.2
      refine ⟨bal :: out, ?_, ?_⟩
      · rw [toBalances, hbal, hout]
        rfl
      · by_cases hmatch : Matches v.asset b
        · have hfirst : firstMatch v.asset (b :: lines) = some b :=
            List.find?_cons_of_pos (decide_eq_true hmatch)
          have hfound : v.firstLine (bal :: out) = some bal :=
            List.find?_cons_of_pos (decide_eq_true (hline.mpr hmatch))
          rw [hfirst, hfound]
          refine ⟨nofun, fun b' hb' => ⟨bal, rfl, ?_⟩⟩
          rw [← Option.some_inj.mp hb']
          exact hmirrors hmatch
        · have hfirst : firstMatch v.asset (b :: lines) = firstMatch v.asset lines :=
            List.find?_cons_of_neg (by simpa using hmatch)
          have hfound : v.firstLine (bal :: out) = v.firstLine out :=
            List.find?_cons_of_neg (by simpa [hline] using hmatch)
          rw [hfirst, hfound]
          exact ⟨hnone, hsome⟩

/-! ## Where they agree -/

/-- The page says yes exactly when the service says `ok`, and no exactly when it gives one of the
four statuses without payment. -/
def ClassifiedAlike (page : Except PageError Bool) (service : Except Error Status) : Prop :=
  (page = .ok true ↔ service = .ok .ok) ∧
    (page = .ok false ↔ ∃ st ∈ [Status.noAccount, .noTrustline, .notAuthorized, .insufficientLimit],
      service = .ok st)

theorem classifiedAlike_ok {x : Bool} {st : Status} (hst : st ≠ .unknown) :
    ClassifiedAlike (.ok x) (.ok st) ↔ (x = true ↔ st = .ok) := by
  cases x <;> cases st <;> simp [ClassifiedAlike] at hst ⊢

/-- A refusal of the page is one of the service. -/
theorem classifiedAlike_refused {st : Status} (hst : st ≠ .unknown) (hok : st ≠ .ok) :
    ClassifiedAlike (.ok false) (.ok st) := by
  rw [classifiedAlike_ok hst]
  exact iff_of_false Bool.false_ne_true hok

/-- The balance and the buying liabilities of an authorised first line do not exceed its limit by
more than `2^63` stroops. -/
def NotFarOver (asset : Asset) (answer : HorizonAnswer) : Prop :=
  ∀ lines b, answer = .account lines → firstMatch asset lines = some b →
    b.isAuthorized = some true → ∀ l a u, FieldSpells b.limit l → FieldSpells b.balance a →
      FieldSpells b.buyingLiabilities u → a + u ≤ l + 2 ^ 63

/-- The page, on the lines of an account. -/
theorem hasUsdcTrustline_account (asset : Asset) (lines : List HorizonLine) :
    hasUsdcTrustline (jsOf asset.code) (jsOf asset.issuer) (.account lines)
      = match firstMatch asset lines with
        | none => .ok false
        | some line =>
            if line.isAuthorized ≠ some true then .ok false
            else
              match pageHeadroom (line.limit.map jsOf) (line.balance.map jsOf)
                  (line.buyingLiabilities.map jsOf) with
              | .ok headroom => .ok (0 < headroom)
              | .error err => .error err := by
  have hinj : Function.Injective jsOf := by
    refine List.map_injective_iff.mpr fun b c h => ?_
    rw [← UInt16.toNat_inj, UInt8.toNat_toUInt16, UInt8.toNat_toUInt16] at h
    exact UInt8.toNat_inj.mp h
  have hfield : ∀ (s : Option GoString) (t : GoString), s.map jsOf = some (jsOf t) ↔ s = some t :=
    fun s t => (Option.map_injective hinj).eq_iff (b := some t)
  have hlines : (lines.find? fun b => b.assetCode.map jsOf = some (jsOf asset.code)
      && b.assetIssuer.map jsOf = some (jsOf asset.issuer)) = firstMatch asset lines := by
    rw [firstMatch]
    congr 1
    funext b
    simp only [hfield, Matches]
    exact (Bool.decide_and _ _).symm
  rw [hasUsdcTrustline, hlines]

/-- The service passes an authorised line with room, and one that is far over its limit. -/
theorem verify_of_authorized {v : Verifier} {address : GoString} {out : List Balance}
    {bal : Balance} {l a u : ℕ} (hvalid : validAddress address = true)
    (hsource : v.src address = .ok out) (hline : v.firstLine out = some bal)
    (hauth : bal.authorized = true) (hl : l < 2 ^ 63) (ha : a < 2 ^ 63) (hu : u < 2 ^ 63)
    (hroom : bal.headroom.toInt = max ((l - a - u : ℤ).bmod (2 ^ 64)) 0) :
    v.verify address
      = .ok (if (0 : ℤ) < l - a - u ∨ l + 2 ^ 63 < a + u then .ok else .insufficientLimit) := by
  have hone : (1 : Int64).toInt = 1 := rfl
  have hpos := bmod_headroom hl ha hu
  rw [Verifier.verify]
  split
  · rename_i hcases
    have hwrapped := hpos.mpr hcases
    exact Verifier.verifyFor_of_canReceive
      ⟨hvalid, out, bal, hsource, hline, hauth, by rw [hone, hroom]; omega⟩
  · rename_i hcases
    have hwrapped := mt hpos.mp hcases
    exact Verifier.verifyFor_of_failsFirst hvalid
      (.insufficientLimit hsource hline hauth (by rw [hone, hroom]; omega))

/-- Only an authorised balance of the asset can be far over its limit. -/
theorem notFarOver_of_unauthorized {asset : Asset} {lines : List HorizonLine}
    (h : ∀ b, firstMatch asset lines = some b → b.isAuthorized ≠ some true) :
    NotFarOver asset (.account lines) := by
  intro lines' b hlines hb hauth
  cases hlines
  exact absurd hauth (h b hb)

theorem notFarOver_iff {asset : Asset} {lines : List HorizonLine} {b : HorizonLine} {l a u : ℕ}
    (hfirst : firstMatch asset lines = some b) (hb : b.isAuthorized = some true)
    (hl : FieldSpells b.limit l) (ha : FieldSpells b.balance a)
    (hu : FieldSpells b.buyingLiabilities u) :
    NotFarOver asset (.account lines) ↔ a + u ≤ l + 2 ^ 63 := by
  constructor
  · exact fun h => h lines b rfl hfirst hb l a u hl ha hu
  · intro hle lines' b' hlines' hb' _ l' a' u' hl' ha' hu'
    cases hlines'
    cases hfirst.symm.trans hb'
    rwa [hl'.unique hl, ha'.unique ha, hu'.unique hu]

/-- The registration and the release classify a well-formed answer alike exactly when no balance
is far over its limit. -/
theorem trustlines_agree {v : Verifier} {client : GoString → HorizonAnswer} {address : GoString}
    (hparse : ParsesDecimals parseAmount) (hsrc : v.src = horizonBalances parseAmount none client)
    (hvalid : validAddress address = true) (hwf : WellFormedAnswer (client address)) :
    ClassifiedAlike
        (hasUsdcTrustline (jsOf v.asset.code) (jsOf v.asset.issuer) (client address))
        (v.verify address) ↔
      NotFarOver v.asset (client address) := by
  have hsource : v.src address = horizonBalances parseAmount none client address := by rw [hsrc]
  simp only [horizonBalances] at hsource
  cases hclient : client address with
  | failed err =>
      rw [hclient] at hwf
      cases hwf
  | problem status err =>
      rw [hclient] at hwf hsource
      cases hwf
      rw [Verifier.verify, Verifier.verifyFor_of_failsFirst hvalid (.noAccount hsource),
        hasUsdcTrustline, if_pos rfl]
      refine iff_of_true (classifiedAlike_refused (by decide) (by decide)) ?_
      intro lines b h
      cases h
  | account lines =>
      rw [hclient] at hwf hsource
      cases hwf with
      | account hlines =>
          obtain ⟨out, hout, hnone, hsome⟩ := toBalances_of_wellFormed hparse v hlines
          simp only [hout] at hsource
          rw [hasUsdcTrustline_account, Verifier.verify]
          cases hfirst : firstMatch v.asset lines with
          | none =>
              rw [Verifier.verifyFor_of_failsFirst hvalid (.noTrustline hsource (hnone hfirst))]
              refine iff_of_true (classifiedAlike_refused (by decide) (by decide))
                (notFarOver_of_unauthorized fun b hb => ?_)
              cases hfirst.symm.trans hb
          | some b =>
              obtain ⟨bal, hline, hauth, l, a, u, hl, ha, hu, hl', ha', hu', hroom⟩ :=
                hsome b hfirst
              dsimp only
              by_cases hb : b.isAuthorized = some true
              · have hpage : pageHeadroom (b.limit.map jsOf) (b.balance.map jsOf)
                    (b.buyingLiabilities.map jsOf) = .ok (l - a - u) := by
                  rw [pageHeadroom, toStroops_of_spells hl, toStroops_of_spells ha,
                    toStroops_of_spells hu]
                  rfl
                rw [if_neg (not_not.mpr hb), hpage, notFarOver_iff hfirst hb hl ha hu,
                  ← Verifier.verify,
                  verify_of_authorized hvalid hsource hline (hauth.mpr hb) hl' ha' hu' hroom]
                dsimp only
                rw [classifiedAlike_ok (by split <;> decide), decide_eq_true_iff]
                split
                · rename_i hcases
                  simp only [iff_true]
                  omega
                · rename_i hcases
                  simp only [reduceCtorEq, iff_false]
                  omega
              · rw [if_pos hb, Verifier.verifyFor_of_failsFirst hvalid
                  (.notAuthorized hsource hline ((Bool.not_eq_true _).mp (mt hauth.mp hb)))]
                refine iff_of_true (classifiedAlike_refused (by decide) (by decide))
                  (notFarOver_of_unauthorized fun b' hb' => ?_)
                cases hfirst.symm.trans hb'
                exact hb

/-- A parser of plain decimals. -/
def parseDecimal (s : GoString) : Except Message Int64 :=
  match toStroops (some (jsOf s)) with
  | .ok n => if n < 2 ^ 63 then .ok (.ofNat n) else .error ⟨"amount overflow: %s", [.str s]⟩
  | .error _ => .error ⟨"invalid amount format: %s", [.str s]⟩

theorem parsesDecimals : ParsesDecimals parseDecimal := by
  intro s n hs hlt
  have hn := toStroops_of_spells (s := some s) hs
  rw [Option.map_some] at hn
  rw [parseDecimal, hn]
  exact if_pos hlt

/-- An account with one line of the asset `U:G`. -/
def oneLine (limit balance buyingLiabilities : String) : HorizonAnswer :=
  .account [⟨bytes "credit_alphanum4", some [85], some [71], some (bytes balance),
    some (bytes limit), some (bytes buyingLiabilities), some true⟩]

theorem oneLine_wellFormed {limit balance buying : String} {l a u : ℕ}
    (hl : Spells (jsOf (bytes limit)) l) (ha : Spells (jsOf (bytes balance)) a)
    (hu : Spells (jsOf (bytes buying)) u) (hl' : l < 2 ^ 63) (ha' : a < 2 ^ 63)
    (hu' : u < 2 ^ 63) : WellFormedAnswer (oneLine limit balance buying) :=
  .account fun b hb => by
    rw [List.mem_singleton.mp hb]
    exact .credit List.mem_cons_self nofun nofun ⟨l, hl, hl'⟩ ⟨a, ha, ha'⟩ ⟨u, hu, hu'⟩

/-- The service's verifier of the asset over one answer of Horizon. -/
def verifierOf (answer : HorizonAnswer) : Verifier where
  src := horizonBalances parseDecimal none fun _ => answer
  asset := ⟨[85], [71]⟩
  code_ne := List.cons_ne_nil _ _
  issuer_ne := List.cons_ne_nil _ _

/-- With five units of limit, half of them taken and one stroop left, both say yes. -/
theorem trustlines_agree_room :
    (verifierOf (oneLine "5" "2.5" "2.4999999")).verify (71 :: List.replicate 55 65) = .ok .ok ∧
      NotFarOver ⟨[85], [71]⟩ (oneLine "5" "2.5" "2.4999999") := by
  have hanswers : hasUsdcTrustline (jsOf [85]) (jsOf [71]) (oneLine "5" "2.5" "2.4999999") = .ok true
      ∧ (verifierOf (oneLine "5" "2.5" "2.4999999")).verify (71 :: List.replicate 55 65)
        = .ok .ok := by
    decide +kernel
  have hl : Spells (jsOf (bytes "5")) 50000000 :=
    ⟨bytes "5", [], by decide +kernel⟩
  have ha : Spells (jsOf (bytes "2.5")) 25000000 :=
    ⟨bytes "2", bytes "5", by decide +kernel⟩
  have hu : Spells (jsOf (bytes "2.4999999")) 24999999 :=
    ⟨bytes "2", bytes "4999999", by decide +kernel⟩
  have hvalid : validAddress (71 :: List.replicate 55 65) = true := by decide
  refine ⟨hanswers.2, (trustlines_agree parsesDecimals (v := verifierOf _) rfl hvalid
    (oneLine_wellFormed hl ha hu (by decide) (by decide) (by decide))).mp ?_⟩
  rw [show (verifierOf (oneLine "5" "2.5" "2.4999999")).asset = ⟨[85], [71]⟩ from rfl, hanswers.1,
    hanswers.2, classifiedAlike_ok (by decide)]
  exact ⟨fun _ => rfl, fun _ => rfl⟩

/-- With no limit and the largest balance and liabilities, the page says no and the service
`ok`. -/
theorem trustlines_disagree :
    ¬ ∀ (parseAmount : GoString → Except Message Int64) (v : Verifier)
      (client : GoString → HorizonAnswer) (address : GoString), ParsesDecimals parseAmount →
      v.src = horizonBalances parseAmount none client → validAddress address = true →
      WellFormedAnswer (client address) → ClassifiedAlike
        (hasUsdcTrustline (jsOf v.asset.code) (jsOf v.asset.issuer) (client address))
        (v.verify address) := by
  intro hall
  have hzero : Spells (jsOf (bytes "0")) 0 := ⟨bytes "0", [], by decide +kernel⟩
  have hmax : Spells (jsOf (bytes "922337203685.4775807")) (2 ^ 63 - 1) :=
    ⟨bytes "922337203685", bytes "4775807", by decide +kernel⟩
  have halike := hall parseDecimal
    (verifierOf (oneLine "0" "922337203685.4775807" "922337203685.4775807"))
    (fun _ => oneLine "0" "922337203685.4775807" "922337203685.4775807")
    (71 :: List.replicate 55 65) parsesDecimals rfl (by decide)
    (oneLine_wellFormed hzero hmax hmax (by decide) (by decide) (by decide))
  have hanswers : hasUsdcTrustline (jsOf [85]) (jsOf [71])
      (oneLine "0" "922337203685.4775807" "922337203685.4775807") = .ok false ∧
      (verifierOf (oneLine "0" "922337203685.4775807" "922337203685.4775807")).verify
        (71 :: List.replicate 55 65) = .ok .ok := by
    decide +kernel
  have hyes := halike.1.mpr hanswers.2
  exact absurd (hanswers.1.symm.trans hyes) (by decide)

/-! ## The ledger behind Horizon -/

/-- Horizon shows the ledger: the first line of each account spells the trustline there, whose
balance and buying liabilities stay within its limit. -/
structure Shows (asset : Asset) (client : GoString → HorizonAnswer) (ledger : GoString → Entry) :
    Prop where
  wellFormed : ∀ address, WellFormedAnswer (client address)
  within : ∀ address, (ledger address).balance + (ledger address).buyingLiabilities
    ≤ (ledger address).limit
  fields : ∀ address lines b, client address = .account lines → firstMatch asset lines = some b →
    ∃ l a u : ℕ, FieldSpells b.limit l ∧ FieldSpells b.balance a ∧
      FieldSpells b.buyingLiabilities u ∧ ledger address = ⟨l, a, u⟩

/-- What the service's source says of the ledger is so. -/
theorem horizon_reflects {v : Verifier} {client : GoString → HorizonAnswer}
    {ledger : GoString → Entry} (hparse : ParsesDecimals parseAmount)
    (hsrc : v.src = horizonBalances parseAmount none client)
    (hshows : Shows v.asset client ledger) : v.Reflects ledger := by
  intro address balances bal hbalances hline
  have hwf := hshows.wellFormed address
  have hwithin := hshows.within address
  rw [hsrc] at hbalances
  simp only [horizonBalances] at hbalances
  cases hclient : client address with
  | failed err =>
      rw [hclient] at hbalances
      cases hbalances
  | problem status err =>
      rw [hclient] at hwf hbalances
      cases hwf
      cases hbalances
  | account lines =>
      rw [hclient] at hwf hbalances
      cases hwf with
      | account hlines =>
          obtain ⟨out, hout, hnone, hsome⟩ := toBalances_of_wellFormed hparse v hlines
          simp only [hout, Except.ok.injEq] at hbalances
          subst hbalances
          cases hfirst : firstMatch v.asset lines with
          | none => cases (hnone hfirst).symm.trans hline
          | some b =>
              obtain ⟨bal', hline', -, l, a, u, hl, ha, hu, hl', ha', hu', hroom⟩ := hsome b hfirst
              cases hline'.symm.trans hline
              obtain ⟨l', a', u', hlimit, hbalance, hbuying, hentry⟩ :=
                hshows.fields address lines b hclient hfirst
              rw [hlimit.unique hl, hbalance.unique ha, hbuying.unique hu] at hentry
              rw [hentry] at hwithin ⊢
              dsimp only at hwithin ⊢
              rw [hroom, Int.bmod_eq_of_le (by norm_num; omega) (by norm_num; omega)]

end Trustline
