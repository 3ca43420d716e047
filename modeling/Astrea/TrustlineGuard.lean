/-
# The trustline guard

What `require` decides, over any accounts.  It refuses nothing but wallets that cannot take the
sum of their payouts, names each of them once with the first check it fails, and never takes an
invalid address or a failed lookup for a missing trustline (`require_exact`).  When it lets a
release pass, the payouts can be credited in any order without a trustline going past its limit
(`creditAll_isSome`).
-/
import Astrea.Trustline
import Astrea.WrappingSum
import Mathlib.Logic.Function.Basic

open Guard Service

namespace Trustline

/-! ## Credits on the ledger -/

/-- A trustline on the ledger, in stroops. -/
structure Entry where
  limit : ℤ
  balance : ℤ
  buyingLiabilities : ℤ
  deriving DecidableEq

/-- A payment to a wallet fails when it would push the trustline past its limit. -/
def credit (ledger : GoString → Entry) (p : Payout) : Option (GoString → Entry) :=
  let t := ledger p.address
  let balance := t.balance + p.stroops.toInt
  if balance + t.buyingLiabilities ≤ t.limit then
    some (Function.update ledger p.address { t with balance })
  else none

/-- Some payments, one after the other. -/
def creditAll (ledger : GoString → Entry) : List Payout → Option (GoString → Entry)
  | [] => some ledger
  | p :: payouts => (credit ledger p).bind fun ledger => creditAll ledger payouts

/-- The stroops that some payouts pay to a wallet. -/
def paidTo (payouts : List Payout) (address : GoString) : ℤ :=
  ((payouts.filter fun p => p.address = address).map fun p => p.stroops.toInt).sum

theorem paidTo_cons (p : Payout) (payouts : List Payout) (address : GoString) :
    paidTo (p :: payouts) address
      = (if p.address = address then p.stroops.toInt else 0) + paidTo payouts address := by
  unfold paidTo
  by_cases h : p.address = address
  · rw [if_pos h, List.filter_cons_of_pos (by simpa using h), List.map_cons, List.sum_cons]
  · rw [if_neg h, List.filter_cons_of_neg (by simpa using h), zero_add]

theorem paidTo_perm {payouts payouts' : List Payout} (h : payouts.Perm payouts')
    (address : GoString) : paidTo payouts address = paidTo payouts' address :=
  ((h.filter _).map _).sum_eq

theorem paidTo_nonneg {payouts : List Payout} (hpos : ∀ p ∈ payouts, 0 < p.stroops)
    (address : GoString) : 0 ≤ paidTo payouts address := by
  apply List.sum_nonneg
  intro x hx
  obtain ⟨p, hp, rfl⟩ := List.mem_map.mp hx
  exact le_of_lt (Int64.lt_iff_toInt_lt.mp (hpos p (List.mem_of_mem_filter hp)))

/-- A wallet with a payout is paid something. -/
theorem paidTo_pos {payouts : List Payout} (hpos : ∀ p ∈ payouts, 0 < p.stroops) {p : Payout}
    (hp : p ∈ payouts) : 0 < paidTo payouts p.address := by
  obtain ⟨before, after, rfl⟩ := List.append_of_mem hp
  have hfront : (before ++ p :: after).Perm (p :: (before ++ after)) := List.perm_middle
  have hall : ∀ q ∈ p :: (before ++ after), 0 < q.stroops := fun q hq =>
    hpos q (hfront.mem_iff.mpr hq)
  rw [List.forall_mem_cons, Int64.lt_iff_toInt_lt, Int64.toInt_zero] at hall
  have hrest := paidTo_nonneg hall.2 p.address
  rw [paidTo_perm hfront, paidTo_cons, if_pos rfl]
  omega

/-- Every trustline that is paid has room for all its payouts. -/
def HasRoom (ledger : GoString → Entry) (payouts : List Payout) : Prop :=
  ∀ p ∈ payouts, (ledger p.address).balance + paidTo payouts p.address
    + (ledger p.address).buyingLiabilities ≤ (ledger p.address).limit

/-- With room for all of them, positive payouts are credited one after the other. -/
theorem creditAll_isSome {payouts : List Payout} {ledger : GoString → Entry}
    (hpos : ∀ p ∈ payouts, 0 < p.stroops) (hroom : HasRoom ledger payouts) :
    (creditAll ledger payouts).isSome = true := by
  induction payouts generalizing ledger with
  | nil => rfl
  | cons p payouts ih =>
      rw [List.forall_mem_cons] at hpos
      have hrest := paidTo_nonneg hpos.2 p.address
      have hfirst := hroom p List.mem_cons_self
      rw [paidTo_cons, if_pos rfl] at hfirst
      have hok : (ledger p.address).balance + p.stroops.toInt
          + (ledger p.address).buyingLiabilities ≤ (ledger p.address).limit := by omega
      rw [creditAll, credit, if_pos hok, Option.bind_some]
      refine ih hpos.2 fun q hq => ?_
      have hroomq := hroom q (List.mem_cons_of_mem _ hq)
      rw [paidTo_cons] at hroomq
      by_cases h : q.address = p.address
      · rw [if_pos h.symm, h] at hroomq
        rw [h, Function.update_self]
        simp only
        omega
      · rw [if_neg (Ne.symm h), zero_add] at hroomq
        rw [Function.update_of_ne h]
        exact hroomq

namespace Verifier

variable (v : Verifier)

/-! ## One wallet -/

/-- A balance line of the asset. -/
def IsLine (b : Balance) : Prop :=
  b.native = false ∧ b.code = v.asset.code ∧ b.issuer = v.asset.issuer

instance (b : Balance) : Decidable (v.IsLine b) := inferInstanceAs (Decidable (_ ∧ _ ∧ _))

/-- The first line of the asset. -/
def firstLine (balances : List Balance) : Option Balance := balances.find? fun b => v.IsLine b

/-- The address is well formed, the account exists, and its trustline is authorised and has room
for `total`. -/
def CanReceive (address : GoString) (total : ℤ) : Prop :=
  validAddress address = true ∧ ∃ balances b, v.src address = .ok balances ∧
    v.firstLine balances = some b ∧ b.authorized = true ∧ total ≤ b.headroom.toInt

/-- The first check the wallet of a well-formed address fails. -/
inductive FailsFirst (address : GoString) (total : ℤ) : Status → Prop
  | noAccount (h : v.src address = .error .accountNotFound) : FailsFirst address total .noAccount
  | noTrustline {balances : List Balance} (h : v.src address = .ok balances)
      (hline : v.firstLine balances = none) : FailsFirst address total .noTrustline
  | notAuthorized {balances : List Balance} {b : Balance} (h : v.src address = .ok balances)
      (hline : v.firstLine balances = some b) (hauth : b.authorized = false) :
      FailsFirst address total .notAuthorized
  | insufficientLimit {balances : List Balance} {b : Balance} (h : v.src address = .ok balances)
      (hline : v.firstLine balances = some b) (hauth : b.authorized = true)
      (hroom : b.headroom.toInt < total) : FailsFirst address total .insufficientLimit

/-- The address is well formed and its lookup does not fail, unless there is no account. -/
def LookedUp (address : GoString) : Prop :=
  validAddress address = true ∧ ∀ err, v.src address ≠ .error (.other err)

variable {v : Verifier}

theorem classify_eq (need : Int64) (balances : List Balance) :
    v.classify need balances
      = match v.firstLine balances with
        | none => .noTrustline
        | some b =>
            if b.authorized = false then .notAuthorized
            else if b.headroom < need then .insufficientLimit
            else .ok := by
  induction balances with
  | nil => rfl
  | cons b balances ih =>
      rw [classify]
      have hskip : (b.native = true ∨ b.code ≠ v.asset.code ∨ b.issuer ≠ v.asset.issuer)
          ↔ ¬ v.IsLine b := by
        rw [IsLine, not_and_or, not_and_or, Bool.not_eq_false]
      simp only [hskip]
      by_cases h : v.IsLine b
      · have hline : v.firstLine (b :: balances) = some b :=
          List.find?_cons_of_pos (decide_eq_true h)
        rw [if_neg (not_not.mpr h), hline]
      · have hline : v.firstLine (b :: balances) = v.firstLine balances :=
          List.find?_cons_of_neg (by simpa using h)
        rw [if_pos h, ih, hline]

/-- A wallet that can receive the amount passes. -/
theorem verifyFor_of_canReceive {address : GoString} {need : Int64}
    (h : v.CanReceive address need.toInt) : v.verifyFor address need = .ok .ok := by
  obtain ⟨hvalid, balances, b, hsrc, hline, hauth, hroom⟩ := h
  simp only [verifyFor, hvalid, hsrc, classify_eq, hline, hauth, Bool.true_eq_false, if_false,
    Int64.lt_iff_toInt_lt, not_lt.mpr hroom]

/-- A wallet that cannot is given the first check it fails. -/
theorem verifyFor_of_failsFirst {address : GoString} {need : Int64} {st : Status}
    (hvalid : validAddress address = true) (h : v.FailsFirst address need.toInt st) :
    v.verifyFor address need = .ok st := by
  cases h with
  | noAccount hsrc => simp only [verifyFor, hvalid, hsrc, Bool.true_eq_false, if_false]
  | noTrustline hsrc hline =>
      simp only [verifyFor, hvalid, hsrc, classify_eq, hline, Bool.true_eq_false, if_false]
  | notAuthorized hsrc hline hauth =>
      simp only [verifyFor, hvalid, hsrc, classify_eq, hline, hauth, Bool.true_eq_false, if_false,
        if_true]
  | insufficientLimit hsrc hline hauth hroom =>
      simp only [verifyFor, hvalid, hsrc, classify_eq, hline, hauth, Bool.true_eq_false, if_false,
        Int64.lt_iff_toInt_lt, hroom, if_true]

/-- A wallet that is looked up can receive the amount or fails a check. -/
theorem LookedUp.canReceive_or {address : GoString} (h : v.LookedUp address) (total : ℤ) :
    v.CanReceive address total ∨ ∃ st, v.FailsFirst address total st := by
  cases hsrc : v.src address with
  | error err =>
      cases err with
      | accountNotFound => exact .inr ⟨_, .noAccount hsrc⟩
      | other err => exact absurd hsrc (h.2 err)
  | ok balances =>
      cases hline : v.firstLine balances with
      | none => exact .inr ⟨_, .noTrustline hsrc hline⟩
      | some b =>
          by_cases hauth : b.authorized = true
          · by_cases hroom : total ≤ b.headroom.toInt
            · exact .inl ⟨h.1, balances, b, hsrc, hline, hauth, hroom⟩
            · exact .inr ⟨_, .insufficientLimit hsrc hline hauth (not_le.mp hroom)⟩
          · exact .inr ⟨_, .notAuthorized hsrc hline ((Bool.not_eq_true _).mp hauth)⟩

/-- A wallet that fails a check cannot receive the amount. -/
theorem FailsFirst.not_canReceive {address : GoString} {total : ℤ} {st : Status}
    (h : v.FailsFirst address total st) : ¬ v.CanReceive address total := by
  rintro ⟨-, balances, b, hsrc, hline, hauth, hroom⟩
  cases h with
  | noAccount h => cases h.symm.trans hsrc
  | noTrustline h hnone =>
      cases h.symm.trans hsrc
      cases hnone.symm.trans hline
  | notAuthorized h hsome hdenied =>
      cases h.symm.trans hsrc
      cases hsome.symm.trans hline
      cases hdenied.symm.trans hauth
  | insufficientLimit h hsome _ hlow =>
      cases h.symm.trans hsrc
      cases hsome.symm.trans hline
      exact absurd hroom (not_le.mpr hlow)

theorem FailsFirst.ne_ok {address : GoString} {total : ℤ} {st : Status}
    (h : v.FailsFirst address total st) : st ≠ .ok := by
  cases h <;> decide

theorem CanReceive.lookedUp {address : GoString} {total : ℤ} (h : v.CanReceive address total) :
    v.LookedUp address := by
  obtain ⟨hvalid, balances, b, hsrc, -⟩ := h
  refine ⟨hvalid, fun err herr => ?_⟩
  cases hsrc.symm.trans herr

/-- A check fails, with an error of its own, on a wallet that is not looked up. -/
theorem verifyFor_of_not_lookedUp {address : GoString} (need : Int64)
    (h : ¬ v.LookedUp address) :
    ∃ e, v.verifyFor address need = .error e ∧ e.isErrNoTrustline = false := by
  unfold verifyFor
  by_cases hvalid : validAddress address = true
  · rw [LookedUp, and_iff_right hvalid, not_forall] at h
    obtain ⟨err, herr⟩ := h
    rw [not_not] at herr
    simp only [hvalid, herr, Bool.true_eq_false, if_false]
    exact ⟨_, rfl, rfl⟩
  · rw [if_pos ((Bool.not_eq_true _).mp hvalid)]
    exact ⟨_, rfl, rfl⟩

/-- What a check of one wallet answers. -/
theorem verifyFor_eq_ok {address : GoString} {need : Int64} {st : Status} :
    v.verifyFor address need = .ok st ↔
      v.LookedUp address ∧
        (st = .ok ∧ v.CanReceive address need.toInt ∨ v.FailsFirst address need.toInt st) := by
  constructor
  · intro h
    by_cases hup : v.LookedUp address
    · refine ⟨hup, ?_⟩
      rcases hup.canReceive_or need.toInt with hcan | ⟨st', hfails⟩
      · cases (verifyFor_of_canReceive hcan).symm.trans h
        exact .inl ⟨rfl, hcan⟩
      · cases (verifyFor_of_failsFirst hup.1 hfails).symm.trans h
        exact .inr hfails
    · obtain ⟨e, he, -⟩ := verifyFor_of_not_lookedUp need hup
      cases he.symm.trans h
  · rintro ⟨hup, ⟨rfl, hcan⟩ | hfails⟩
    · exact verifyFor_of_canReceive hcan
    · exact verifyFor_of_failsFirst hup.1 hfails

/-! ## A batch -/

/-- What a batch answers: every wallet of the order, with the answer of its own check. -/
theorem verifyOrder_eq_ok {need : KeyTable GoString Int64} {order : List GoString}
    {results : List Result} :
    v.verifyOrder need order = .ok results ↔
      results.map (·.address) = order ∧
        ∀ r ∈ results, v.verifyFor r.address ((need.lookup r.address).getD 0) = .ok r.status := by
  induction order generalizing results with
  | nil =>
      rw [verifyOrder, Except.ok.injEq, List.map_eq_nil_iff]
      refine ⟨?_, fun h => h.1.symm⟩
      rintro rfl
      exact ⟨rfl, fun r hr => absurd hr List.not_mem_nil⟩
  | cons addr order ih =>
      simp only [verifyOrder, bind_eq_ok, pure_eq_ok, ih]
      constructor
      · rintro ⟨st, hst, results, ⟨rfl, hresults⟩, rfl⟩
        exact ⟨rfl, List.forall_mem_cons.mpr ⟨hst, hresults⟩⟩
      · rintro ⟨haddr, hall⟩
        cases results with
        | nil => cases haddr
        | cons r results =>
            rw [List.map_cons, List.cons.injEq] at haddr
            obtain ⟨rfl, rfl⟩ := haddr
            rw [List.forall_mem_cons] at hall
            exact ⟨r.status, hall.1, results, ⟨rfl, hall.2⟩, rfl⟩

/-- A batch of wallets that are looked up is answered. -/
theorem exists_verifyOrder (need : KeyTable GoString Int64) {order : List GoString}
    (h : ∀ addr ∈ order, v.LookedUp addr) : ∃ results, v.verifyOrder need order = .ok results := by
  induction order with
  | nil => exact ⟨[], rfl⟩
  | cons addr order ih =>
      rw [List.forall_mem_cons] at h
      obtain ⟨results, hresults⟩ := ih h.2
      have hst : ∃ st, v.verifyFor addr ((need.lookup addr).getD 0) = .ok st := by
        rcases h.1.canReceive_or ((need.lookup addr).getD 0).toInt with hcan | ⟨st, hfails⟩
        · exact ⟨_, verifyFor_of_canReceive hcan⟩
        · exact ⟨st, verifyFor_of_failsFirst h.1.1 hfails⟩
      obtain ⟨st, hst⟩ := hst
      refine ⟨⟨addr, st⟩ :: results, ?_⟩
      rw [verifyOrder, hst, hresults]
      rfl

/-- A batch with a wallet that is not looked up fails, with an error of that wallet's check. -/
theorem verifyOrder_of_not_lookedUp (need : KeyTable GoString Int64) {order : List GoString}
    (h : ∃ addr ∈ order, ¬ v.LookedUp addr) :
    ∃ e, v.verifyOrder need order = .error e ∧ e.isErrNoTrustline = false := by
  induction order with
  | nil =>
      obtain ⟨addr, haddr, -⟩ := h
      exact absurd haddr List.not_mem_nil
  | cons addr order ih =>
      by_cases hup : v.LookedUp addr
      · obtain ⟨bad, hmem, hbad⟩ := h
        rcases List.mem_cons.mp hmem with rfl | hmem
        · exact absurd hup hbad
        obtain ⟨e, he, hown⟩ := ih ⟨bad, hmem, hbad⟩
        refine ⟨e, ?_, hown⟩
        rw [verifyOrder, he]
        rcases hup.canReceive_or ((need.lookup addr).getD 0).toInt with hcan | ⟨st, hfails⟩
        · rw [verifyFor_of_canReceive hcan]
          rfl
        · rw [verifyFor_of_failsFirst hup.1 hfails]
          rfl
      · obtain ⟨e, he, hown⟩ := verifyFor_of_not_lookedUp ((need.lookup addr).getD 0) hup
        refine ⟨e, ?_, hown⟩
        rw [verifyOrder, he]
        rfl

/-! ## The guard -/

/-- The wallets of some payouts are checked in order of first appearance. -/
theorem mem_needs {payouts : List Payout} {address : GoString} :
    address ∈ (needs payouts).order ↔ address ∈ payouts.map (·.address) := by
  rw [needs, Tally.mem_order, List.map_map]
  rfl

/-- A positive number of stroops is not raised. -/
theorem max_stroops {n : Int64} (h : 0 < n) : max n 1 = n := by
  have hone : (1 : Int64) ≤ n := by
    have hpos := Int64.lt_iff_toInt_lt.mp h
    rw [Int64.toInt_zero] at hpos
    exact Int64.le_iff_toInt_le.mpr hpos
  rw [show max n 1 = if n ≤ 1 then 1 else n from rfl]
  split
  · rename_i hle
    exact Int64.le_antisymm hone hle
  · rfl

/-- Each wallet is checked against the sum of its payouts. -/
theorem toInt_needs {payouts : List Payout} (hpos : ∀ p ∈ payouts, 0 < p.stroops)
    {address : GoString} (hfit : paidTo payouts address < 2 ^ 63) :
    (((needs payouts).totals.lookup address).getD 0).toInt = paidTo payouts address := by
  have hmap : payouts.map (fun p => (p.address, max p.stroops 1))
      = payouts.map fun p => (p.address, p.stroops) := by
    refine List.map_congr_left fun p hp => ?_
    rw [max_stroops (hpos p hp)]
  have htotal : ((needs payouts).totals.lookup address).getD 0
      = ((payouts.filter fun p => p.address = address).map (·.stroops)).sum := by
    rw [needs, Tally.total_ofList, hmap, Tally.totalAt, List.filter_map, List.map_map]
    rfl
  have hexact : WrappingSum.exact ((payouts.filter fun p => p.address = address).map (·.stroops))
      = paidTo payouts address := by
    rw [WrappingSum.exact, List.map_map]
    rfl
  rw [htotal, WrappingSum.toInt_sum_of_lt ?_ (hexact.trans_lt hfit), hexact]
  intro x hx
  obtain ⟨p, hp, rfl⟩ := List.mem_map.mp hx
  exact hpos p (List.mem_of_mem_filter hp)

/-- The ledger has, behind the first line of each account, a trustline with the room the line
says. -/
def Reflects (v : Verifier) (ledger : GoString → Entry) : Prop :=
  ∀ address balances b, v.src address = .ok balances → v.firstLine balances = some b →
    b.headroom.toInt = max ((ledger address).limit - (ledger address).balance
      - (ledger address).buyingLiabilities) 0

/-- The report of a guard that refuses: exactly the wallets that cannot receive their payouts, in
order of first appearance, each with the first check it fails. -/
structure Reports (v : Verifier) (payouts : List Payout) (wallets : List Result) : Prop where
  failing : ∀ address, address ∈ wallets.map (·.address) ↔
    address ∈ payouts.map (·.address) ∧ ¬ v.CanReceive address (paidTo payouts address)
  status : ∀ r ∈ wallets, v.FailsFirst r.address (paidTo payouts r.address) r.status
  order : wallets.Pairwise fun r r' =>
    (payouts.map (·.address)).idxOf r.address < (payouts.map (·.address)).idxOf r'.address

/-- A batch that is answered: each wallet once, with the outcome of its check. -/
theorem verifyPayouts_eq_ok {payouts : List Payout} {results : List Result}
    (hpos : ∀ p ∈ payouts, 0 < p.stroops)
    (hfit : ∀ p ∈ payouts, paidTo payouts p.address < 2 ^ 63)
    (h : v.verifyPayouts payouts = .ok results) :
    results.map (·.address) = (needs payouts).order ∧
      ∀ r ∈ results, r.status = .ok ∧ v.CanReceive r.address (paidTo payouts r.address) ∨
        v.FailsFirst r.address (paidTo payouts r.address) r.status := by
  obtain ⟨horder, hall⟩ := verifyOrder_eq_ok.mp h
  refine ⟨horder, fun r hr => ?_⟩
  obtain ⟨p, hp, haddress⟩ := List.mem_map.mp
    (mem_needs.mp (horder ▸ List.mem_map_of_mem hr : r.address ∈ (needs payouts).order))
  have hone := (verifyFor_eq_ok.mp (hall r hr)).2
  rwa [toInt_needs hpos (haddress ▸ hfit p hp)] at hone

/-- The guard refuses a batch that is answered with the wallets that fail. -/
theorem require_of_results {payouts : List Payout} {results : List Result}
    (h : v.verifyPayouts payouts = .ok results) :
    v.require payouts
      = if results.filter (fun r => !r.status.hasTrustline) = [] then .ok ()
        else .error (.missing v.asset (results.filter fun r => !r.status.hasTrustline)) := by
  rw [require, h]
  rfl

/-- The wallets a guard refuses are reported. -/
theorem reports_filter {payouts : List Payout} {results : List Result}
    (hpos : ∀ p ∈ payouts, 0 < p.stroops)
    (hfit : ∀ p ∈ payouts, paidTo payouts p.address < 2 ^ 63)
    (h : v.verifyPayouts payouts = .ok results) :
    v.Reports payouts (results.filter fun r => !r.status.hasTrustline) := by
  obtain ⟨horder, hall⟩ := verifyPayouts_eq_ok hpos hfit h
  have hfails : ∀ r ∈ results, r.status.hasTrustline = false ↔
      v.FailsFirst r.address (paidTo payouts r.address) r.status := by
    intro r hr
    rw [Status.hasTrustline, decide_eq_false_iff_not]
    refine ⟨fun hne => (hall r hr).resolve_left fun hok => hne hok.1, FailsFirst.ne_ok⟩
  refine ⟨fun address => ?_, fun r hr => ?_, ?_⟩
  · rw [← mem_needs, ← horder, List.mem_map, List.mem_map]
    constructor
    · rintro ⟨r, hr, rfl⟩
      rw [List.mem_filter, Bool.not_eq_true'] at hr
      exact ⟨⟨r, hr.1, rfl⟩, ((hfails r hr.1).mp hr.2).not_canReceive⟩
    · rintro ⟨⟨r, hr, rfl⟩, hnot⟩
      refine ⟨r, List.mem_filter.mpr ⟨hr, ?_⟩, rfl⟩
      rw [Bool.not_eq_true', hfails r hr]
      exact (hall r hr).resolve_left fun hok => hnot hok.2
  · rw [List.mem_filter, Bool.not_eq_true'] at hr
    exact (hfails r hr.1).mp hr.2
  · have hpairs := Tally.order_pairwise (payouts.map fun p => (p.address, max p.stroops 1))
    rw [← needs, ← horder, List.map_map, List.pairwise_map] at hpairs
    exact hpairs.sublist List.filter_sublist

end Verifier

open Verifier

/-- A wallet that cannot be looked up ends the guard with an error of its own. -/
theorem require_not_lookedUp (v : Verifier) {payouts : List Payout}
    (h : ∃ p ∈ payouts, ¬ v.LookedUp p.address) :
    ∃ e, v.require payouts = .error e ∧ e.isErrNoTrustline = false := by
  obtain ⟨p, hp, hnot⟩ := h
  obtain ⟨e, he, hown⟩ := verifyOrder_of_not_lookedUp (needs payouts).totals
    ⟨p.address, mem_needs.mpr (List.mem_map_of_mem hp), hnot⟩
  refine ⟨e, ?_, hown⟩
  rw [require, verifyPayouts, he]
  rfl

/-- With every lookup answered, the guard is the report of the wallets that fail. -/
theorem require_reports (v : Verifier) {payouts : List Payout} (hpos : ∀ p ∈ payouts, 0 < p.stroops)
    (hfit : ∀ p ∈ payouts, paidTo payouts p.address < 2 ^ 63)
    (hup : ∀ p ∈ payouts, v.LookedUp p.address) :
    ∃ wallets, v.Reports payouts wallets ∧
      v.require payouts = if wallets = [] then .ok () else .error (.missing v.asset wallets) := by
  have horder : ∀ addr ∈ (needs payouts).order, v.LookedUp addr := by
    intro addr haddr
    obtain ⟨p, hp, rfl⟩ := List.mem_map.mp (mem_needs.mp haddr)
    exact hup p hp
  obtain ⟨results, hresults⟩ := exists_verifyOrder (needs payouts).totals horder
  exact ⟨_, reports_filter hpos hfit hresults, require_of_results hresults⟩

theorem Verifier.Reports.eq_nil_iff {v : Verifier} {payouts : List Payout} {wallets : List Result}
    (h : v.Reports payouts wallets) :
    wallets = [] ↔ ∀ p ∈ payouts, v.CanReceive p.address (paidTo payouts p.address) := by
  rw [← List.map_eq_nil_iff (f := fun r : Result => r.address), List.eq_nil_iff_forall_not_mem]
  simp only [h.failing, List.mem_map, not_and, not_not, forall_exists_index, and_imp,
    forall_apply_eq_imp_iff₂]

theorem require_eq_ok_iff (v : Verifier) {payouts : List Payout}
    (hpos : ∀ p ∈ payouts, 0 < p.stroops)
    (hfit : ∀ p ∈ payouts, paidTo payouts p.address < 2 ^ 63) :
    v.require payouts = .ok () ↔
      ∀ p ∈ payouts, v.CanReceive p.address (paidTo payouts p.address) := by
  by_cases hup : ∀ p ∈ payouts, v.LookedUp p.address
  · obtain ⟨wallets, hreports, hrequire⟩ := require_reports v hpos hfit hup
    rw [hrequire, ← hreports.eq_nil_iff]
    split
    · rename_i hnil
      exact ⟨fun _ => hnil, fun _ => rfl⟩
    · rename_i hne
      exact ⟨nofun, fun hnil => absurd hnil hne⟩
  · have hbad := hup
    simp only [not_forall, exists_prop] at hbad
    obtain ⟨e, he, -⟩ := require_not_lookedUp v hbad
    rw [he]
    exact ⟨nofun, fun hcan => absurd (fun p hp => (hcan p hp).lookedUp) hup⟩

/-- The guard passes exactly when every wallet can receive the sum of its payouts, and then they
can be credited in any order.  It reports the wallets that cannot, and fails with an error of its
own on an invalid address or a failed lookup. -/
theorem require_exact (v : Verifier) {payouts : List Payout}
    (hpos : ∀ p ∈ payouts, 0 < p.stroops)
    (hfit : ∀ p ∈ payouts, paidTo payouts p.address < 2 ^ 63) :
    (v.require payouts = .ok () ↔
      ∀ p ∈ payouts, v.CanReceive p.address (paidTo payouts p.address)) ∧
    (v.require payouts = .ok () → ∀ ledger, v.Reflects ledger → ∀ credits : List Payout,
      credits.Perm payouts → (creditAll ledger credits).isSome = true) ∧
    ((∀ p ∈ payouts, v.LookedUp p.address) →
      (∃ p ∈ payouts, ¬ v.CanReceive p.address (paidTo payouts p.address)) →
      ∃ wallets, v.require payouts = .error (.missing v.asset wallets) ∧
        v.Reports payouts wallets) ∧
    ((∃ p ∈ payouts, ¬ v.LookedUp p.address) →
      ∃ e, v.require payouts = .error e ∧ e.isErrNoTrustline = false) := by
  have hexact := require_eq_ok_iff v hpos hfit
  refine ⟨hexact, fun hok ledger hledger credits hperm => ?_, fun hup hfails => ?_,
    require_not_lookedUp v⟩
  · refine creditAll_isSome (fun p hp => hpos p (hperm.mem_iff.mp hp)) fun p hp => ?_
    obtain ⟨-, balances, b, hsrc, hline, -, hroom⟩ := hexact.mp hok p (hperm.mem_iff.mp hp)
    have hpaid := paidTo_pos hpos (hperm.mem_iff.mp hp)
    rw [hledger _ _ _ hsrc hline] at hroom
    rw [paidTo_perm hperm]
    omega
  · obtain ⟨wallets, hreports, hrequire⟩ := require_reports v hpos hfit hup
    have hne : wallets ≠ [] := by
      rw [Ne, hreports.eq_nil_iff]
      rintro hall
      obtain ⟨p, hp, hnot⟩ := hfails
      exact hnot (hall p hp)
    exact ⟨wallets, hrequire.trans (if_neg hne), hreports⟩

/-- A verifier of accounts of which one exists, with room for `100` stroops. -/
def oneWallet : Verifier where
  src address :=
    if address = 71 :: List.replicate 55 65 then
      .ok [⟨[], [], true, false, 0⟩, ⟨[85], [71], false, true, 100⟩]
    else .error .accountNotFound
  asset := ⟨[85], [71]⟩
  code_ne := nofun
  issuer_ne := nofun

/-- Two payouts that fit together pass, and are credited in the other order. -/
theorem require_exact_one :
    oneWallet.require [⟨71 :: List.replicate 55 65, 60⟩, ⟨71 :: List.replicate 55 65, 40⟩]
        = .ok () ∧
      (creditAll (fun _ => ⟨100, 0, 0⟩)
        [⟨71 :: List.replicate 55 65, 40⟩, ⟨71 :: List.replicate 55 65, 60⟩]).isSome = true := by
  have hok : oneWallet.require
      [⟨71 :: List.replicate 55 65, 60⟩, ⟨71 :: List.replicate 55 65, 40⟩] = .ok () := by
    decide +kernel
  refine ⟨hok, (require_exact oneWallet (by decide) (by decide)).2.1 hok _ ?_ _
    (List.Perm.swap _ _ _)⟩
  intro address balances b hsrc hline
  simp only [oneWallet] at hsrc
  split at hsrc
  · cases hsrc
    cases hline
    rfl
  · cases hsrc

end Trustline
