/-
# Fees that cannot be computed

The go-live fee multiplies the reward by the rate before it divides, so a reward within `i128`
may have a fee that the contract cannot compute although it is small.  Nothing caps a reward but
the organizer's balance.  Every event of a run can be quoted and started, at every rate that
governance can set, exactly when no event is created with a reward whose product with the
ceiling rate leaves `i128`.
-/
import Astrea.EscrowFee
import Astrea.EscrowOnce
import Astrea.EscrowRefund

open Guard

namespace Escrow

variable {own : Address}

/-- The product of a reward with the ceiling of the rates stays within `i128`. -/
def Modest (reward : I128) : Prop := reward.val * maxFeeBps.toNat ≤ maxI128

instance (reward : I128) : Decidable (Modest reward) := inferInstanceAs (Decidable (_ ≤ _))

/-- The fee of a reward can be computed when its product with the rate stays within `i128`. -/
theorem goLiveFee_ok_iff {reward : I128} {feeBps : UInt32} (hpos : 0 ≤ reward.val) :
    (∃ fee, goLiveFee reward feeBps = .ok fee) ↔ reward.val * feeBps.toNat ≤ maxI128 := by
  have hproduct : 0 ≤ reward.val * feeBps.toNat := Int.mul_nonneg hpos (Int.natCast_nonneg _)
  constructor
  · rintro ⟨fee, hfee⟩
    obtain ⟨product, hval, -⟩ := goLiveFee_eq_ok.mp hfee
    rw [← hval]
    exact product.upper
  · intro hle
    have hquotient : 0 ≤ (reward.val * feeBps.toNat) / 10000 ∧
        (reward.val * feeBps.toNat) / 10000 ≤ maxI128 := by
      unfold maxI128 at hle ⊢
      omega
    refine ⟨⟨reward.val * feeBps.toNat / 10000, le_trans (by decide) hquotient.1, hquotient.2⟩,
      goLiveFee_eq_ok.mpr ⟨⟨reward.val * feeBps.toNat, le_trans (by decide) hproduct, hle⟩, rfl, ?_⟩⟩
    exact (Int.tdiv_eq_ediv_of_nonneg hproduct).symm

/-- A modest reward has a fee at every rate within the ceiling, and no other has. -/
theorem modest_iff {reward : I128} (hpos : 0 ≤ reward.val) :
    Modest reward ↔ ∀ feeBps ≤ maxFeeBps, ∃ fee, goLiveFee reward feeBps = .ok fee := by
  constructor
  · intro hmodest feeBps hle
    refine (goLiveFee_ok_iff hpos).mpr (le_trans ?_ hmodest)
    have hrate : feeBps.toNat ≤ maxFeeBps.toNat := hle
    exact Int.mul_le_mul_of_nonneg_left (by exact_mod_cast hrate) hpos
  · intro hall
    exact (goLiveFee_ok_iff hpos).mp (hall maxFeeBps (Nat.le_refl _))

/-! ## The go-live traps only in the token -/

/-- A charge that is covered traps at most in the token. -/
theorem chargeGoLiveFee_covered {env : Env own} {s : State} {admin token treasury : Address}
    {fee : I128} {w : AdminWallet} (hpos : 0 ≤ fee.val) (ht : s.gov.treasury = some treasury)
    (hw : s.wallet.lookup admin = some w) (hle : fee.val ≤ w.balance.val) :
    (∃ r, chargeGoLiveFee env s admin token fee = .ok r) ∨
      chargeGoLiveFee env s admin token fee = .error .transferFailed := by
  have hupper := w.balance.upper
  have hlower : 0 ≤ w.balance.val - fee.val := by omega
  obtain ⟨balance, hbalance⟩ : ∃ balance : I128, balance.val = w.balance.val - fee.val :=
    ⟨⟨w.balance.val - fee.val, le_trans (by decide) hlower, by omega⟩, rfl⟩
  have hsub : w.balance.sub fee = some balance := BoundedInt.sub_eq_some.mpr hbalance
  cases hok : env.transferOk s.balances token own treasury fee with
  | true =>
      exact .inl ⟨_, chargeGoLiveFee_eq_ok.mpr ⟨ht, w, balance, hw, hle, hbalance, hok, rfl⟩⟩
  | false =>
      right
      rw [chargeGoLiveFee, getTreasury, ht]
      simp only [expect, hw, ensure, hle, hsub, transfer, State.setWallet_balances, hok, if_true,
        Bool.false_eq_true, if_false, Bind.bind, Except.bind]

/-- Every event can be charged at every rate that governance can set: its fee is quoted, and its
go-live by its organizer, unpaused, before the start, with a judging deadline ahead, a treasury
and a wallet that covers the fee, succeeds or traps in the token's transfer. -/
def Chargeable (own : Address) (s : State) : Prop :=
  ∀ i e, s.event.lookup i = some e →
    (∀ feeBps ≤ maxFeeBps, ∃ fee, goLiveFee e.reward feeBps = .ok fee) ∧
    (∃ fee, quoteGoLiveFee s i = .ok fee) ∧
    ∀ (env : Env own) judgingDeadline treasury w, e.admin ∈ env.auths →
      NotPaused s.gov e.admin → PreLaunch e.state → env.timestamp < judgingDeadline →
      s.gov.treasury = some treasury → s.wallet.lookup e.admin = some w →
      feeOf e.reward (getFeeBps s.gov) ≤ w.balance.val →
      (∃ s', exec env s (.setEventInProgress e.admin i judgingDeadline) = .ok s') ∨
        exec env s (.setEventInProgress e.admin i judgingDeadline) = .error .transferFailed

/-- Modest rewards and a rate within the ceiling make every event chargeable. -/
theorem chargeable_of_modest {s : State} (hs : Booked s.wallet s.event)
    (hrate : getFeeBps s.gov ≤ maxFeeBps)
    (hmodest : ∀ i e, s.event.lookup i = some e → Modest e.reward) : Chargeable own s := by
  intro i e he
  have hreward := hs.reward_nonneg i e he
  have hall := (modest_iff hreward).mp (hmodest i e he)
  obtain ⟨fee, hfee⟩ := hall _ hrate
  have hquote : quoteGoLiveFee s i = .ok fee := by
    rw [quoteGoLiveFee, he]
    exact hfee
  refine ⟨hall, ⟨fee, hquote⟩, ?_⟩
  intro env d treasury w ha hp hst hd ht hw hle
  have hval := goLiveFee_val hreward hfee
  rw [← hval] at hle
  have hauth : requireAuth env e.admin = .ok () := requireAuth_eq_ok.mpr ha
  have hpaused : assertNotPaused s.gov e.admin = .ok () := assertNotPaused_eq_ok.mpr hp
  show (∃ s', setEventInProgress env s e.admin i d = .ok s') ∨
    setEventInProgress env s e.admin i d = .error .transferFailed
  by_cases hpos : 0 < fee.val
  · have hcases : (∃ r, chargeGoLiveFee env s e.admin e.token fee = .ok r) ∨
        chargeGoLiveFee env s e.admin e.token fee = .error .transferFailed :=
      chargeGoLiveFee_covered hpos.le ht hw hle
    rcases hcases with ⟨⟨t, a⟩, hcharge⟩ | hcharge
    · exact .inl ⟨_, setEventInProgress_eq_ok.mpr
        ⟨ha, hp, e, fee, he, rfl, hst, hd, hfee, .inr ⟨hpos, t, a, hcharge, rfl⟩⟩⟩
    · right
      rw [setEventInProgress, hauth, hpaused]
      simp only [expect, he, ensure, hst, hd, hfee, hpos, hcharge, if_true, Bind.bind, Except.bind]
  · exact .inl ⟨_, setEventInProgress_eq_ok.mpr
      ⟨ha, hp, e, fee, he, rfl, hst, hd, hfee, .inl ⟨hpos, rfl⟩⟩⟩

/-! ## Runs -/

/-- The transition, if it creates an event, creates one of a modest reward. -/
def CreatesModest (t : Transition State (Label own)) : Prop :=
  match t.label with
  | .call _ call => ∀ c, call.creation? = some c → Modest c.reward
  | _ => True

/-- An event is left with at most the reward it had, or with the one it was created with. -/
theorem EventMove.reward_le {env : Env own} {s s' : State} {i : EventId} {call : Call}
    {o : Option Event} {e' : Event} (h : EventMove env s s' i call o (some e')) :
    (∃ e, o = some e ∧ e'.reward.val ≤ e.reward.val) ∨
      ∃ c, call.creation? = some c ∧ e'.reward = c.reward := by
  cases h with
  | untouched h => exact .inl ⟨e', rfl, le_rfl⟩
  | create call_eq => exact .inr ⟨_, call_eq, rfl⟩
  | emergency auth resolver_auth pos state_eq covered reward_eq =>
      exact .inl ⟨_, rfl, by rw [reward_eq]; omega⟩
  | _ => exact .inl ⟨_, rfl, le_rfl⟩

/-- A creation leaves an event of the reward it names. -/
theorem EventMove.of_creation {env : Env own} {s s' : State} {call : Call} {c : Creation}
    {o o' : Option Event} (h : EventMove env s s' c.eventId call o o')
    (hc : call.creation? = some c) : ∃ e, o' = some e ∧ e.reward = c.reward := by
  cases h with
  | untouched h => exact absurd (Call.writes?_of_creation? hc) h
  | create call_eq =>
      obtain rfl := Option.some_inj.mp (hc.symm.trans call_eq)
      exact ⟨_, rfl, rfl⟩
  | _ => exact nomatch hc

/-- A step that creates modest events only keeps all rewards modest. -/
theorem Step.modest {s s' : State} {l : Label own} (h : Step own s l s')
    (hcreates : CreatesModest ⟨s, l, s'⟩)
    (hs : ∀ i e, s.event.lookup i = some e → Modest e.reward) :
    ∀ i e, s'.event.lookup i = some e → Modest e.reward := by
  intro i e' he'
  cases h with
  | @call _ env call ok =>
      have hmove := (exec_effect ok).eventMove i
      rw [he'] at hmove
      rcases hmove.reward_le with ⟨e, he, hle⟩ | ⟨c, hc, hreward⟩
      · have hbefore := hs i e he
        have hrate : maxFeeBps.toNat = 500 := rfl
        unfold Modest at hbefore ⊢
        rw [hrate] at hbefore ⊢
        omega
      · rw [hreward]
        exact hcreates c hc
  | reverted error => exact hs i e' he'
  | ledger grows => exact hs i e' he'

/-- A step after which every event is chargeable created modest events only. -/
theorem Step.createsModest {s s' : State} {l : Label own} (h : Step own s l s')
    (hbooked : Booked s'.wallet s'.event) (hs' : Chargeable own s') :
    CreatesModest ⟨s, l, s'⟩ := by
  cases h with
  | @call _ env call ok =>
      intro c hc
      obtain ⟨e, he, hreward⟩ := ((exec_effect ok).eventMove c.eventId).of_creation hc
      rw [← hreward]
      exact (modest_iff (hbooked.reward_nonneg _ e he)).mpr (hs' _ e he).1
  | reverted error => trivial
  | ledger grows => trivial

/-- The rewards of a run that creates modest events only are modest. -/
theorem EscrowRun.modest {b : Balances} {tr : List (Transition State (Label own))} {s : State}
    (hr : EscrowRun own b tr s) (hall : ∀ t ∈ tr, CreatesModest t) :
    ∀ i e, s.event.lookup i = some e → Modest e.reward := by
  refine (hr.restrict hall).invariant
    (I := fun s => ∀ i e, s.event.lookup i = some e → Modest e.reward) ?_ ?_
  · intro i e he
    exact nomatch he
  · rintro s l s' hs ⟨hstep, hcreates⟩
    exact hstep.modest hcreates hs

/-- In a run that creates modest events only, every event of every state reached is chargeable;
and a run in whose states every event is chargeable created modest events only. -/
theorem fees_computable {b : Balances} {tr : List (Transition State (Label own))} {s : State}
    (hr : EscrowRun own b tr s) :
    (∀ t ∈ tr, CreatesModest t) ↔ ∀ t ∈ tr, Chargeable own t.post := by
  constructor
  · intro hall t ht
    obtain ⟨before, after, rfl⟩ := List.append_of_mem ht
    obtain ⟨hbefore, hstep, -⟩ := hr.split
    have hpost : EscrowRun own b (before ++ [t]) t.post := hbefore.snoc hstep
    refine chargeable_of_modest hpost.booked hpost.feeBps_le (hpost.modest fun u hu => hall u ?_)
    rcases List.mem_append.mp hu with hu | hu
    · exact List.mem_append_left _ hu
    · rw [List.mem_singleton.mp hu]
      exact ht
  · intro hall t ht
    obtain ⟨before, after, rfl⟩ := List.append_of_mem ht
    obtain ⟨hbefore, hstep, -⟩ := hr.split
    have hpost : EscrowRun own b (before ++ [t]) t.post := hbefore.snoc hstep
    exact hstep.createsModest hpost.booked (hall t ht)

/-- The transitions of a script make its calls. -/
theorem playTrace_label {script : List (Env own × Call)} {s : State}
    {t : Transition State (Label own)} (ht : t ∈ playTrace s script) :
    ∃ p ∈ script, t.label = .call p.1 p.2 := by
  induction script generalizing s with
  | nil => exact nomatch ht
  | cons p rest ih =>
      obtain ⟨env, call⟩ := p
      unfold playTrace at ht
      split at ht
      · rcases List.mem_cons.mp ht with rfl | ht
        · exact ⟨_, List.mem_cons_self, rfl⟩
        · obtain ⟨p, hp, hlabel⟩ := ih ht
          exact ⟨p, List.mem_cons_of_mem _ hp, hlabel⟩
      · exact nomatch ht

/-- Every state of the sample deployment up to the creation can be quoted. -/
theorem fees_computable_sample : ∃ tr, EscrowRun Sample.escrow Sample.balances tr Sample.created ∧
    ∀ t ∈ tr, Chargeable Sample.escrow t.post := by
  have hrun := play_run (okOf_eq (r := play (genesis Sample.balances) (Sample.liveScript.take 4))
    (by decide +kernel))
  refine ⟨_, hrun, (fees_computable hrun).mp fun t ht => ?_⟩
  obtain ⟨p, hp, hlabel⟩ := playTrace_label ht
  unfold CreatesModest
  rw [hlabel]
  have hscript : ∀ p ∈ Sample.liveScript.take 4, p.2.creation?.all
      fun c => decide (Modest c.reward) := by decide +kernel
  intro c hc
  have hreward := hscript p hp
  rw [hc, Option.all_some] at hreward
  exact of_decide_eq_true hreward

/-- An organizer who owns `2^126` units of the token. -/
def Sample.richBalances : Balances := fun t a =>
  if t = Sample.token ∧ a = Sample.organizer then 85070591730234615865843651857942052864 else 0

/-- Half of them become the reward of an event, the other half stays free. -/
def Sample.richScript : List (Env Sample.escrow × Call) :=
  [(Sample.env 1 [Sample.emergencyAdmin], .initializeEmergencyAdmin Sample.emergencyAdmin),
   (Sample.env 2 [Sample.emergencyAdmin],
     .initializeTreasury Sample.emergencyAdmin Sample.treasury),
   (Sample.env 3 [Sample.organizer], .depositFunds Sample.organizer Sample.token
     (.ofNat 85070591730234615865843651857942052864)),
   (Sample.env 4 [Sample.organizer], .createEvent Sample.organizer Sample.judge
     (some Sample.resolver) Sample.token (.ofNat 42535295865117307932921825928971026432) 7)]

def Sample.rich : State :=
  okOf (play (genesis Sample.richBalances) Sample.richScript) (by decide +kernel)

/-- The trap a computation stops with. -/
def trapOf {α : Type} : Except Trap α → Option Trap
  | .ok _ => none
  | .error trap => some trap

theorem eq_error_of_trapOf {α : Type} {r : Except Trap α} {trap : Trap}
    (h : trapOf r = some trap) : r = .error trap := by
  cases r with
  | ok a => exact nomatch h
  | error t => rw [Option.some_inj.mp h]

/-- The event of that script. -/
def Sample.richEvent : Event :=
  { Sample.liveEvent with
    reward := .ofNat 42535295865117307932921825928971026432, state := .created,
    judgingDeadline := none }

/-- An accepted event that can neither be quoted nor started at the default rate, although its
organizer's wallet covers the fee. -/
theorem fees_not_computable : Reachable Sample.escrow Sample.rich ∧
    Sample.rich.event.lookup 7 = some Sample.richEvent ∧
    NotPaused Sample.rich.gov Sample.organizer ∧
    Sample.rich.gov.treasury = some Sample.treasury ∧
    feeOf Sample.richEvent.reward (getFeeBps Sample.rich.gov)
      ≤ (getBalance Sample.rich Sample.organizer).val ∧
    quoteGoLiveFee Sample.rich 7 = .error .overflow ∧
    exec (Sample.env 5 [Sample.organizer]) Sample.rich
      (.setEventInProgress Sample.organizer 7 100) = .error .overflow ∧
    ¬ Chargeable Sample.escrow Sample.rich := by
  have hrich : Sample.rich.event.lookup 7 = some Sample.richEvent ∧
      NotPaused Sample.rich.gov Sample.organizer ∧
      Sample.rich.gov.treasury = some Sample.treasury ∧
      feeOf Sample.richEvent.reward (getFeeBps Sample.rich.gov)
        ≤ (getBalance Sample.rich Sample.organizer).val ∧
      quoteGoLiveFee Sample.rich 7 = .error .overflow := by decide +kernel
  obtain ⟨hevent, hpaused, htreasury, hcovered, hquote⟩ := hrich
  refine ⟨⟨Sample.richBalances, _, ?_, play_run (okOf_eq _)⟩, hevent, hpaused, htreasury, hcovered,
    hquote, eq_error_of_trapOf (by decide +kernel), ?_⟩
  · intro t
    have hne : Sample.escrow ≠ Sample.organizer := by decide
    simp only [Sample.richBalances, hne, and_false, if_false, le_refl]
  · intro hall
    obtain ⟨fee, hfee⟩ := (hall 7 _ hevent).2.1
    exact nomatch hquote.symm.trans hfee

end Escrow
