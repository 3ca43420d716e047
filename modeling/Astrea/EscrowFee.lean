/-
# The go-live fee

The fee is a rate of the reward, rounded down, at a rate the emergency admin sets up to a
fixed ceiling.  It comes out of the organizer's free balance on top of the reward, so what an
organizer still has with the contract (the free balance and the reserves of the events) is
what was deposited less what was spent and less the fees, and nothing ever puts a fee back.
-/
import Astrea.EscrowCustody
import Astrea.EscrowDisposition

open Guard KeyTable

namespace Escrow

variable {own : Address}

/-! ## The rate -/

/-- A fund-moving call leaves the governance values. -/
theorem Effect.gov_eq {env : Env own} {s s' : State} {call : Call}
    (h : Effect env s call s') (hfunds : call.movesFunds = true) : s'.gov = s.gov := by
  cases h with
  | govern quiet => exact nomatch hfunds.symm.trans quiet
  | read quiet => rfl
  | _ => rfl

/-- A call changes the rate only to one within the ceiling. -/
theorem exec_feeBps {env : Env own} {s s' : State} {call : Call}
    (h : exec env s call = .ok s') :
    getFeeBps s'.gov = getFeeBps s.gov ∨ getFeeBps s'.gov ≤ maxFeeBps := by
  cases hfunds : call.movesFunds with
  | true =>
      left
      rw [(exec_effect h).gov_eq hfunds]
  | false =>
      -- of the calls that move no funds only one writes the rate, after its check
      cases call with
      | initializeEmergencyAdmin a =>
          obtain ⟨-, -, rfl⟩ := initializeEmergencyAdmin_eq_ok.mp h
          exact .inl rfl
      | initializeDefaultResolver caller a =>
          obtain ⟨-, -, rfl⟩ := initializeDefaultResolver_eq_ok.mp h
          exact .inl rfl
      | setPaused caller p =>
          obtain ⟨-, rfl⟩ := setPaused_eq_ok.mp h
          exact .inl rfl
      | setAdminPaused caller a p =>
          obtain ⟨-, rfl⟩ := setAdminPaused_eq_ok.mp h
          exact .inl rfl
      | setTokenWhitelistEnabled caller p =>
          obtain ⟨-, rfl⟩ := setTokenWhitelistEnabled_eq_ok.mp h
          exact .inl rfl
      | setTokenAllowed caller a p =>
          obtain ⟨-, rfl⟩ := setTokenAllowed_eq_ok.mp h
          exact .inl rfl
      | initializeTreasury caller a =>
          obtain ⟨-, -, rfl⟩ := initializeTreasury_eq_ok.mp h
          exact .inl rfl
      | setFeeBps caller bps =>
          obtain ⟨-, hle, rfl⟩ := setFeeBps_eq_ok.mp h
          exact .inr hle
      | depositFunds | withdrawFunds | createEvent | createEventWithDeadline | expireEvent
      | setEventWaitingForStart | setEventInProgress | setEventCancelled | emergencyWithdraw
      | releaseCompensation | releaseReward | resolveDispute => exact nomatch hfunds
      | _ =>
          obtain rfl := readOnly_eq_ok h
          exact .inl rfl

/-- The effective rate stays within the ceiling. -/
theorem EscrowRun.feeBps_le {b : Balances} {tr : List (Transition State (Label own))}
    {s : State} (hr : EscrowRun own b tr s) : getFeeBps s.gov ≤ maxFeeBps := by
  have hfresh : getFeeBps (genesis b).gov ≤ maxFeeBps := by
    show defaultFeeBps ≤ maxFeeBps
    decide
  refine hr.invariant (I := fun s => getFeeBps s.gov ≤ maxFeeBps) hfresh ?_
  intro s l s' hI hstep
  cases hstep with
  | call ok =>
      rcases exec_feeBps ok with heq | hle
      · rw [heq]
        exact hI
      · exact hle
  | reverted error => exact hI
  | ledger grows => exact hI

/-! ## The amount -/

/-- The fee of a reward at a rate: the exact product over ten thousand, rounded down. -/
def feeOf (reward : I128) (feeBps : UInt32) : ℤ := reward.val * feeBps.toNat / 10000

/-- The formula the contract computes, twice, is the fee. -/
theorem goLiveFee_val {reward fee : I128} {feeBps : UInt32} (hpos : 0 ≤ reward.val)
    (h : goLiveFee reward feeBps = .ok fee) : fee.val = feeOf reward feeBps := by
  obtain ⟨product, hproduct, hfee⟩ := goLiveFee_eq_ok.mp h
  rw [hfee, hproduct, feeOf, Int.tdiv_eq_ediv_of_nonneg]
  exact Int.mul_nonneg hpos (Int.natCast_nonneg _)

theorem feeOf_nonneg {reward : I128} (feeBps : UInt32) (hpos : 0 ≤ reward.val) :
    0 ≤ feeOf reward feeBps :=
  Int.ediv_nonneg (Int.mul_nonneg hpos (Int.natCast_nonneg _)) (by decide)

/-- Within the ceiling the fee is at most a twentieth of the reward. -/
theorem feeOf_le {reward : I128} {feeBps : UInt32} (hpos : 0 ≤ reward.val)
    (hle : feeBps ≤ maxFeeBps) : 20 * feeOf reward feeBps ≤ reward.val := by
  have hrate : (feeBps.toNat : ℤ) ≤ 500 := by
    have hnat : feeBps.toNat ≤ maxFeeBps.toNat := hle
    have hmax : maxFeeBps.toNat = 500 := rfl
    omega
  have hproduct := Int.mul_le_mul_of_nonneg_left hrate hpos
  unfold feeOf
  omega

/-! ## The charge -/

/-- A fee taken from an organizer's free balance, in the event's token, and paid to the
treasury; a fee of zero changes nothing. -/
def Charged (own admin token : Address) (fee : ℤ) (s s' : State) : Prop :=
  (fee = 0 ∧ s'.wallet = s.wallet ∧ s'.balances = s.balances) ∨
  ∃ treasury w balance, 0 < fee ∧ s.gov.treasury = some treasury ∧
    s.wallet.lookup admin = some w ∧ w.token = token ∧
    balance.val = w.balance.val - fee ∧ 0 ≤ balance.val ∧
    s'.wallet = s.wallet.insert admin { w with balance := balance } ∧
    s'.balances = move s.balances token own treasury fee

/-- What a successful go-live charges, and what it quoted just before. -/
theorem setEventInProgress_charges {s s' : State} (hs : Booked s.wallet s.event)
    {env : Env own} {admin : Address} {i : EventId} {d : UInt64} {e : Event}
    (he : s.event.lookup i = some e)
    (h : exec env s (.setEventInProgress admin i d) = .ok s') :
    ∃ fee : I128, quoteGoLiveFee s i = .ok fee ∧ fee.val = feeOf e.reward (getFeeBps s.gov) ∧
      Charged own admin e.token fee.val s s' ∧ e.admin = admin ∧
      s'.event.lookup i
        = some { e with state := .inProgress, judgingDeadline := some d } := by
  obtain ⟨-, -, e', fee, he', hadm, -, -, hfee, h⟩ := setEventInProgress_eq_ok.mp h
  obtain rfl := Option.some_inj.mp (he.symm.trans he')
  have hreward := hs.reward_nonneg i e he
  have hval := goLiveFee_val hreward hfee
  have hquote : quoteGoLiveFee s i = .ok fee := by
    rw [quoteGoLiveFee, he]
    exact hfee
  refine ⟨fee, hquote, hval, ?_⟩
  rcases h with ⟨hzero, rfl⟩ | ⟨hpos, t, treasury, hc, rfl⟩
  · have hnonneg := feeOf_nonneg (getFeeBps s.gov) hreward
    exact ⟨.inl ⟨by omega, rfl, rfl⟩, hadm, AList.lookup_insert _⟩
  · obtain ⟨ht, w, balance, hw, hle, hb, -, rfl⟩ := chargeGoLiveFee_eq_ok.mp hc
    -- the wallet that pays is kept in the event's token
    have htok := hs.wallet_token he hadm hw
    refine ⟨.inr ⟨treasury, w, balance, hpos, ht, hw, htok, hb, by omega, rfl, rfl⟩, hadm, ?_⟩
    exact AList.lookup_insert _

/-- A due fee without a treasury, or above the free balance, stops the go-live. -/
theorem setEventInProgress_refused {s s' : State} (hs : Booked s.wallet s.event)
    {env : Env own} {admin : Address} {i : EventId} {d : UInt64} {e : Event}
    (he : s.event.lookup i = some e) (hpos : 0 < feeOf e.reward (getFeeBps s.gov))
    (hshort : s.gov.treasury = none ∨
      (getBalance s admin).val < feeOf e.reward (getFeeBps s.gov)) :
    exec env s (.setEventInProgress admin i d) ≠ .ok s' := by
  intro h
  obtain ⟨fee, -, hval, hcharged, -, -⟩ := setEventInProgress_charges hs he h
  rcases hcharged with ⟨hzero, -⟩ | ⟨treasury, w, balance, -, ht, hw, -, hb, hnonneg, -⟩
  · omega
  · rcases hshort with hnone | hlow
    · exact nomatch hnone.symm.trans ht
    · rw [getBalance, hw] at hlow
      simp only at hlow
      omega

/-! ## Once per event -/

/-- The transition is a successful go-live of event `i`. -/
def startsEvent (i : EventId) (t : Transition State (Label own)) : Bool :=
  match t.label with
  | .call _ (.setEventInProgress _ j _) => j = i
  | _ => false

/-- Whether the event has left the states it can go live from. -/
def launched (s : State) (i : EventId) : ℕ :=
  match s.event.lookup i with
  | some e => if PreLaunch e.state then 0 else 1
  | none => 0

/-- No edge leads back before the launch. -/
theorem Edge.launched {st st' : EventState} (h : Edge st st') (hst : ¬ PreLaunch st) :
    ¬ PreLaunch st' := by
  cases h with
  | wait => exact absurd (.inl rfl) hst
  | start h => exact absurd h hst
  | cancel h => exact absurd h hst
  | finish => decide
  | compensate => decide

/-- Nothing leads back before the launch. -/
theorem Step.launched_le {s s' : State} {l : Label own} (h : Step own s l s') (i : EventId) :
    launched s i ≤ launched s' i := by
  unfold launched
  cases he : s.event.lookup i with
  | none => exact Nat.zero_le _
  | some e =>
      obtain ⟨e', he', -, hst, -⟩ := h.follows he
      rw [he']
      by_cases hpre : PreLaunch e.state
      · simp only [hpre, if_true, Nat.zero_le]
      · have hpost : ¬ PreLaunch e'.state := by
          rcases hst with heq | hedge
          · rw [heq]
            exact hpre
          · exact hedge.launched hpre
        simp only [hpre, hpost, if_false, le_refl]

/-- A go-live is the launch. -/
theorem Step.launched_of_starts {s s' : State} {l : Label own} (h : Step own s l s')
    {i : EventId} (hstarts : startsEvent i (⟨s, l, s'⟩ : Transition State (Label own))) :
    launched s i ≤ 0 ∧ 0 < launched s' i := by
  cases h with
  | @call _ env call ok =>
      cases call with
      | setEventInProgress admin j d =>
          obtain rfl : j = i := of_decide_eq_true hstarts
          obtain ⟨-, -, e, fee, he, -, hpre, -, -, h⟩ := setEventInProgress_eq_ok.mp ok
          have hlive : ¬ PreLaunch EventState.inProgress := by decide
          have hpost : ∃ e', s'.event.lookup j = some e' ∧ e'.state = .inProgress := by
            rcases h with ⟨-, rfl⟩ | ⟨-, t, treasury, -, rfl⟩
            · exact ⟨_, AList.lookup_insert _, rfl⟩
            · exact ⟨_, AList.lookup_insert _, rfl⟩
          obtain ⟨e', he', hst⟩ := hpost
          simp only [launched, he, he', hpre, hst, hlive, if_true, if_false]
          exact ⟨le_refl 0, Nat.one_pos⟩
      | _ => exact nomatch hstarts
  | reverted error => exact nomatch hstarts
  | ledger grows => exact nomatch hstarts

/-- An event goes live at most once in a run. -/
theorem EscrowRun.starts_once {b : Balances} {tr : List (Transition State (Label own))}
    {s : State} (hr : EscrowRun own b tr s) (i : EventId) :
    tr.countP (startsEvent i) ≤ 1 :=
  hr.crosses_once (fun s => launched s i) 0 (fun _ _ _ h => h.launched_le i)
    fun _ _ _ h => h.launched_of_starts

/-! ## Nothing gives a fee back -/

/-- The reserve of one event, counted for its organizer. -/
def heldFor (admin : Address) (_ : EventId) (e : Event) : ℤ :=
  if e.admin = admin ∧ Held e.state then e.reward.val else 0

/-- What an organizer has with the contract: the free balance and the reserves. -/
def stake (admin : Address) (s : State) : ℤ :=
  (getBalance s admin).val + totalOf (heldFor admin) s.event

/-- What a call deposits for an organizer. -/
def depositedBy (admin : Address) : Call → ℤ
  | .depositFunds a _ amount => if a = admin then amount.val else 0
  | _ => 0

/-- What a call withdraws for an organizer, or pays out of its funds to participants or
winners. -/
def spentBy (admin : Address) (s : State) : Call → ℤ
  | .withdrawFunds a amount => if a = admin then amount.val else 0
  | .releaseCompensation a _ participants =>
      if a = admin then totalPaid (participantPayments participants) else 0
  | .releaseReward _ i winners | .resolveDispute _ i winners =>
      match s.event.lookup i with
      | some e => if e.admin = admin then totalPaid (winnerPayments winners) else 0
      | none => 0
  | _ => 0

/-- The fee a call charges an organizer. -/
def feeChargedBy (admin : Address) (s : State) : Call → ℤ
  | .setEventInProgress a i _ =>
      match s.event.lookup i with
      | some e => if a = admin then feeOf e.reward (getFeeBps s.gov) else 0
      | none => 0
  | _ => 0

/-- The three, over the successful calls of a run. -/
def onCall (f : State → Call → ℤ) (t : Transition State (Label own)) : ℤ :=
  match t.label with
  | .call _ call => f t.pre call
  | _ => 0

/-- A call that moves no funds deposits, spends and charges nothing. -/
theorem quiet_amounts {call : Call} (h : call.movesFunds = false) (admin : Address)
    (s : State) : depositedBy admin call = 0 ∧ spentBy admin s call = 0 ∧
      feeChargedBy admin s call = 0 := by
  cases call <;> first | exact ⟨rfl, rfl, rfl⟩ | exact nomatch h

/-- A wallet that is written changes its owner's stake by the difference. -/
theorem stake_setWallet (admin : Address) (s : State) (a : Address) (w : AdminWallet) :
    stake admin (s.setWallet a w) = stake admin s
      + if a = admin then w.balance.val - (getBalance s a).val else 0 := by
  unfold stake
  by_cases ha : a = admin
  · subst ha
    rw [getBalance_setWallet, if_pos rfl, State.setWallet_event]
    omega
  · have hother : getBalance (s.setWallet a w) admin = getBalance s admin := by
      unfold getBalance
      rw [State.setWallet_wallet, AList.lookup_insert_ne (Ne.symm ha)]
    rw [hother, if_neg ha, add_zero, State.setWallet_event]

/-- An event changes the stake of its organizer. -/
theorem stake_setEvent (admin : Address) (s : State) (i : EventId) (e : Event) :
    stake admin (s.setEvent i e) = stake admin s
      - weightAt (heldFor admin) i (s.event.lookup i) + heldFor admin i e := by
  unfold stake
  rw [State.setEvent_event, totalOf_insert]
  have hsame : getBalance (s.setEvent i e) admin = getBalance s admin := rfl
  rw [hsame]
  omega

@[simp] theorem stake_publish (admin : Address) (s : State) (n : ContractEvent) :
    stake admin (s.publish n) = stake admin s := rfl

@[simp] theorem stake_setBalances (admin : Address) (s : State) (b : Balances) :
    stake admin (s.setBalances b) = stake admin s := rfl

@[simp] theorem stake_appendIndex (admin : Address) (s : State) (a : Address)
    (count next : UInt32) (i : EventId) :
    stake admin (s.appendIndex a count next i) = stake admin s := rfl

/-- A reserve that stays a reserve does not change what its organizer has. -/
theorem stake_setEvent_held {admin : Address} {s : State} {i : EventId} {e : Event}
    {st : EventState} {deadline : Option UInt64} (he : s.event.lookup i = some e)
    (hst : Held e.state) (hst' : Held st) :
    stake admin (s.setEvent i { e with state := st, judgingDeadline := deadline })
      = stake admin s := by
  rw [stake_setEvent, he, weightAt_some]
  simp only [heldFor, hst, hst']
  omega

/-- A refund moves a reserve into the free balance. -/
theorem stake_refund {admin : Address} {s : State} {i : EventId} {e : Event} {w : AdminWallet}
    {balance : I128} (he : s.event.lookup i = some e) (hst : PreLaunch e.state)
    (hw : s.wallet.lookup e.admin = some w) (hb : balance.val = w.balance.val + e.reward.val) :
    stake admin ((s.setEvent i { e with state := .cancelled }).setWallet e.admin
      { w with balance := balance }) = stake admin s := by
  have hcancelled : ¬ Held EventState.cancelled := by decide
  have hsame : getBalance (s.setEvent i { e with state := .cancelled }) e.admin = w.balance :=
    getBalance_of_lookup hw
  rw [stake_setWallet, stake_setEvent, he, weightAt_some, hsame]
  simp only [heldFor, hst.held, hcancelled, hb, and_true, and_false, if_false]
  by_cases ha : e.admin = admin
  · simp only [ha, if_true]
    omega
  · simp only [ha, if_false]
    omega

/-- A payout takes the reserve of its event. -/
theorem stake_paidOut {admin : Address} {s : State} {i : EventId} {e : Event}
    {winners : List Winner} (he : s.event.lookup i = some e) (hst : e.state = .inProgress)
    (hv : ValidSplit winners e.reward.val) :
    stake admin (paidOut own s i e winners) = stake admin s
      - if e.admin = admin then totalPaid (winnerPayments winners) else 0 := by
  have hheld : Held e.state := .inr (.inr hst)
  have hended : ¬ Held EventState.ended := by decide
  rw [paidOut, stake_setBalances, stake_setEvent, he, weightAt_some, hv.total]
  simp only [heldFor, hheld, hended, and_true, and_false, if_false, add_zero]

/-- Every call changes what an organizer has by what it deposits, less what it spends, less
the fee it charges. -/
theorem Effect.stake_eq {env : Env own} {s s' : State} {call : Call}
    (h : Effect env s call s') (hs : Booked s.wallet s.event) (admin : Address) :
    stake admin s' = stake admin s + (depositedBy admin call - spentBy admin s call
      - feeChargedBy admin s call) := by
  cases h with
  | @deposit a token amount wallet balance auth unpaused allowed pos wallet_eq token_eq
      balance_eq =>
      -- a wallet that is opened by the deposit counts as empty before
      have hbefore : getBalance (s.setBalances (move s.balances token a own amount.val)) a
          = wallet.balance := by
        rcases hl : s.wallet.lookup a with _ | w
        · rw [hl, Option.getD_none] at wallet_eq
          rw [getBalance, State.setBalances_wallet, hl, ← wallet_eq]
        · rw [hl, Option.getD_some] at wallet_eq
          rw [getBalance, State.setBalances_wallet, hl, ← wallet_eq]
      rw [stake_setWallet, stake_setBalances, hbefore, balance_eq]
      simp only [depositedBy, spentBy, feeChargedBy]
      split <;> omega
  | @withdraw a amount wallet balance auth unpaused pos wallet_eq covered balance_eq =>
      rw [stake_setBalances, stake_setWallet, getBalance_of_lookup wallet_eq, balance_eq]
      simp only [depositedBy, spentBy, feeChargedBy]
      split <;> omega
  | @create call c wallet balance resolver next call_eq auth unpaused pos fresh wallet_eq
      token_eq covered balance_eq resolver_eq =>
      have hnone : depositedBy admin call = 0 ∧ spentBy admin s call = 0 ∧
          feeChargedBy admin s call = 0 := by
        cases call <;> first | exact ⟨rfl, rfl, rfl⟩ | cases call_eq
      have hheld : Held EventState.created := .inl rfl
      rw [hnone.1, hnone.2.1, hnone.2.2, stake_publish, stake_appendIndex, stake_setEvent,
        stake_setWallet, getBalance_of_lookup wallet_eq, State.setWallet_event, fresh,
        weightAt_none]
      simp only [heldFor, Creation.event, hheld, and_true, balance_eq]
      split <;> omega
  | expire event_eq state_eq deadline_eq passed wallet_eq balance_eq =>
      simp only [depositedBy, spentBy, feeChargedBy, sub_zero, add_zero]
      exact stake_refund event_eq state_eq wallet_eq balance_eq
  | waiting auth event_eq admin_eq state_eq =>
      simp only [depositedBy, spentBy, feeChargedBy, sub_zero, add_zero]
      exact stake_setEvent_held event_eq (.inl state_eq) (by decide)
  | goLiveFree auth event_eq admin_eq state_eq future fee_eq no_fee =>
      have hreward := hs.reward_nonneg _ _ event_eq
      have hval := goLiveFee_val hreward fee_eq
      have hnonneg := feeOf_nonneg (getFeeBps s.gov) hreward
      -- a fee that was not charged is zero
      have hzero : feeOf _ (getFeeBps s.gov) = 0 := le_antisymm (by omega) hnonneg
      simp only [depositedBy, spentBy, feeChargedBy, event_eq, hzero, ite_self, sub_zero,
        add_zero]
      exact stake_setEvent_held event_eq state_eq.held (by decide)
  | @goLiveCharged a i d event fee treasury wallet balance auth event_eq admin_eq state_eq
      future fee_eq fee_pos treasury_eq wallet_eq covered balance_eq =>
      have hval := goLiveFee_val (hs.reward_nonneg _ _ event_eq) fee_eq
      simp only [depositedBy, spentBy, feeChargedBy, event_eq, ← hval]
      rw [stake_publish, stake_publish, stake_setEvent_held
        (s := (s.setWallet a { wallet with balance := balance }).setBalances _) event_eq
        state_eq.held (by decide), stake_setBalances, stake_setWallet,
        getBalance_of_lookup wallet_eq, balance_eq]
      split <;> omega
  | cancel auth event_eq admin_eq state_eq wallet_eq balance_eq =>
      subst admin_eq
      simp only [depositedBy, spentBy, feeChargedBy, sub_zero, add_zero]
      exact stake_refund event_eq state_eq wallet_eq balance_eq
  | @emergency a resolver i amount reward event wallet balance auth resolver_auth pos event_eq
      admin_eq resolver_eq state_eq covered reward_eq wallet_eq balance_eq =>
      subst admin_eq
      have hbefore : getBalance (s.setEvent i { event with reward := reward }) event.admin
          = wallet.balance := getBalance_of_lookup wallet_eq
      rw [stake_publish, stake_setWallet, hbefore, stake_setEvent, event_eq, weightAt_some]
      simp only [depositedBy, spentBy, feeChargedBy, heldFor, state_eq.held, and_true,
        balance_eq, reward_eq]
      split <;> omega
  | @compensate a i participants event total wallet balance auth event_eq admin_eq state_eq
      positive total_eq wallet_eq covered balance_eq =>
      have hcancelled : ¬ Held event.state := by
        rw [state_eq]
        decide
      have hcompensated : ¬ Held EventState.compensated := by decide
      rw [stake_publish, stake_setEvent, stake_setBalances, stake_setWallet,
        getBalance_of_lookup wallet_eq]
      simp only [State.setBalances_event, State.setWallet_event, event_eq, weightAt_some,
        depositedBy, spentBy, feeChargedBy, heldFor, hcancelled, hcompensated, and_false,
        if_false, balance_eq, total_eq]
      split <;> omega
  | release auth event_eq unpaused judge_eq state_eq valid =>
      simp only [depositedBy, spentBy, feeChargedBy, event_eq, stake_publish]
      rw [stake_paidOut event_eq state_eq valid]
      omega
  | resolve auth event_eq unpaused resolver_eq state_eq deadline_eq passed valid =>
      simp only [depositedBy, spentBy, feeChargedBy, event_eq, stake_publish]
      rw [stake_paidOut event_eq state_eq valid]
      omega
  | govern quiet =>
      obtain ⟨hd, hsp, hf⟩ := quiet_amounts quiet admin s
      rw [hd, hsp, hf]
      exact (add_zero _).symm
  | read quiet =>
      obtain ⟨hd, hsp, hf⟩ := quiet_amounts quiet admin s
      rw [hd, hsp, hf]
      exact (add_zero _).symm

/-- What an organizer has after a run: the deposits, less what was spent, less the fees. -/
theorem EscrowRun.stake_eq {b : Balances} {tr : List (Transition State (Label own))}
    {s : State} (hr : EscrowRun own b tr s) (admin : Address) :
    stake admin s = (tr.map (onCall fun _ call => depositedBy admin call)).sum
      - (tr.map (onCall (spentBy admin))).sum - (tr.map (onCall (feeChargedBy admin))).sum := by
  have h := hr.sum_eq (I := fun s => Booked s.wallet s.event) (stake admin)
    (onCall fun s call =>
      depositedBy admin call - spentBy admin s call - feeChargedBy admin s call)
    (genesis_booked b) (fun _ _ _ hs hstep => hstep.booked hs) ?_
  · have hgenesis : stake admin (genesis b) = 0 := rfl
    rw [h, hgenesis, zero_add]
    clear h hr
    induction tr with
    | nil => rfl
    | cons t tr ih =>
        have hsplit : onCall (fun s call =>
            depositedBy admin call - spentBy admin s call - feeChargedBy admin s call) t
              = onCall (fun _ call => depositedBy admin call) t - onCall (spentBy admin) t
                - onCall (feeChargedBy admin) t := by
          unfold onCall
          split <;> rfl
        simp only [List.map_cons, List.sum_cons, ih, hsplit]
        omega
  · intro s l s' hs hstep
    cases hstep with
    | call ok => exact (exec_effect ok).stake_eq hs admin
    | reverted error => exact (add_zero _).symm
    | ledger grows => exact (add_zero _).symm

/-- The law of the go-live fee, in every state of every run.  The effective rate is at most
500 basis points.  A go-live charges the reward times the rate over ten thousand, rounded
down, which is what the quote answers just before and at most a twentieth of the reward; it
comes out of the organizer's wallet, in the event's token, goes to the treasury, and leaves
the reward.  A due fee with no treasury, or above the free balance, makes the call fail and
changes nothing.  An event goes live at most once, and what an organizer has is what was
deposited less what was spent and less the fees charged, so no call gives one back. -/
theorem go_live_fee_law {b : Balances} {tr : List (Transition State (Label own))} {s : State}
    (hr : EscrowRun own b tr s) :
    (getFeeBps s.gov).toNat ≤ 500 ∧
    (∀ (env : Env own) admin i d e s', s.event.lookup i = some e →
      exec env s (.setEventInProgress admin i d) = .ok s' →
      ∃ fee : I128, quoteGoLiveFee s i = .ok fee ∧
        fee.val = e.reward.val * (getFeeBps s.gov).toNat / 10000 ∧
        20 * fee.val ≤ e.reward.val ∧ Charged own admin e.token fee.val s s' ∧
        s'.event.lookup i = some { e with state := .inProgress, judgingDeadline := some d }) ∧
    (∀ (env : Env own) admin i d e, s.event.lookup i = some e →
      0 < e.reward.val * (getFeeBps s.gov).toNat / 10000 →
      (s.gov.treasury = none ∨
        (getBalance s admin).val < e.reward.val * (getFeeBps s.gov).toNat / 10000) →
      (∃ trap, exec env s (.setEventInProgress admin i d) = .error trap) ∧
      ∀ l s', (l = .call env (.setEventInProgress admin i d) ∨
        l = .reverted env (.setEventInProgress admin i d)) → Step own s l s' → s' = s) ∧
    (∀ i, tr.countP (startsEvent i) ≤ 1) ∧
    (∀ admin, stake admin s = (tr.map (onCall fun _ call => depositedBy admin call)).sum
      - (tr.map (onCall (spentBy admin))).sum
      - (tr.map (onCall (feeChargedBy admin))).sum) := by
  refine ⟨hr.feeBps_le, ?_, ?_, hr.starts_once, hr.stake_eq⟩
  · intro env admin i d e s' he h
    obtain ⟨fee, hquote, hval, hcharged, -, hevent⟩ := setEventInProgress_charges hr.booked he h
    refine ⟨fee, hquote, hval, ?_, hcharged, hevent⟩
    rw [hval]
    exact feeOf_le (hr.booked.reward_nonneg i e he) hr.feeBps_le
  · intro env admin i d e he hpos hshort
    have hrefused : ∀ s', exec env s (.setEventInProgress admin i d) ≠ .ok s' := fun s' =>
      setEventInProgress_refused hr.booked he hpos hshort
    refine ⟨?_, ?_⟩
    · cases h : exec env s (.setEventInProgress admin i d) with
      | error trap => exact ⟨trap, rfl⟩
      | ok s' => exact absurd h (hrefused s')
    · rintro l s' (rfl | rfl) hstep
      · cases hstep with
        | call ok => exact absurd ok (hrefused s')
      · cases hstep with
        | reverted error => rfl

/-- The sample event before it goes live. -/
def Sample.created : State :=
  okOf (play (genesis Sample.balances) (Sample.liveScript.take 4)) (by decide +kernel)

/-- The sample event of reward 600 goes live for a fee of 3. -/
theorem go_live_fee_law_sample : ∃ tr, EscrowRun Sample.escrow Sample.balances tr
      Sample.created ∧
    (∃ s' fee, exec (Sample.env 5 [Sample.organizer]) Sample.created
        (.setEventInProgress Sample.organizer 7 100) = .ok s' ∧
      quoteGoLiveFee Sample.created 7 = .ok fee ∧ fee.val = 3 ∧
      Charged Sample.escrow Sample.organizer Sample.token 3 Sample.created s') ∧
    stake Sample.organizer Sample.created = 1000 := by
  have hrun := play_run (okOf_eq (r := play (genesis Sample.balances) (Sample.liveScript.take 4))
    (by decide +kernel))
  have hstart := okOf_eq (r := exec (Sample.env 5 [Sample.organizer]) Sample.created
    (.setEventInProgress Sample.organizer 7 100)) (by decide +kernel)
  have h := go_live_fee_law hrun
  obtain ⟨fee, hquote, hfee, -, hcharged, -⟩ := h.2.1 _ _ 7 100
    { Sample.liveEvent with state := .created, judgingDeadline := none } _ (by decide +kernel) hstart
  have hthree : fee.val = 3 := by
    rw [hfee]
    decide +kernel
  refine ⟨_, hrun, ⟨_, fee, hstart, hquote, hthree, ?_⟩, by decide +kernel⟩
  rw [← hthree]
  exact hcharged

end Escrow
