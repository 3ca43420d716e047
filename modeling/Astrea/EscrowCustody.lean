/-
# Custody

What the contract owes in a token: the free balances of that token plus the rewards
still reserved in it.  Every entry point keeps the contract's own balance above that,
and the difference is exactly what reached the contract without being booked.  The
bookkeeping rests on one invariant of the records, `Booked`: no balance or reward is
negative, and an event is denominated in its organizer's wallet token.
-/
import Astrea.EscrowRun

open KeyTable

namespace Escrow

variable {own : Address}

/-- A wallet's free balance, counted in one token. -/
def freeIn (token : Address) (_ : Address) (w : AdminWallet) : ℤ :=
  if w.token = token then w.balance.val else 0

/-- An event's reserve, counted in one token. -/
def reservedIn (token : Address) (_ : EventId) (e : Event) : ℤ :=
  if e.token = token ∧ Held e.state then e.reward.val else 0

/-- What the contract owes in a token. -/
def liabilities (s : State) (token : Address) : ℤ :=
  totalOf (freeIn token) s.wallet + totalOf (reservedIn token) s.event

/-- What the contract holds in a token beyond what it owes. -/
def surplus (own : Address) (s : State) (token : Address) : ℤ :=
  s.balances token own - liabilities s token

/-- The records of wallets and events are sound. -/
structure Booked (wallets : KeyTable Address AdminWallet) (events : KeyTable EventId Event) :
    Prop where
  balance_nonneg : ∀ a w, wallets.lookup a = some w → 0 ≤ w.balance.val
  reward_nonneg : ∀ i e, events.lookup i = some e → 0 ≤ e.reward.val
  token_eq : ∀ i e, events.lookup i = some e →
    ∃ w, wallets.lookup e.admin = some w ∧ w.token = e.token

/-! ## The records stay sound -/

section Records

variable {wallets : KeyTable Address AdminWallet} {events : KeyTable EventId Event}

/-- The wallet of an event's admin is kept in the event's token. -/
theorem Booked.wallet_token (h : Booked wallets events) {i : EventId} {e : Event} {a : Address}
    {w : AdminWallet} (he : events.lookup i = some e) (ha : e.admin = a)
    (hw : wallets.lookup a = some w) : w.token = e.token := by
  obtain ⟨w', hw', htok⟩ := h.token_eq i e he
  rw [ha] at hw'
  cases hw.symm.trans hw'
  exact htok

/-- Writing a nonnegative balance in the wallet's own token. -/
theorem Booked.setWallet (h : Booked wallets events) {a : Address} {w : AdminWallet}
    (htok : ∀ w', wallets.lookup a = some w' → w'.token = w.token)
    (hw : 0 ≤ w.balance.val) : Booked (wallets.insert a w) events := by
  refine ⟨?_, h.reward_nonneg, ?_⟩
  · intro a' w' hlook
    rcases lookup_insert_eq_some.mp hlook with ⟨-, rfl⟩ | ⟨-, hold⟩
    · exact hw
    · exact h.balance_nonneg a' w' hold
  · intro i e he
    obtain ⟨w', hw', ht⟩ := h.token_eq i e he
    by_cases ha : e.admin = a
    · refine ⟨w, lookup_insert_eq_some.mpr (.inl ⟨ha, rfl⟩), ?_⟩
      rw [← htok w' (ha ▸ hw'), ht]
    · exact ⟨w', lookup_insert_eq_some.mpr (.inr ⟨ha, hw'⟩), ht⟩

/-- Rewriting a stored wallet's balance. -/
theorem Booked.updateWallet (h : Booked wallets events) {a : Address} {w : AdminWallet}
    {balance : I128} (hw : wallets.lookup a = some w) (hb : 0 ≤ balance.val) :
    Booked (wallets.insert a { w with balance := balance }) events := by
  refine h.setWallet ?_ hb
  intro w' hw'
  rw [hw] at hw'
  rw [Option.some_inj.mp hw']

/-- Writing an event with a nonnegative reward in its organizer's wallet token. -/
theorem Booked.setEvent (h : Booked wallets events) {i : EventId} {e : Event}
    (htok : ∃ w, wallets.lookup e.admin = some w ∧ w.token = e.token)
    (hr : 0 ≤ e.reward.val) : Booked wallets (events.insert i e) := by
  refine ⟨h.balance_nonneg, ?_, ?_⟩
  · intro i' e' hlook
    rcases lookup_insert_eq_some.mp hlook with ⟨-, rfl⟩ | ⟨-, hold⟩
    · exact hr
    · exact h.reward_nonneg i' e' hold
  · intro i' e' hlook
    rcases lookup_insert_eq_some.mp hlook with ⟨-, rfl⟩ | ⟨-, hold⟩
    · exact htok
    · exact h.token_eq i' e' hold

/-- Rewriting a stored event without touching its organizer or token. -/
theorem Booked.updateEvent (h : Booked wallets events) {i : EventId} {e e' : Event}
    (he : events.lookup i = some e) (hadm : e'.admin = e.admin) (htok : e'.token = e.token)
    (hr : 0 ≤ e'.reward.val) : Booked wallets (events.insert i e') := by
  refine h.setEvent ?_ hr
  rw [hadm, htok]
  exact h.token_eq i e he

end Records

/-- Every call keeps the records sound. -/
theorem Effect.booked {env : Env own} {s s' : State} {call : Call}
    (h : Effect env s call s') (hs : Booked s.wallet s.event) : Booked s'.wallet s'.event := by
  cases h with
  | @deposit admin token amount wallet balance auth unpaused allowed pos wallet_eq token_eq
      balance_eq =>
      have hold : 0 ≤ wallet.balance.val := by
        rcases hl : s.wallet.lookup admin with _ | w
        · rw [← wallet_eq, hl]
          exact le_refl _
        · rw [← wallet_eq, hl]
          exact hs.balance_nonneg admin w hl
      -- a wallet that exists keeps its token
      refine Booked.setWallet hs ?_ (by rw [balance_eq]; omega)
      intro w' hw'
      rw [hw', Option.getD_some] at wallet_eq
      rw [wallet_eq]
  | withdraw auth unpaused pos wallet_eq covered balance_eq =>
      exact Booked.updateWallet hs wallet_eq (by rw [balance_eq]; omega)
  | create call_eq auth unpaused pos fresh wallet_eq token_eq covered balance_eq resolver_eq =>
      refine Booked.setEvent (Booked.updateWallet hs wallet_eq ?_) ?_ ?_
      · rw [balance_eq]
        omega
      · exact ⟨_, lookup_insert_eq_some.mpr (.inl ⟨rfl, rfl⟩), token_eq⟩
      · exact le_of_lt pos
  | expire event_eq state_eq deadline_eq passed wallet_eq balance_eq =>
      have hr := hs.reward_nonneg _ _ event_eq
      have hb := hs.balance_nonneg _ _ wallet_eq
      refine Booked.updateWallet (Booked.updateEvent hs event_eq ?_ ?_ ?_) wallet_eq ?_
      exacts [rfl, rfl, hr, by rw [balance_eq]; omega]
  | waiting auth event_eq admin_eq state_eq =>
      have hr := hs.reward_nonneg _ _ event_eq
      refine Booked.updateEvent hs event_eq ?_ ?_ ?_
      exacts [rfl, rfl, hr]
  | goLiveFree auth event_eq admin_eq state_eq future fee_eq no_fee =>
      have hr := hs.reward_nonneg _ _ event_eq
      refine Booked.updateEvent hs event_eq ?_ ?_ ?_
      exacts [rfl, rfl, hr]
  | goLiveCharged auth event_eq admin_eq state_eq future fee_eq fee_pos treasury_eq wallet_eq
      covered balance_eq =>
      have hr := hs.reward_nonneg _ _ event_eq
      refine Booked.updateEvent (Booked.updateWallet hs wallet_eq ?_) event_eq ?_ ?_ ?_
      exacts [by rw [balance_eq]; omega, rfl, rfl, hr]
  | cancel auth event_eq admin_eq state_eq wallet_eq balance_eq =>
      have hr := hs.reward_nonneg _ _ event_eq
      have hb := hs.balance_nonneg _ _ wallet_eq
      refine Booked.updateWallet (Booked.updateEvent hs event_eq ?_ ?_ ?_) wallet_eq ?_
      exacts [rfl, rfl, hr, by rw [balance_eq]; omega]
  | emergency auth resolver_auth pos event_eq admin_eq resolver_eq state_eq covered reward_eq
      wallet_eq balance_eq =>
      have hb := hs.balance_nonneg _ _ wallet_eq
      refine Booked.updateWallet (Booked.updateEvent hs event_eq ?_ ?_ ?_) wallet_eq ?_
      exacts [rfl, rfl, by rw [reward_eq]; omega, by rw [balance_eq]; omega]
  | compensate auth event_eq admin_eq state_eq positive total_eq wallet_eq covered
      balance_eq =>
      have hr := hs.reward_nonneg _ _ event_eq
      refine Booked.updateEvent (Booked.updateWallet hs wallet_eq ?_) event_eq ?_ ?_ ?_
      exacts [by rw [balance_eq]; omega, rfl, rfl, hr]
  | release auth event_eq unpaused judge_eq state_eq valid =>
      have hr := hs.reward_nonneg _ _ event_eq
      refine Booked.updateEvent hs event_eq ?_ ?_ ?_
      exacts [rfl, rfl, hr]
  | resolve auth event_eq unpaused resolver_eq state_eq deadline_eq passed valid =>
      have hr := hs.reward_nonneg _ _ event_eq
      refine Booked.updateEvent hs event_eq ?_ ?_ ?_
      exacts [rfl, rfl, hr]
  | govern quiet => exact hs
  | read quiet => exact hs

/-- Every step keeps the books in order. -/
theorem Step.booked {s s' : State} {l : Label own} (h : Step own s l s')
    (hs : Booked s.wallet s.event) : Booked s'.wallet s'.event :=
  h.preserves (I := fun s => Booked s.wallet s.event) hs (fun _ _ he => he.booked hs)
    fun _ => hs

theorem genesis_booked (b : Balances) : Booked (genesis b).wallet (genesis b).event := by
  refine ⟨?_, ?_, ?_⟩
  · intro a w h
    exact nomatch h
  · intro i e h
    exact nomatch h
  · intro i e h
    exact nomatch h

/-! ## What one write does to the liabilities -/

/-- A wallet that is written changes the debts by its difference. -/
theorem liabilities_setWallet (s : State) (a : Address) (w : AdminWallet) (token : Address) :
    liabilities (s.setWallet a w) token = liabilities s token
      - weightAt (freeIn token) a (s.wallet.lookup a) + freeIn token a w := by
  rw [liabilities, State.setWallet_wallet, State.setWallet_event, totalOf_insert, liabilities]
  omega

/-- And so does an event. -/
theorem liabilities_setEvent (s : State) (i : EventId) (e : Event) (token : Address) :
    liabilities (s.setEvent i e) token = liabilities s token
      - weightAt (reservedIn token) i (s.event.lookup i) + reservedIn token i e := by
  rw [liabilities, State.setEvent_wallet, State.setEvent_event, totalOf_insert, liabilities]
  omega

@[simp] theorem liabilities_publish (s : State) (n : ContractEvent) (token : Address) :
    liabilities (s.publish n) token = liabilities s token := rfl

@[simp] theorem liabilities_setBalances (s : State) (b : Balances) (token : Address) :
    liabilities (s.setBalances b) token = liabilities s token := rfl

@[simp] theorem liabilities_appendIndex (s : State) (a : Address) (c c' : UInt32) (i : EventId)
    (token : Address) : liabilities (s.appendIndex a c c' i) token = liabilities s token := rfl

@[simp] theorem liabilities_governed (s : State) (g : Governance) (ns : List ContractEvent)
    (token : Address) : liabilities (governed s g ns) token = liabilities s token := rfl

/-! ## What a call pays to the contract's own address -/

/-- The amount of a token that a successful payout, compensation or go-live fee sends to
the contract itself. -/
def paidToSelf (own : Address) (token : Address) (s : State) : Call → ℤ
  | .releaseReward _ eventId winners | .resolveDispute _ eventId winners =>
      match s.event.lookup eventId with
      | some e => if e.token = token then paidTo own (winnerPayments winners) else 0
      | none => 0
  | .releaseCompensation admin _ participants =>
      match s.wallet.lookup admin with
      | some w => if w.token = token then paidTo own (participantPayments participants) else 0
      | none => 0
  | .setEventInProgress _ eventId _ =>
      match s.event.lookup eventId with
      | some e =>
          match goLiveFee e.reward (getFeeBps s.gov) with
          | .ok fee =>
              if e.token = token ∧ s.gov.treasury = some own ∧ 0 < fee.val then fee.val else 0
          | .error _ => 0
      | none => 0
  | _ => 0

/-- The payouts of one transition to the contract itself. -/
def selfPayments (own token : Address) (t : Transition State (Label own)) : ℤ :=
  match t.label with
  | .call _ call => paidToSelf own token t.pre call
  | _ => 0

/-- The tokens one transition brings to the contract outside its entry points. -/
def sentOutside (own token : Address) (t : Transition State (Label own)) : ℤ :=
  match t.label with
  | .ledger => t.post.balances token own - t.pre.balances token own
  | _ => 0

/-- An unbooked payout: the reserve it clears leaves the contract, except for what the
list pays to the contract itself. -/
theorem surplus_paidOut {s : State} {i : EventId} {e : Event} {winners : List Winner}
    (he : s.event.lookup i = some e) (hst : e.state = .inProgress)
    (hv : ValidSplit winners e.reward.val) (token : Address) :
    surplus own (paidOut own s i e winners) token = surplus own s token
      + if e.token = token then paidTo own (winnerPayments winners) else 0 := by
  have hheld : Held e.state := .inr (.inr hst)
  have hended : ¬ Held EventState.ended := by decide
  simp only [surplus, paidOut, liabilities_setBalances, liabilities_setEvent, he,
    weightAt_some, State.setBalances_balances, moveAll_src_in, hv.total, reservedIn, hheld,
    hended, and_true, and_false, if_false]
  split <;> omega

/-- Reads and governance pay nothing. -/
theorem paidToSelf_quiet {call : Call} (h : call.movesFunds = false) {s : State}
    {token : Address} : paidToSelf own token s call = 0 := by
  cases call <;> first | rfl | exact nomatch h

/-- Rewriting a reserved event into another reserved one leaves the liabilities. -/
theorem liabilities_setEvent_held {s : State} {i : EventId} {e : Event} {st : EventState}
    {deadline : Option UInt64} (he : s.event.lookup i = some e) (hst : Held e.state)
    (hst' : Held st) {token : Address} :
    liabilities (s.setEvent i { e with state := st, judgingDeadline := deadline }) token
      = liabilities s token := by
  rw [liabilities_setEvent, he, weightAt_some]
  simp only [reservedIn, hst, hst']
  omega

/-- A refund moves a reserve into the organizer's wallet of the same token. -/
theorem surplus_refund {s : State} {i : EventId} {e : Event} {a : Address} {w : AdminWallet}
    {balance : I128} (he : s.event.lookup i = some e) (hst : PreLaunch e.state)
    (hw : s.wallet.lookup a = some w) (htok : w.token = e.token)
    (hb : balance.val = w.balance.val + e.reward.val) (token : Address) :
    surplus own ((s.setEvent i { e with state := .cancelled }).setWallet a
      { w with balance := balance }) token = surplus own s token := by
  have hcancelled : ¬ Held EventState.cancelled := by decide
  simp only [surplus, liabilities_setWallet, liabilities_setEvent, State.setEvent_wallet, he,
    hw, weightAt_some, State.setWallet_balances, State.setEvent_balances, freeIn, reservedIn,
    hst.held, hcancelled, htok, hb, and_true, and_false, if_false]
  split <;> omega

/-- Every call changes the surplus by exactly what it pays to the contract itself. -/
theorem Effect.surplus_eq {env : Env own} {s s' : State} {call : Call}
    (h : Effect env s call s') (hs : Booked s.wallet s.event) (token : Address) :
    surplus own s' token = surplus own s token + paidToSelf own token s call := by
  cases h with
  | @deposit admin tok amount wallet balance auth unpaused allowed pos wallet_eq token_eq
      balance_eq =>
      have hne : own ≠ admin := fun h => env.noSelfAuth (h ▸ auth)
      have hw : weightAt (freeIn token) admin (s.wallet.lookup admin)
          = if wallet.token = token then wallet.balance.val else 0 := by
        rcases hl : s.wallet.lookup admin with _ | w
        · rw [← wallet_eq, hl, weightAt_none]
          exact (ite_self _).symm
        · rw [← wallet_eq, hl]
          rfl
      simp only [surplus, paidToSelf, liabilities_setWallet, liabilities_setBalances,
        State.setBalances_wallet, hw, State.setWallet_balances, State.setBalances_balances,
        freeIn, token_eq, move_dst_in hne, balance_eq]
      split <;> omega
  | @withdraw admin amount wallet balance auth unpaused pos wallet_eq covered balance_eq =>
      have hne : admin ≠ own := fun h => env.noSelfAuth (h ▸ auth)
      simp only [surplus, paidToSelf, liabilities_setWallet, liabilities_setBalances,
        State.setBalances_balances, wallet_eq, weightAt_some, freeIn, move_src_in, hne, if_false,
        balance_eq]
      split <;> omega
  | @create call c wallet balance resolver next call_eq auth unpaused pos fresh wallet_eq
      token_eq covered balance_eq resolver_eq =>
      have hself : paidToSelf own token s call = 0 := by
        cases call <;> first | rfl | exact nomatch call_eq
      have hheld : Held EventState.created := .inl rfl
      simp only [surplus, hself, liabilities_publish, liabilities_appendIndex,
        liabilities_setEvent, liabilities_setWallet, State.setWallet_event, wallet_eq, fresh,
        weightAt_some, weightAt_none, State.publish_balances, State.appendIndex_balances,
        State.setEvent_balances, State.setWallet_balances, freeIn, reservedIn, Creation.event,
        token_eq, hheld, and_true, balance_eq]
      split <;> omega
  | @expire eventId event deadline wallet balance event_eq state_eq deadline_eq passed
      wallet_eq balance_eq =>
      have htok := hs.wallet_token event_eq rfl wallet_eq
      have hself : paidToSelf own token s (.expireEvent eventId) = 0 := rfl
      rw [hself, add_zero]
      exact surplus_refund event_eq state_eq wallet_eq htok balance_eq token
  | @waiting admin eventId event auth event_eq admin_eq state_eq =>
      have hself : paidToSelf own token s (.setEventWaitingForStart admin eventId) = 0 := rfl
      have hwait : Held EventState.waitingForStart := by decide
      rw [hself, add_zero, surplus, liabilities_publish,
        liabilities_setEvent_held event_eq (.inl state_eq) hwait]
      rfl
  | goLiveFree auth event_eq admin_eq state_eq future fee_eq no_fee =>
      have hlive : Held EventState.inProgress := by decide
      simp only [paidToSelf, event_eq, fee_eq, no_fee, and_false, if_false, add_zero]
      rw [surplus, liabilities_publish,
        liabilities_setEvent_held event_eq state_eq.held hlive]
      rfl
  | @goLiveCharged admin eventId judgingDeadline event fee treasury wallet balance auth
      event_eq admin_eq state_eq future fee_eq fee_pos treasury_eq wallet_eq covered
      balance_eq =>
      have hlive : Held EventState.inProgress := by decide
      -- the fee leaves in the event's token and is booked out of the wallet's
      have htok := hs.wallet_token event_eq admin_eq wallet_eq
      simp only [paidToSelf, event_eq, fee_eq, fee_pos, treasury_eq, Option.some_inj, and_true]
      simp only [surplus, liabilities_publish, State.publish_balances, State.setEvent_balances,
        State.setBalances_balances]
      rw [liabilities_setEvent_held
        (s := (s.setWallet admin { wallet with balance := balance }).setBalances _) event_eq
        state_eq.held hlive, liabilities_setBalances, liabilities_setWallet, wallet_eq, weightAt_some]
      simp only [freeIn, htok, balance_eq, move_src_in, ite_and]
      split <;> omega
  | @cancel admin eventId event wallet balance auth event_eq admin_eq state_eq wallet_eq
      balance_eq =>
      have htok := hs.wallet_token event_eq admin_eq wallet_eq
      have hself : paidToSelf own token s (.setEventCancelled admin eventId) = 0 := rfl
      rw [hself, add_zero]
      exact surplus_refund event_eq state_eq wallet_eq htok balance_eq token
  | @emergency admin resolver eventId amount reward event wallet balance auth resolver_auth pos
      event_eq admin_eq resolver_eq state_eq covered reward_eq wallet_eq balance_eq =>
      have htok := hs.wallet_token event_eq admin_eq wallet_eq
      have hself : paidToSelf own token s (.emergencyWithdraw admin resolver eventId amount) = 0 :=
        rfl
      simp only [surplus, hself, liabilities_publish, liabilities_setWallet,
        liabilities_setEvent, State.setEvent_wallet, event_eq, wallet_eq, weightAt_some,
        State.publish_balances, State.setWallet_balances, State.setEvent_balances, freeIn,
        reservedIn, state_eq.held, htok, and_true, reward_eq, balance_eq]
      split <;> omega
  | @compensate admin eventId participants event total wallet balance auth event_eq admin_eq
      state_eq positive total_eq wallet_eq covered balance_eq =>
      have hcancelled : ¬ Held event.state := by
        rw [state_eq]
        decide
      have hcompensated : ¬ Held EventState.compensated := by decide
      simp only [surplus, paidToSelf, wallet_eq, liabilities_publish, liabilities_setEvent,
        liabilities_setBalances, liabilities_setWallet, State.setBalances_event,
        State.setWallet_event, event_eq, weightAt_some, State.publish_balances,
        State.setEvent_balances, State.setBalances_balances, freeIn, reservedIn, hcancelled,
        hcompensated, and_false, if_false, balance_eq, total_eq, moveAll_src_in]
      split <;> omega
  | release auth event_eq unpaused judge_eq state_eq valid =>
      simp only [paidToSelf, event_eq]
      exact surplus_paidOut event_eq state_eq valid token
  | resolve auth event_eq unpaused resolver_eq state_eq deadline_eq passed valid =>
      simp only [paidToSelf, event_eq]
      exact surplus_paidOut event_eq state_eq valid token
  | @govern call g ns quiet =>
      rw [paidToSelf_quiet quiet, add_zero]
      rfl
  | @read call quiet => rw [paidToSelf_quiet quiet, add_zero]

/-! ## Custody over runs -/

/-- The surplus changes by what comes from outside, and by nothing else. -/
theorem Step.surplus_eq {s s' : State} {l : Label own} (h : Step own s l s')
    (hs : Booked s.wallet s.event) (token : Address) :
    surplus own s' token = surplus own s token
      + (sentOutside own token ⟨s, l, s'⟩ + selfPayments own token ⟨s, l, s'⟩) := by
  cases h with
  | call ok =>
      have hcall := (exec_effect ok).surplus_eq hs token
      simp only [sentOutside, selfPayments, hcall, zero_add]
  | reverted error => simp only [sentOutside, selfPayments, add_zero]
  | ledger grows =>
      simp only [surplus, sentOutside, selfPayments, liabilities_setBalances,
        State.setBalances_balances]
      omega

theorem surplus_genesis (b : Balances) (token : Address) :
    surplus own (genesis b) token = b token own := sub_zero _

/-- What a call pays to the contract itself is never negative. -/
theorem Effect.paidToSelf_nonneg {env : Env own} {s s' : State} {call : Call}
    (h : Effect env s call s') (token : Address) : 0 ≤ paidToSelf own token s call := by
  cases h with
  | create call_eq => cases call <;> first | exact le_refl _ | exact nomatch call_eq
  | goLiveFree auth event_eq admin_eq state_eq future fee_eq no_fee =>
      simp only [paidToSelf, event_eq, fee_eq, no_fee, and_false, if_false, le_refl]
  | goLiveCharged auth event_eq admin_eq state_eq future fee_eq fee_pos treasury_eq =>
      simp only [paidToSelf, event_eq, fee_eq]
      split <;> omega
  | compensate auth event_eq admin_eq state_eq positive total_eq wallet_eq =>
      simp only [paidToSelf, wallet_eq]
      split
      · exact paidTo_nonneg (participantPayments_pos positive)
      · exact le_refl _
  | release auth event_eq unpaused judge_eq state_eq valid =>
      simp only [paidToSelf, event_eq]
      split
      · exact paidTo_nonneg (winnerPayments_pos valid.positive)
      · exact le_refl _
  | resolve auth event_eq unpaused resolver_eq state_eq deadline_eq passed valid =>
      simp only [paidToSelf, event_eq]
      split
      · exact paidTo_nonneg (winnerPayments_pos valid.positive)
      · exact le_refl _
  | govern quiet => exact le_of_eq (paidToSelf_quiet quiet).symm
  | read quiet => exact le_of_eq (paidToSelf_quiet quiet).symm
  | _ => exact le_refl _

/-- Neither of them is negative. -/
theorem Step.unbooked_nonneg {s s' : State} {l : Label own} (h : Step own s l s')
    (token : Address) :
    0 ≤ sentOutside own token ⟨s, l, s'⟩ ∧ 0 ≤ selfPayments own token ⟨s, l, s'⟩ := by
  cases h with
  | call ok => exact ⟨le_refl _, (exec_effect ok).paidToSelf_nonneg token⟩
  | reverted error => exact ⟨le_refl _, le_refl _⟩
  | ledger grows => exact ⟨sub_nonneg.mpr (grows token), le_refl _⟩

/-- The records are sound in every state of a run. -/
theorem EscrowRun.booked {b : Balances} {tr : List (Transition State (Label own))} {s : State}
    (hr : EscrowRun own b tr s) : Booked s.wallet s.event :=
  hr.invariant (I := fun s => Booked s.wallet s.event) (genesis_booked b)
    fun _ _ _ hs hstep => hstep.booked hs

/-- The records of a reachable state are sound. -/
theorem Reachable.booked {s : State} (h : Reachable own s) : Booked s.wallet s.event := by
  obtain ⟨b, tr, -, hr⟩ := h
  exact EscrowRun.booked hr

/-- The surplus of a run's last state: what the ledger held for the contract at first,
plus what arrived from outside, plus what the contract paid itself. -/
theorem EscrowRun.surplus_eq {b : Balances} {tr : List (Transition State (Label own))}
    {s : State} (hr : EscrowRun own b tr s) (token : Address) :
    surplus own s token = b token own + (tr.map (sentOutside own token)).sum
      + (tr.map (selfPayments own token)).sum := by
  have h := hr.sum_eq (I := fun s => Booked s.wallet s.event) (fun s => surplus own s token)
    (fun t => sentOutside own token t + selfPayments own token t) (genesis_booked b)
    (fun _ _ _ hs hstep => hstep.booked hs)
    (fun _ _ _ hs hstep => hstep.surplus_eq hs token)
  rw [h, surplus_genesis, List.sum_map_add, add_assoc]

/-- The surplus of a run's state is never negative. -/
theorem EscrowRun.surplus_nonneg {b : Balances} {tr : List (Transition State (Label own))}
    {s : State} (hb : ∀ token, 0 ≤ b token own) (hr : EscrowRun own b tr s)
    (token : Address) : 0 ≤ surplus own s token := by
  have hsteps := hr.forall_mem (I := fun _ => True) trivial fun _ _ _ _ _ => trivial
  have hsent : 0 ≤ (tr.map (sentOutside own token)).sum := by
    apply List.sum_nonneg
    intro x hx
    obtain ⟨t, ht, rfl⟩ := List.mem_map.mp hx
    exact ((hsteps t ht).2.unbooked_nonneg token).1
  have hself : 0 ≤ (tr.map (selfPayments own token)).sum := by
    apply List.sum_nonneg
    intro x hx
    obtain ⟨t, ht, rfl⟩ := List.mem_map.mp hx
    exact ((hsteps t ht).2.unbooked_nonneg token).2
  have hfirst := hb token
  rw [hr.surplus_eq token]
  omega

/-- The contract's own balance of every token covers its liabilities in every state of
every run, no recorded balance or reward is negative, and the excess is exactly what was
sent to the contract outside `deposit_funds` plus what its payouts, compensations and
go-live fees paid to its own address. -/
theorem custody_solvency {b : Balances} {tr : List (Transition State (Label own))} {s : State}
    (hb : ∀ token, 0 ≤ b token own) (hr : EscrowRun own b tr s) (token : Address) :
    liabilities s token ≤ s.balances token own ∧
    (∀ a w, s.wallet.lookup a = some w → 0 ≤ w.balance.val) ∧
    (∀ i e, s.event.lookup i = some e → 0 ≤ e.reward.val) ∧
    s.balances token own - liabilities s token
      = b token own + (tr.map (sentOutside own token)).sum
        + (tr.map (selfPayments own token)).sum := by
  refine ⟨?_, hr.booked.balance_nonneg, hr.booked.reward_nonneg, hr.surplus_eq token⟩
  have hsurplus := hr.surplus_nonneg hb token
  rw [surplus] at hsurplus
  omega

/-- The sample event is released to a winner and, in part, to the contract itself. -/
def Sample.selfPayScript : List (Env Sample.escrow × Call) :=
  Sample.liveScript ++ [(Sample.env 6 [Sample.judge], .releaseReward Sample.judge 7
    [⟨1, .ofNat 500, Sample.winner⟩, ⟨2, .ofNat 100, Sample.escrow⟩])]

/-- A release that names the contract among its winners leaves a surplus. -/
theorem custody_solvency_selfPaid : ∃ tr s,
    EscrowRun Sample.escrow Sample.balances tr s ∧ surplus Sample.escrow s Sample.token = 100 ∧
    liabilities s Sample.token = 397 ∧
    liabilities s Sample.token ≤ s.balances Sample.token Sample.escrow := by
  have hplay := okOf_eq (r := play (genesis Sample.balances) Sample.selfPayScript)
    (by decide +kernel)
  refine ⟨_, _, play_run hplay, by decide +kernel, by decide +kernel, ?_⟩
  exact (custody_solvency Sample.balances_nonneg (play_run hplay) Sample.token).1

end Escrow
