/-
# One event under a call

The contract seen from one event: `EventMove` lists what a successful call can do to
the record stored under one id, with the signatures, times and amounts that went with
it, and what it does with money meanwhile: what every wallet gains, and what the
contract's own token balance pays.  Everything said about the life of an event is read
off this list.
-/
import Astrea.EscrowRun

open KeyTable

namespace Escrow

variable {own : Address}

/-- The event a call writes, if any. -/
def Call.writes? : Call → Option EventId
  | .createEvent _ _ _ _ _ eventId | .createEventWithDeadline _ _ _ _ _ eventId _
  | .expireEvent eventId | .setEventWaitingForStart _ eventId | .setEventInProgress _ eventId _
  | .setEventCancelled _ eventId | .emergencyWithdraw _ _ eventId _
  | .releaseCompensation _ eventId _ | .releaseReward _ eventId _
  | .resolveDispute _ eventId _ => some eventId
  | _ => none

/-! ## What a step does with money -/

/-- What the wallet of `a` gains in a step. -/
def gain (s s' : State) (a : Address) : ℤ := (getBalance s' a).val - (getBalance s a).val

/-- The step adds `amount` to the wallet of `a`, and moves no other wallet and no token. -/
structure Credits (s s' : State) (a : Address) (amount : ℤ) : Prop where
  gain_eq : ∀ c, gain s s' c = if c = a then amount else 0
  balances_eq : s'.balances = s.balances

/-- The step makes payments out of the wallet of `a`: the wallet loses their total, the
contract pays them in the wallet's token, and no other wallet moves. -/
structure Spends (own : Address) (s s' : State) (a token : Address)
    (ps : List (Address × I128)) : Prop where
  positive : ∀ p ∈ ps, 0 < p.2.val
  gain_eq : ∀ c, gain s s' c = if c = a then -totalPaid ps else 0
  balances_eq : s'.balances = moveAll s.balances token own ps

/-- The step makes payments that come out of no wallet. -/
structure PaysOut (own : Address) (s s' : State) (token : Address)
    (ps : List (Address × I128)) : Prop where
  positive : ∀ p ∈ ps, 0 < p.2.val
  gain_eq : ∀ c, gain s s' c = 0
  balances_eq : s'.balances = moveAll s.balances token own ps

theorem getBalance_of_lookup {s : State} {a : Address} {w : AdminWallet}
    (h : s.wallet.lookup a = some w) : getBalance s a = w.balance := by
  rw [getBalance, h]

theorem getBalance_setWallet (s : State) (a : Address) (w : AdminWallet) :
    getBalance (s.setWallet a w) a = w.balance := by
  rw [getBalance, State.setWallet_wallet, AList.lookup_insert]

/-- A wallet that is rewritten gains the difference, and the others nothing. -/
theorem gain_update {s t : State} {a : Address} {w : AdminWallet} {balance : I128} {amount : ℤ}
    (hw : s.wallet.lookup a = some w) (hb : balance.val = w.balance.val + amount)
    (ht : t.wallet = s.wallet.insert a { w with balance := balance }) (c : Address) :
    gain s t c = if c = a then amount else 0 := by
  by_cases hc : c = a
  · subst hc
    have hlook : t.wallet.lookup c = some { w with balance := balance } := by
      rw [ht, AList.lookup_insert]
    rw [gain, getBalance_of_lookup hlook, getBalance_of_lookup hw, hb, if_pos rfl]
    omega
  · have hlook : t.wallet.lookup c = s.wallet.lookup c := by
      rw [ht, AList.lookup_insert_ne hc]
    rw [gain, getBalance, getBalance, hlook, if_neg hc, sub_self]

/-- Where no wallet is written, none gains. -/
theorem gain_same {s t : State} (ht : t.wallet = s.wallet) (c : Address) : gain s t c = 0 := by
  rw [gain, getBalance, getBalance, ht, sub_self]

/-- A wallet that spends loses what it pays. -/
theorem Spends.of_update {s t : State} {a token : Address} {w : AdminWallet} {balance : I128}
    {ps : List (Address × I128)} (hw : s.wallet.lookup a = some w)
    (hb : balance.val = w.balance.val - totalPaid ps)
    (ht : t.wallet = s.wallet.insert a { w with balance := balance })
    (hpos : ∀ p ∈ ps, 0 < p.2.val) (hpaid : t.balances = moveAll s.balances token own ps) :
    Spends own s t a token ps :=
  ⟨hpos, gain_update hw (by rw [hb, sub_eq_add_neg]) ht, hpaid⟩

/-- A single payment out of a wallet. -/
theorem Spends.single {s t : State} {a token : Address} {w : AdminWallet}
    {balance amount : I128} (dst : Address) (hw : s.wallet.lookup a = some w)
    (hb : balance.val = w.balance.val - amount.val)
    (ht : t.wallet = s.wallet.insert a { w with balance := balance }) (hpos : 0 < amount.val)
    (hpaid : t.balances = move s.balances token own dst amount.val) :
    Spends own s t a token [(dst, amount)] := by
  refine .of_update hw ?_ ht ?_ hpaid
  · rw [totalPaid_cons, hb]
    exact congrArg _ (add_zero _).symm
  · intro p hp
    rw [List.mem_singleton.mp hp]
    exact hpos

/-- A step that leaves wallets and tokens spends nothing. -/
theorem Spends.nothing {s t : State} {a token : Address} (ht : t.wallet = s.wallet)
    (hb : t.balances = s.balances) : Spends own s t a token [] :=
  ⟨List.forall_mem_nil _, fun c => (gain_same ht c).trans (ite_self _).symm, hb⟩

/-- The wallet that is credited, read as a balance. -/
theorem Credits.balance {s s' : State} {a : Address} {amount : ℤ} (h : Credits s s' a amount) :
    (getBalance s' a).val = (getBalance s a).val + amount := by
  have ha := h.gain_eq a
  rw [gain, if_pos rfl] at ha
  omega

/-! ## What a call does to an event -/

/-- What a call does to the record of event `i`, and what it does with money. -/
inductive EventMove (env : Env own) (s s' : State) (i : EventId) :
    Call → Option Event → Option Event → Prop
  | untouched {call : Call} {o : Option Event} (h : call.writes? ≠ some i) :
      EventMove env s s' i call o o
  | create {call : Call} {c : Creation} {resolver : Address} (call_eq : call.creation? = some c)
      (id_eq : c.eventId = i) (auth : c.admin ∈ env.auths)
      (resolver_eq : effectiveResolver s.gov c.resolver = some resolver)
      (reserved : Credits s s' c.admin (-c.reward.val)) :
      EventMove env s s' i call none (some (c.event resolver))
  | expire {e : Event} {deadline : UInt64} (state_eq : PreLaunch e.state)
      (deadline_eq : e.deadline = some deadline) (passed : deadline ≤ env.timestamp)
      (credited : Credits s s' e.admin e.reward.val) :
      EventMove env s s' i (.expireEvent i) (some e) (some { e with state := .cancelled })
  | wait {e : Event} (auth : e.admin ∈ env.auths) (state_eq : e.state = .created)
      (spent : Spends own s s' e.admin e.token []) :
      EventMove env s s' i (.setEventWaitingForStart e.admin i) (some e)
        (some { e with state := .waitingForStart })
  | goLive {e : Event} {judgingDeadline : UInt64} {fees : List (Address × I128)}
      (auth : e.admin ∈ env.auths) (state_eq : PreLaunch e.state)
      (future : env.timestamp < judgingDeadline)
      (spent : Spends own s s' e.admin e.token fees) :
      EventMove env s s' i (.setEventInProgress e.admin i judgingDeadline) (some e)
        (some { e with state := .inProgress, judgingDeadline := some judgingDeadline })
  | cancel {e : Event} (auth : e.admin ∈ env.auths) (state_eq : PreLaunch e.state)
      (credited : Credits s s' e.admin e.reward.val) :
      EventMove env s s' i (.setEventCancelled e.admin i) (some e)
        (some { e with state := .cancelled })
  | emergency {e : Event} {amount reward : I128} (auth : e.admin ∈ env.auths)
      (resolver_auth : e.resolver ∈ env.auths) (pos : 0 < amount.val)
      (state_eq : PreLaunch e.state) (covered : amount.val ≤ e.reward.val)
      (reward_eq : reward.val = e.reward.val - amount.val)
      (credited : Credits s s' e.admin amount.val) :
      EventMove env s s' i (.emergencyWithdraw e.admin e.resolver i amount) (some e)
        (some { e with reward := reward })
  | compensate {e : Event} {participants : List Participants} {wallet : AdminWallet}
      (auth : e.admin ∈ env.auths) (state_eq : e.state = .cancelled)
      (wallet_eq : s.wallet.lookup e.admin = some wallet)
      (spent : Spends own s s' e.admin wallet.token (participantPayments participants)) :
      EventMove env s s' i (.releaseCompensation e.admin i participants) (some e)
        (some { e with state := .compensated })
  | release {e : Event} {winners : List Winner} (auth : e.judge ∈ env.auths)
      (state_eq : e.state = .inProgress) (valid : ValidSplit winners e.reward.val)
      (paid : PaysOut own s s' e.token (winnerPayments winners)) :
      EventMove env s s' i (.releaseReward e.judge i winners) (some e)
        (some { e with state := .ended })
  | resolve {e : Event} {winners : List Winner} {judgingDeadline : UInt64}
      (auth : e.resolver ∈ env.auths) (state_eq : e.state = .inProgress)
      (deadline_eq : e.judgingDeadline = some judgingDeadline)
      (passed : judgingDeadline ≤ env.timestamp) (valid : ValidSplit winners e.reward.val)
      (paid : PaysOut own s s' e.token (winnerPayments winners)) :
      EventMove env s s' i (.resolveDispute e.resolver i winners) (some e)
        (some { e with state := .ended })

theorem Call.writes?_of_creation? {call : Call} {c : Creation} (h : call.creation? = some c) :
    call.writes? = some c.eventId := by
  cases call <;> first | (obtain rfl := Option.some_inj.mp h; rfl) | exact nomatch h

theorem Call.writes?_of_quiet {call : Call} (h : call.movesFunds = false) :
    call.writes? = none := by
  cases call <;> first | rfl | exact nomatch h

/-- A call that writes event `j` does to it what is shown, and nothing to the others. -/
theorem EventMove.of_write {env : Env own} {s s' : State} {i j : EventId} {call : Call}
    {o : Option Event} {e' : Event} (hwrites : call.writes? = some j)
    (hbefore : s.event.lookup j = o) (hafter : s'.event = s.event.insert j e')
    (h : EventMove env s s' j call o (some e')) :
    EventMove env s s' i call (s.event.lookup i) (s'.event.lookup i) := by
  rw [hafter]
  by_cases hij : j = i
  · subst hij
    rwa [AList.lookup_insert, hbefore]
  · rw [AList.lookup_insert_ne (Ne.symm hij)]
    refine .untouched ?_
    rw [hwrites]
    exact fun heq => hij (Option.some_inj.mp heq)

/-- A successful call does one of the listed things to every event. -/
theorem Effect.eventMove {env : Env own} {s s' : State} {call : Call}
    (h : Effect env s call s') (i : EventId) :
    EventMove env s s' i call (s.event.lookup i) (s'.event.lookup i) := by
  cases h with
  | deposit => exact .untouched (by exact nofun)
  | withdraw => exact .untouched (by exact nofun)
  | @create _ c wallet balance resolver next call_eq auth unpaused pos fresh wallet_eq token_eq
      covered balance_eq resolver_eq =>
      exact .of_write (Call.writes?_of_creation? call_eq) fresh rfl
        (.create call_eq rfl auth resolver_eq
          ⟨gain_update wallet_eq (by rw [balance_eq, sub_eq_add_neg]) rfl, rfl⟩)
  | @expire j event deadline wallet balance event_eq state_eq deadline_eq passed wallet_eq
      balance_eq =>
      exact .of_write rfl event_eq rfl
        (.expire state_eq deadline_eq passed ⟨gain_update wallet_eq balance_eq rfl, rfl⟩)
  | @waiting admin j event auth event_eq admin_eq state_eq =>
      subst admin_eq
      exact .of_write rfl event_eq rfl (.wait auth state_eq (.nothing rfl rfl))
  | @goLiveFree admin j judgingDeadline event fee auth event_eq admin_eq state_eq future fee_eq
      no_fee =>
      subst admin_eq
      exact .of_write rfl event_eq rfl (.goLive auth state_eq future (.nothing rfl rfl))
  | @goLiveCharged admin j judgingDeadline event fee treasury wallet balance auth event_eq
      admin_eq state_eq future fee_eq fee_pos treasury_eq wallet_eq covered balance_eq =>
      subst admin_eq
      exact .of_write rfl event_eq rfl
        (.goLive auth state_eq future (.single treasury wallet_eq balance_eq rfl fee_pos rfl))
  | @cancel admin j event wallet balance auth event_eq admin_eq state_eq wallet_eq balance_eq =>
      subst admin_eq
      exact .of_write rfl event_eq rfl
        (.cancel auth state_eq ⟨gain_update wallet_eq balance_eq rfl, rfl⟩)
  | @emergency admin resolver j amount reward event wallet balance auth resolver_auth pos
      event_eq admin_eq resolver_eq state_eq covered reward_eq wallet_eq balance_eq =>
      subst admin_eq resolver_eq
      exact .of_write rfl event_eq rfl (.emergency auth resolver_auth pos state_eq covered reward_eq
        ⟨gain_update wallet_eq balance_eq rfl, rfl⟩)
  | @compensate admin j participants event total wallet balance auth event_eq admin_eq state_eq
      positive total_eq wallet_eq covered balance_eq =>
      subst admin_eq
      have hpos := participantPayments_pos positive
      exact .of_write rfl event_eq rfl (.compensate auth state_eq wallet_eq
        (.of_update wallet_eq (by rw [balance_eq, total_eq]) rfl hpos rfl))
  | @release judge j winners event auth event_eq unpaused judge_eq state_eq valid =>
      subst judge_eq
      exact .of_write rfl event_eq rfl (.release auth state_eq valid
        ⟨winnerPayments_pos valid.positive, gain_same rfl, rfl⟩)
  | @resolve resolver j winners event judgingDeadline auth event_eq unpaused resolver_eq
      state_eq deadline_eq passed valid =>
      subst resolver_eq
      exact .of_write rfl event_eq rfl (.resolve auth state_eq deadline_eq passed valid
        ⟨winnerPayments_pos valid.positive, gain_same rfl, rfl⟩)
  | govern quiet =>
      refine .untouched ?_
      rw [Call.writes?_of_quiet quiet]
      exact nofun
  | read quiet =>
      refine .untouched ?_
      rw [Call.writes?_of_quiet quiet]
      exact nofun

end Escrow
