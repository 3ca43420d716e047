/-
# Who can move funds

The signatures behind every movement of value: the recorded judge, or the recorded
resolver once the judging deadline is over, for a payout; organizer and resolver
together for an emergency withdrawal; the organizer, or anyone past the event's
deadline, for a cancellation; the organizer for a wallet debit and for going live.  And the
tokens themselves: the contract's own balance falls only by a payout signed for, or by what
a wallet whose owner signed pays.
-/
import Astrea.EscrowCustody
import Astrea.EscrowEvents

open KeyTable

namespace Escrow

variable {own : Address}

/-- The judge signed, or the resolver did once the judging deadline was over. -/
def PayoutSigned (env : Env own) (e : Event) : Prop :=
  e.judge ∈ env.auths ∨
    (e.resolver ∈ env.auths ∧ ∃ d, e.judgingDeadline = some d ∧ d ≤ env.timestamp)

/-- The organizer signed, or the event's own deadline was over. -/
def CancelSigned (env : Env own) (e : Event) : Prop :=
  e.admin ∈ env.auths ∨ ∃ d, e.deadline = some d ∧ d ≤ env.timestamp

/-- What a call that turned the record `e` into `e'` must have been authorised by, and
where the value it freed went. -/
structure Authorized (env : Env own) (s s' : State) (e e' : Event) : Prop where
  payout : e.state = .inProgress → e' ≠ e → PayoutSigned env e ∧
    e' = { e with state := .ended } ∧ ∃ winners,
      totalPaid (winnerPayments winners) = e.reward.val ∧
        PaysOut own s s' e.token (winnerPayments winners)
  withdrawal : e'.reward.val < e.reward.val →
    PreLaunch e.state ∧ e.admin ∈ env.auths ∧ e.resolver ∈ env.auths ∧
      (getBalance s' e.admin).val
        = (getBalance s e.admin).val + (e.reward.val - e'.reward.val)
  cancellation : e.state ≠ .cancelled → e'.state = .cancelled → CancelSigned env e ∧
    (getBalance s' e.admin).val = (getBalance s e.admin).val + e.reward.val
  goLive : e.state ≠ .inProgress → e'.state = .inProgress → e.admin ∈ env.auths

/-- How a call takes tokens out of the contract: not at all; as the payout of a live event's
whole reserve, signed for, which ends that event and changes no other record; or as payments
out of the wallet of an address that signed. -/
inductive Outflow (env : Env own) (s s' : State) : Prop
  | none (kept : ∀ token, s.balances token own ≤ s'.balances token own)
  | payout {i : EventId} {e : Event} {winners : List Winner}
      (event_eq : s.event.lookup i = some e) (state_eq : e.state = .inProgress)
      (signed : PayoutSigned env e)
      (ended : s'.event = s.event.insert i { e with state := .ended })
      (total : totalPaid (winnerPayments winners) = e.reward.val)
      (paid : PaysOut own s s' e.token (winnerPayments winners))
  | wallet {a : Address} {w : AdminWallet} {ps : List (Address × I128)}
      (wallet_eq : s.wallet.lookup a = some w) (signed : a ∈ env.auths)
      (spent : Spends own s s' a w.token ps)

/-- A record that stays needs no signature. -/
theorem Authorized.of_eq (env : Env own) (s s' : State) (e : Event) :
    Authorized env s s' e e :=
  ⟨fun _ h => absurd rfl h, fun h => absurd h (lt_irrefl _), fun h h' => absurd h' h,
    fun h h' => absurd h' h⟩

/-- A record that only changes state, away from a pre-launch state. -/
theorem Authorized.of_preLaunch {env : Env own} {s s' : State} {e e' : Event}
    (hst : PreLaunch e.state) (hr : e'.reward = e.reward)
    (hcancel : e'.state = .cancelled → CancelSigned env e ∧
      (getBalance s' e.admin).val = (getBalance s e.admin).val + e.reward.val)
    (hlive : e'.state = .inProgress → e.admin ∈ env.auths) : Authorized env s s' e e' := by
  refine ⟨?_, ?_, fun _ => hcancel, fun _ => hlive⟩
  · intro h
    rw [h] at hst
    exact absurd hst (by decide)
  · intro h
    rw [hr] at h
    exact absurd h (lt_irrefl _)

/-- Whatever a successful call does to a stored event, the right addresses signed it. -/
theorem EventMove.authorized {env : Env own} {s s' : State} {i : EventId} {call : Call}
    {e : Event} {o : Option Event} (h : EventMove env s s' i call (some e) o) :
    ∃ e', o = some e' ∧ Authorized env s s' e e' := by
  cases h with
  | untouched h => exact ⟨e, rfl, .of_eq env s s' e⟩
  | @expire _ deadline state_eq deadline_eq passed credited =>
      refine ⟨_, rfl, .of_preLaunch state_eq rfl (fun _ => ⟨?_, credited.balance⟩) ?_⟩
      · exact .inr ⟨deadline, deadline_eq, passed⟩
      · exact nofun
  | wait auth state_eq =>
      exact ⟨_, rfl, .of_preLaunch (.inl state_eq) rfl (by exact nofun) (by exact nofun)⟩
  | goLive auth state_eq future =>
      exact ⟨_, rfl, .of_preLaunch state_eq rfl (by exact nofun) fun _ => auth⟩
  | cancel auth state_eq credited =>
      exact ⟨_, rfl, .of_preLaunch state_eq rfl (fun _ => ⟨.inl auth, credited.balance⟩)
        (by exact nofun)⟩
  | @emergency _ amount reward auth resolver_auth pos state_eq covered reward_eq credited =>
      refine ⟨_, rfl, ⟨?_, ?_, fun h h' => absurd h' h, fun h h' => absurd h' h⟩⟩
      · intro h
        rw [h] at state_eq
        exact absurd state_eq (by decide)
      · intro _
        refine ⟨state_eq, auth, resolver_auth, ?_⟩
        rw [credited.balance, reward_eq]
        omega
  | compensate auth state_eq =>
      refine ⟨_, rfl, ⟨?_, fun h => absurd h (lt_irrefl _), by exact nofun, by exact nofun⟩⟩
      intro h
      rw [h] at state_eq
      exact nomatch state_eq
  | release auth state_eq valid paid =>
      exact ⟨_, rfl, ⟨fun _ _ => ⟨.inl auth, rfl, _, valid.total, paid⟩,
        fun h => absurd h (lt_irrefl _), by exact nofun, by exact nofun⟩⟩
  | @resolve _ winners judgingDeadline auth state_eq deadline_eq passed valid paid =>
      have hsigned : PayoutSigned env e := .inr ⟨auth, judgingDeadline, deadline_eq, passed⟩
      exact ⟨_, rfl, ⟨fun _ _ => ⟨hsigned, rfl, _, valid.total, paid⟩,
        fun h => absurd h (lt_irrefl _), by exact nofun, by exact nofun⟩⟩

/-- An event that a call brings into being is in its first state. -/
theorem EventMove.newborn {env : Env own} {s s' : State} {i : EventId} {call : Call}
    {o : Option Event} {e' : Event} (h : EventMove env s s' i call none o)
    (ho : o = some e') : e'.state = .created ∧ e'.admin ∈ env.auths := by
  cases h with
  | untouched h => exact nomatch ho
  | create call_eq id_eq auth resolver_eq =>
      obtain rfl := Option.some_inj.mp ho
      exact ⟨rfl, auth⟩

/-! ## Wallets -/

/-- A wallet written at `a`: the others stay. -/
theorem wallet_write {t : KeyTable Address AdminWallet} {a c : Address} {w w' : AdminWallet}
    {P : Prop} (hc : t.lookup c = some w)
    (hthis : c = a → w'.balance.val < w.balance.val → P) :
    ∃ w'', (t.insert a w').lookup c = some w'' ∧ (w''.balance.val < w.balance.val → P) := by
  by_cases h : c = a
  · exact ⟨w', lookup_insert_eq_some.mpr (.inl ⟨h, rfl⟩), hthis h⟩
  · exact ⟨w, lookup_insert_eq_some.mpr (.inr ⟨h, hc⟩), fun hlt => absurd hlt (lt_irrefl _)⟩

/-- A wallet never disappears, and only its organizer can lower its balance. -/
theorem Effect.debit_signed {env : Env own} {s s' : State} {call : Call}
    (h : Effect env s call s') (hs : Booked s.wallet s.event) {c : Address} {w : AdminWallet}
    (hw : s.wallet.lookup c = some w) :
    ∃ w', s'.wallet.lookup c = some w' ∧ (w'.balance.val < w.balance.val → c ∈ env.auths) := by
  cases h with
  | deposit auth => exact wallet_write hw fun h _ => h ▸ auth
  | withdraw auth => exact wallet_write hw fun h _ => h ▸ auth
  | create call_eq auth => exact wallet_write hw fun h _ => h ▸ auth
  | @expire i event deadline wallet balance event_eq state_eq deadline_eq passed wallet_eq
      balance_eq =>
      -- anyone may expire an event, and the organizer's wallet only gains by it
      refine wallet_write hw fun h hlt => ?_
      have hr := hs.reward_nonneg _ _ event_eq
      rw [h, wallet_eq] at hw
      rw [← Option.some_inj.mp hw] at hlt
      simp only [balance_eq] at hlt
      omega
  | waiting => exact ⟨w, hw, fun hlt => absurd hlt (lt_irrefl _)⟩
  | goLiveFree => exact ⟨w, hw, fun hlt => absurd hlt (lt_irrefl _)⟩
  | goLiveCharged auth => exact wallet_write hw fun h _ => h ▸ auth
  | cancel auth => exact wallet_write hw fun h _ => h ▸ auth
  | emergency auth => exact wallet_write hw fun h _ => h ▸ auth
  | compensate auth => exact wallet_write hw fun h _ => h ▸ auth
  | release => exact ⟨w, hw, fun hlt => absurd hlt (lt_irrefl _)⟩
  | resolve => exact ⟨w, hw, fun hlt => absurd hlt (lt_irrefl _)⟩
  | govern => exact ⟨w, hw, fun hlt => absurd hlt (lt_irrefl _)⟩
  | read => exact ⟨w, hw, fun hlt => absurd hlt (lt_irrefl _)⟩

/-! ## Tokens -/

/-- A call that leaves the token balances takes nothing out. -/
theorem Outflow.of_eq {env : Env own} {s s' : State} (h : s'.balances = s.balances) :
    Outflow env s s' := .none fun _ => by rw [h]

/-- Tokens leave the contract only with a signature that covers them. -/
theorem Effect.outflow {env : Env own} {s s' : State} {call : Call}
    (h : Effect env s call s') (hs : Booked s.wallet s.event) : Outflow env s s' := by
  cases h with
  | @deposit admin token amount wallet balance auth unpaused allowed pos =>
      -- the depositor is not the contract, which therefore gains
      have hne : own ≠ admin := fun h => env.noSelfAuth (h ▸ auth)
      refine .none fun t => ?_
      rw [State.setWallet_balances, State.setBalances_balances, move_dst_in hne]
      split <;> omega
  | withdraw auth unpaused pos wallet_eq covered balance_eq =>
      exact .wallet wallet_eq auth (.single _ wallet_eq balance_eq rfl pos rfl)
  | @goLiveCharged admin i judgingDeadline event fee treasury wallet balance auth event_eq
      admin_eq state_eq future fee_eq fee_pos treasury_eq wallet_eq covered balance_eq =>
      -- the fee goes out in the event's token, which is the wallet's
      have hpaid := congrArg (move s.balances · own treasury fee.val)
        (hs.wallet_token event_eq admin_eq wallet_eq).symm
      exact .wallet wallet_eq auth
        (.single treasury wallet_eq balance_eq rfl fee_pos hpaid)
  | compensate auth event_eq admin_eq state_eq positive total_eq wallet_eq covered balance_eq =>
      have hpos := participantPayments_pos positive
      exact .wallet wallet_eq auth
        (.of_update wallet_eq (by rw [balance_eq, total_eq]) rfl hpos rfl)
  | release auth event_eq unpaused judge_eq state_eq valid =>
      exact .payout event_eq state_eq (.inl (judge_eq ▸ auth)) rfl valid.total
        ⟨winnerPayments_pos valid.positive, gain_same rfl, rfl⟩
  | resolve auth event_eq unpaused resolver_eq state_eq deadline_eq passed valid =>
      exact .payout event_eq state_eq (.inr ⟨resolver_eq ▸ auth, _, deadline_eq, passed⟩) rfl
        valid.total
        ⟨winnerPayments_pos valid.positive, gain_same rfl, rfl⟩
  | _ => exact .of_eq rfl

/-- In every reachable state, every successful call moves funds only with the signatures
recorded for them: each stored event changes as `Authorized` says, an event that appears
is not live and carries its organizer's signature, a wallet that loses balance belongs to
an address that signed, and the contract's tokens go out only as the signed payout of a
live event's reserve or out of the wallet of an address that signed. -/
theorem funds_authority {s s' : State} {env : Env own} {call : Call} (hs : Reachable own s)
    (hok : exec env s call = .ok s') :
    (∀ i e, s.event.lookup i = some e →
      ∃ e', s'.event.lookup i = some e' ∧ Authorized env s s' e e') ∧
    (∀ i e', s.event.lookup i = none → s'.event.lookup i = some e' →
      e'.state = .created ∧ e'.admin ∈ env.auths) ∧
    (∀ a w, s.wallet.lookup a = some w →
      ∃ w', s'.wallet.lookup a = some w' ∧
        (w'.balance.val < w.balance.val → a ∈ env.auths)) ∧
    Outflow env s s' := by
  have heffect := exec_effect hok
  refine ⟨?_, ?_, ?_, heffect.outflow hs.booked⟩
  · intro i e he
    have hmove := heffect.eventMove i
    rw [he] at hmove
    exact hmove.authorized
  · intro i e' hnone he'
    have hmove := heffect.eventMove i
    rw [hnone] at hmove
    exact hmove.newborn he'
  · intro a w hw
    exact heffect.debit_signed hs.booked hw

/-- The release of the sample event by its judge. -/
theorem funds_authority_release : ∃ s' e',
    exec (Sample.env 6 [Sample.judge]) Sample.live Sample.release = .ok s' ∧
    s'.event.lookup 7 = some e' ∧
    Authorized (Sample.env 6 [Sample.judge]) Sample.live s' Sample.liveEvent e' := by
  have hok := okOf_eq (r := exec (Sample.env 6 [Sample.judge]) Sample.live Sample.release)
    (by decide +kernel)
  obtain ⟨e', he', hauth⟩ := (funds_authority Sample.live_reachable hok).1 7 _ Sample.live_lookup
  exact ⟨_, e', hok, he', hauth⟩

end Escrow
