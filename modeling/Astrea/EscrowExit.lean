/-
# The exits of a live event

A live event can always be closed, by the judge or, past the judging deadline, by the
resolver, and both accept the same winners lists: the valid splits of the reward.  That
the payments go through rests on custody: the contract really holds the reward.
-/
import Astrea.EscrowCustody
import Astrea.EscrowEvents

open KeyTable

namespace Escrow

variable {own : Address}

/-! ## A live event has its judging deadline -/

/-- Every live event has a judging deadline. -/
def LiveHasDeadline (s : State) : Prop :=
  ∀ i e, s.event.lookup i = some e → e.state = .inProgress → ∃ d, e.judgingDeadline = some d

/-- A call keeps the deadline of a live event, and sets it when the event goes live. -/
theorem EventMove.deadline {env : Env own} {s s' : State} {i : EventId} {call : Call}
    {o o' : Option Event} (h : EventMove env s s' i call o o')
    (ho : ∀ e, o = some e → e.state = .inProgress → ∃ d, e.judgingDeadline = some d) :
    ∀ e, o' = some e → e.state = .inProgress → ∃ d, e.judgingDeadline = some d := by
  intro e' he' hst
  cases h with
  | untouched h => exact ho e' he' hst
  | @goLive e judgingDeadline auth state_eq future =>
      obtain rfl := Option.some_inj.mp he'
      exact ⟨judgingDeadline, rfl⟩
  | @emergency e amount reward auth resolver_auth pos state_eq covered reward_eq credited =>
      obtain rfl := Option.some_inj.mp he'
      exact ho e rfl hst
  | _ =>
      obtain rfl := Option.some_inj.mp he'
      exact nomatch hst

theorem Step.liveHasDeadline {s s' : State} {l : Label own} (h : Step own s l s')
    (hs : LiveHasDeadline s) : LiveHasDeadline s' :=
  h.preserves hs (fun _ _ he i => (he.eventMove i).deadline (hs i)) fun _ => hs

theorem Reachable.liveHasDeadline {s : State} (h : Reachable own s) : LiveHasDeadline s := by
  obtain ⟨b, tr, -, hr⟩ := h
  refine hr.invariant (I := LiveHasDeadline) ?_ fun _ _ _ hI hstep => hstep.liveHasDeadline hI
  intro i e he
  exact nomatch he

/-! ## The contract holds what it has to pay -/

/-- One wallet's balance is part of the free balances of its token. -/
theorem Booked.balance_le_free {wallets : KeyTable Address AdminWallet}
    {events : KeyTable EventId Event} (h : Booked wallets events) {a : Address}
    {w : AdminWallet} (hw : wallets.lookup a = some w) :
    w.balance.val ≤ totalOf (freeIn w.token) wallets := by
  have hthis : freeIn w.token a w = w.balance.val := if_pos rfl
  rw [← hthis]
  apply weight_le_totalOf _ hw
  intro a' w' hw'
  unfold freeIn
  split
  · exact h.balance_nonneg a' w' hw'
  · exact le_refl 0

/-- One reserved event's reward is part of the reserves of its token. -/
theorem Booked.reward_le_reserved {wallets : KeyTable Address AdminWallet}
    {events : KeyTable EventId Event} (h : Booked wallets events) {i : EventId} {e : Event}
    (he : events.lookup i = some e) (hst : Held e.state) :
    e.reward.val ≤ totalOf (reservedIn e.token) events := by
  have hthis : reservedIn e.token i e = e.reward.val := if_pos ⟨rfl, hst⟩
  rw [← hthis]
  apply weight_le_totalOf _ he
  intro j e' he'
  unfold reservedIn
  split
  · exact h.reward_nonneg j e' he'
  · exact le_refl 0

/-- The free balances of a token do not add up to a debt. -/
theorem Booked.free_nonneg {wallets : KeyTable Address AdminWallet}
    {events : KeyTable EventId Event} (h : Booked wallets events) (token : Address) :
    0 ≤ totalOf (freeIn token) wallets := by
  apply totalOf_nonneg
  intro a w hw
  unfold freeIn
  split
  · exact h.balance_nonneg a w hw
  · exact le_refl 0

/-- Nor do the reserves. -/
theorem Booked.reserved_nonneg {wallets : KeyTable Address AdminWallet}
    {events : KeyTable EventId Event} (h : Booked wallets events) (token : Address) :
    0 ≤ totalOf (reservedIn token) events := by
  apply totalOf_nonneg
  intro i e he
  unfold reservedIn
  split
  · exact h.reward_nonneg i e he
  · exact le_refl 0

/-- The contract holds at least what it owes. -/
theorem Reachable.liabilities_le {s : State} (h : Reachable own s) (token : Address) :
    totalOf (freeIn token) s.wallet + totalOf (reservedIn token) s.event
      ≤ s.balances token own := by
  obtain ⟨b, tr, hb, hr⟩ := h
  have hsurplus := EscrowRun.surplus_nonneg hb hr token
  rw [surplus, liabilities] at hsurplus
  omega

/-- A reserved event's reward lies in the contract's balance of its token. -/
theorem Reachable.reward_covered {s : State} (h : Reachable own s) {i : EventId} {e : Event}
    (he : s.event.lookup i = some e) (hst : Held e.state) :
    e.reward.val ≤ s.balances e.token own := by
  have hfree := h.booked.free_nonneg e.token
  have hreserved := h.booked.reward_le_reserved he hst
  have howed := h.liabilities_le e.token
  omega

/-- A wallet's balance lies in the contract's balance of its token. -/
theorem Reachable.balance_covered {s : State} (h : Reachable own s) {a : Address}
    {w : AdminWallet} (hw : s.wallet.lookup a = some w) :
    w.balance.val ≤ s.balances w.token own := by
  have hfree := h.booked.balance_le_free hw
  have hreserved := h.booked.reserved_nonneg w.token
  have howed := h.liabilities_le w.token
  omega

/-- Every payment of a list arrives while the contract holds its amount. -/
def Delivers (env : Env own) (token : Address) (ps : List (Address × I128)) : Prop :=
  ∀ b : Balances, ∀ p ∈ ps, p.2.val ≤ b token own →
    env.transferOk b token own p.1 p.2 = true

/-- A payment list covered by the contract's balance goes through, whoever it names. -/
theorem payable_of_covered {env : Env own} {token : Address} {ps : List (Address × I128)}
    {b : Balances} (hdel : Delivers env token ps) (hpos : ∀ p ∈ ps, 0 < p.2.val)
    (hcov : totalPaid ps ≤ b token own) : Payable env b token ps := by
  induction ps generalizing b with
  | nil => trivial
  | cons p ps ih =>
      have hrest : 0 ≤ totalPaid ps := by
        apply List.sum_nonneg
        intro x hx
        obtain ⟨q, hq, rfl⟩ := List.mem_map.mp hx
        exact le_of_lt (hpos q (List.mem_cons_of_mem _ hq))
      have hp := hpos p List.mem_cons_self
      rw [totalPaid_cons] at hcov
      refine ⟨hdel b p List.mem_cons_self (by omega), ?_⟩
      apply ih
      · exact fun b q hq => hdel b q (List.mem_cons_of_mem _ hq)
      · exact fun q hq => hpos q (List.mem_cons_of_mem _ hq)
      · -- the contract loses the amount, unless it paid itself
        rw [move_src]
        split
        · omega
        · omega

/-- A nonnegative reward has a valid split. -/
theorem exists_validSplit (reward : I128) (h : 0 ≤ reward.val) (a : Address) :
    ∃ winners, ValidSplit winners reward.val := by
  rcases eq_or_lt_of_le h with hzero | hpos
  · refine ⟨[], ⟨by decide, ?_, hzero⟩⟩
    intro w hw
    exact nomatch hw
  · refine ⟨[⟨1, reward, a⟩], ⟨by simp [maxWinners], ?_, ?_⟩⟩
    · intro w hw
      rw [List.mem_singleton.mp hw]
      exact hpos
    · simp [winnerPayments, totalPaid]

/-! ## The two exits -/

section Exits

variable {s : State} {i : EventId} {e : Event}

/-- The judge's release of a live event succeeds on exactly the valid splits. -/
theorem releaseReward_exit (hs : Reachable own s) (he : s.event.lookup i = some e)
    (hst : e.state = .inProgress) (hp : NotPaused s.gov e.admin) {env : Env own}
    (hauth : e.judge ∈ env.auths) {winners : List Winner}
    (hdel : Delivers env e.token (winnerPayments winners)) :
    (∃ s', exec env s (.releaseReward e.judge i winners) = .ok s') ↔
      ValidSplit winners e.reward.val := by
  constructor
  · rintro ⟨s', h⟩
    obtain ⟨-, e', he', -, -, -, hv, -, -⟩ := releaseReward_eq_ok.mp h
    rw [he] at he'
    rw [Option.some_inj.mp he']
    exact hv
  · intro hv
    have hcov : totalPaid (winnerPayments winners) ≤ s.balances e.token own := by
      rw [hv.total]
      exact hs.reward_covered he (.inr (.inr hst))
    have hpay := payable_of_covered hdel (winnerPayments_pos hv.positive) hcov
    exact ⟨_, releaseReward_eq_ok.mpr ⟨hauth, e, he, hp, rfl, hst, hv, hpay, rfl⟩⟩

/-- The resolver's resolution of a live event past its judging deadline succeeds on
exactly the valid splits. -/
theorem resolveDispute_exit (hs : Reachable own s) (he : s.event.lookup i = some e)
    (hst : e.state = .inProgress) (hp : NotPaused s.gov e.admin) {d : UInt64}
    (hd : e.judgingDeadline = some d) {env : Env own} (hauth : e.resolver ∈ env.auths)
    (hle : d ≤ env.timestamp) {winners : List Winner}
    (hdel : Delivers env e.token (winnerPayments winners)) :
    (∃ s', exec env s (.resolveDispute e.resolver i winners) = .ok s') ↔
      ValidSplit winners e.reward.val := by
  constructor
  · rintro ⟨s', h⟩
    obtain ⟨-, e', -, he', -, -, -, -, -, hv, -, -⟩ := resolveDispute_eq_ok.mp h
    rw [he] at he'
    rw [Option.some_inj.mp he']
    exact hv
  · intro hv
    have hcov : totalPaid (winnerPayments winners) ≤ s.balances e.token own := by
      rw [hv.total]
      exact hs.reward_covered he (.inr (.inr hst))
    have hpay := payable_of_covered hdel (winnerPayments_pos hv.positive) hcov
    exact ⟨_, resolveDispute_eq_ok.mpr
      ⟨hauth, e, d, he, hp, rfl, hst, hd, hle, hv, hpay, rfl⟩⟩

/-- What an exit leaves: the event is over, the list is paid out of the contract's balance in
the event's token, and no other record and no wallet moves. -/
structure Exited (own : Address) (s s' : State) (i : EventId) (e : Event)
    (winners : List Winner) : Prop where
  event_eq : s'.event = s.event.insert i { e with state := .ended }
  wallet_eq : s'.wallet = s.wallet
  balances_eq : s'.balances = moveAll s.balances e.token own (winnerPayments winners)

/-- Either exit leaves the event over and the list paid. -/
theorem exec_exited (he : s.event.lookup i = some e) {env : Env own} {winners : List Winner}
    {s' : State} {signer : Address}
    (h : exec env s (.releaseReward signer i winners) = .ok s' ∨
      exec env s (.resolveDispute signer i winners) = .ok s') : Exited own s s' i e winners := by
  rcases h with h | h
  · obtain ⟨-, e', he', -, -, -, -, -, rfl⟩ := releaseReward_eq_ok.mp h
    obtain rfl := Option.some_inj.mp (he.symm.trans he')
    exact ⟨rfl, rfl, rfl⟩
  · obtain ⟨-, e', -, he', -, -, -, -, -, -, -, rfl⟩ := resolveDispute_eq_ok.mp h
    obtain rfl := Option.some_inj.mp (he.symm.trans he')
    exact ⟨rfl, rfl, rfl⟩

/-- On one list the two exits leave the same events, wallets and balances. -/
theorem Exited.agree {winners : List Winner} {s₁ s₂ : State} (h₁ : Exited own s s₁ i e winners)
    (h₂ : Exited own s s₂ i e winners) :
    s₁.event = s₂.event ∧ s₁.wallet = s₂.wallet ∧ s₁.balances = s₂.balances :=
  ⟨h₁.event_eq.trans h₂.event_eq.symm, h₁.wallet_eq.trans h₂.wallet_eq.symm,
    h₁.balances_eq.trans h₂.balances_eq.symm⟩

end Exits

/-- A live, unpaused event of a reachable state is never stuck: its judging deadline is
set; the judge's release, and from the deadline on the resolver's resolution, each succeed
on exactly the valid splits of the reward and leave the same events, wallets and token
balances; and the reward has a valid split. -/
theorem live_event_exits {s : State} {i : EventId} {e : Event} (hs : Reachable own s)
    (he : s.event.lookup i = some e) (hst : e.state = .inProgress)
    (hp : NotPaused s.gov e.admin) :
    ∃ d, e.judgingDeadline = some d ∧
    (∀ (env : Env own) winners, e.judge ∈ env.auths →
      Delivers env e.token (winnerPayments winners) →
      ((∃ s', exec env s (.releaseReward e.judge i winners) = .ok s') ↔
        ValidSplit winners e.reward.val)) ∧
    (∀ (env : Env own) winners, e.resolver ∈ env.auths → d ≤ env.timestamp →
      Delivers env e.token (winnerPayments winners) →
      ((∃ s', exec env s (.resolveDispute e.resolver i winners) = .ok s') ↔
        ValidSplit winners e.reward.val)) ∧
    (∀ (env : Env own) winners s', (exec env s (.releaseReward e.judge i winners) = .ok s' ∨
      exec env s (.resolveDispute e.resolver i winners) = .ok s') →
      Exited own s s' i e winners) ∧
    (∀ (env env' : Env own) winners s₁ s₂,
      exec env s (.releaseReward e.judge i winners) = .ok s₁ →
      exec env' s (.resolveDispute e.resolver i winners) = .ok s₂ →
      s₁.event = s₂.event ∧ s₁.wallet = s₂.wallet ∧ s₁.balances = s₂.balances) ∧
    ∃ winners, ValidSplit winners e.reward.val := by
  obtain ⟨d, hd⟩ := hs.liveHasDeadline i e he hst
  refine ⟨d, hd, ?_, ?_, ?_, ?_, ?_⟩
  · intro env winners hauth hdel
    exact releaseReward_exit hs he hst hp hauth hdel
  · intro env winners hauth hle hdel
    exact resolveDispute_exit hs he hst hp hd hauth hle hdel
  · rintro env winners s' (h | h)
    · exact exec_exited he (.inl h)
    · exact exec_exited he (.inr h)
  · intro env env' winners s₁ s₂ h₁ h₂
    exact (exec_exited he (.inl h₁)).agree (exec_exited he (.inr h₂))
  · exact exists_validSplit e.reward (hs.booked.reward_nonneg i e he) e.admin

/-- The judge's release of the sample event, seen through the theorem. -/
theorem live_event_exits_sample :
    (∃ s', exec (Sample.env 6 [Sample.judge]) Sample.live Sample.release = .ok s') ↔
      ValidSplit [⟨1, .ofNat 600, Sample.winner⟩] 600 := by
  obtain ⟨d, hd, hrelease, -⟩ :=
    live_event_exits Sample.live_reachable Sample.live_lookup rfl (by decide +kernel)
  refine hrelease (Sample.env 6 [Sample.judge]) [⟨1, .ofNat 600, Sample.winner⟩] (by decide) ?_
  intro b p hp hle
  exact decide_eq_true hle

end Escrow
