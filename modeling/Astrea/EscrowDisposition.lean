/-
# What becomes of a reserve

The ledger of one event over a run: the successful calls on it, in order, with what each
of them really moved in the wallets and in the contract's tokens.  Whatever the run, this
is one reservation, then emergency withdrawals and steps that leave the reserve alone, then
at most one credit or payout of what is left, and which of them is told by the event's state.
-/
import Astrea.EscrowCustody
import Astrea.EscrowEvents

namespace Escrow

variable {own : Address}

/-! ## Edges -/

/-- The edges of the event state machine. -/
inductive Edge : EventState → EventState → Prop
  | wait : Edge .created .waitingForStart
  | start {st : EventState} (h : PreLaunch st) : Edge st .inProgress
  | cancel {st : EventState} (h : PreLaunch st) : Edge st .cancelled
  | finish : Edge .inProgress .ended
  | compensate : Edge .cancelled .compensated

/-- The states nothing leaves. -/
def Closed (st : EventState) : Prop := st = .ended ∨ st = .compensated

instance (st : EventState) : Decidable (Closed st) := inferInstanceAs (Decidable (_ ∨ _))

/-- Two records of an event agree on the terms fixed at creation. -/
def SameTerms (e e' : Event) : Prop :=
  e'.admin = e.admin ∧ e'.judge = e.judge ∧ e'.resolver = e.resolver ∧ e'.token = e.token ∧
    e'.deadline = e.deadline

/-- How a record may change in one step: it stays, on its terms, along the edges, and not
at all once closed. -/
def Follows (e e' : Event) : Prop :=
  SameTerms e e' ∧ (e'.state = e.state ∨ Edge e.state e'.state) ∧ (Closed e.state → e' = e)

theorem SameTerms.refl (e : Event) : SameTerms e e := ⟨rfl, rfl, rfl, rfl, rfl⟩

theorem Follows.refl (e : Event) : Follows e e := ⟨.refl e, .inl rfl, fun _ => rfl⟩

theorem PreLaunch.not_closed {st : EventState} (h : PreLaunch st) : ¬ Closed st := by
  rcases h with rfl | rfl <;> decide

/-- What an edge leaves is open. -/
theorem Edge.not_closed {st st' : EventState} (h : Edge st st') : ¬ Closed st := by
  cases h with
  | wait => decide
  | start h => exact h.not_closed
  | cancel h => exact h.not_closed
  | finish => decide
  | compensate => decide

/-- A record that takes an edge on its terms. -/
theorem Follows.of_edge {e e' : Event} (hterms : SameTerms e e') (h : Edge e.state e'.state) :
    Follows e e' := ⟨hterms, .inr h, fun hclosed => absurd hclosed h.not_closed⟩

/-- A stored event survives every call and follows the edges. -/
theorem EventMove.follows {env : Env own} {s s' : State} {i : EventId} {call : Call}
    {e : Event} {o : Option Event} (h : EventMove env s s' i call (some e) o) :
    ∃ e', o = some e' ∧ Follows e e' := by
  cases h with
  | untouched h => exact ⟨e, rfl, .refl e⟩
  | expire state_eq deadline_eq passed credited =>
      exact ⟨_, rfl, .of_edge (.refl e) (.cancel state_eq)⟩
  | wait auth state_eq =>
      refine ⟨_, rfl, .of_edge (.refl e) ?_⟩
      rw [state_eq]
      exact .wait
  | goLive auth state_eq future => exact ⟨_, rfl, .of_edge (.refl e) (.start state_eq)⟩
  | cancel auth state_eq credited => exact ⟨_, rfl, .of_edge (.refl e) (.cancel state_eq)⟩
  | emergency auth resolver_auth pos state_eq covered reward_eq credited =>
      -- the state stays, and the reward is not yet disposed of
      exact ⟨_, rfl, .refl e, .inl rfl, fun hclosed => absurd hclosed state_eq.not_closed⟩
  | compensate auth state_eq =>
      refine ⟨_, rfl, .of_edge (.refl e) ?_⟩
      rw [state_eq]
      exact .compensate
  | release auth state_eq valid paid =>
      refine ⟨_, rfl, .of_edge (.refl e) ?_⟩
      rw [state_eq]
      exact .finish
  | resolve auth state_eq deadline_eq passed valid paid =>
      refine ⟨_, rfl, .of_edge (.refl e) ?_⟩
      rw [state_eq]
      exact .finish

/-- The same for every step of the ledger. -/
theorem Step.follows {s s' : State} {l : Label own} (h : Step own s l s') {i : EventId}
    {e : Event} (he : s.event.lookup i = some e) :
    ∃ e', s'.event.lookup i = some e' ∧ Follows e e' := by
  cases h with
  | call ok =>
      have hmove := (exec_effect ok).eventMove i
      rw [he] at hmove
      exact hmove.follows
  | reverted error => exact ⟨e, he, .refl e⟩
  | ledger grows => exact ⟨e, he, .refl e⟩

/-! ## The ledger of an event -/

/-- The step is a successful call on event `i`. -/
def isOn (i : EventId) (t : Transition State (Label own)) : Bool :=
  match t.label with
  | .call _ call => decide (call.writes? = some i)
  | _ => false

/-- The ledger of event `i` over a run: the successful calls on it in order, each with the
states around it. -/
def callsOn (i : EventId) (tr : List (Transition State (Label own))) :
    List (Transition State (Label own)) := tr.filter (isOn i)

/-- The amount a step takes out of the reserve of event `i` by `emergency_withdraw`. -/
def withdrawn (i : EventId) (t : Transition State (Label own)) : ℤ :=
  match t.label with
  | .call _ (.emergencyWithdraw _ _ eventId amount) => if eventId = i then amount.val else 0
  | _ => 0

/-- The step makes the reservation `c`, out of the wallet of its organizer. -/
def Reserves (c : Creation) (t : Transition State (Label own)) : Prop :=
  (∃ env call, t.label = .call env call ∧ call.creation? = some c) ∧
    Credits t.pre t.post c.admin (-c.reward.val)

/-- A step on an event that goes on: what it withdraws from the reserve, if anything, is
credited to the organizer and moves no token, or it withdraws nothing and what it pays comes
out of the organizer's wallet. -/
def Interim (i : EventId) (admin token : Address) (t : Transition State (Label own)) : Prop :=
  Credits t.pre t.post admin (withdrawn i t) ∨
    withdrawn i t = 0 ∧ ∃ ps, Spends own t.pre t.post admin token ps

/-- The event keeps the terms of its creation. -/
def OnTerms (c : Creation) (e : Event) : Prop :=
  e.admin = c.admin ∧ e.judge = c.judge ∧ e.token = c.token ∧ e.deadline = c.deadline ∧
    ∀ r, c.resolver = some r → e.resolver = r

/-- The last steps of the ledger that go with an event's state: none while its reward is
reserved; one credit of the reward to the organizer once cancelled, and after it at most a
compensation, which comes out of the organizer's wallet; one payout of the reward, which comes
out of no wallet, once ended. -/
def Settled (e : Event) (closing : List (Transition State (Label own))) : Prop :=
  match e.state with
  | .created | .waitingForStart | .inProgress => closing = []
  | .cancelled => ∃ t, closing = [t] ∧ Credits t.pre t.post e.admin e.reward.val
  | .compensated => ∃ t t', closing = [t, t'] ∧ Credits t.pre t.post e.admin e.reward.val ∧
      ∃ ps, Spends own t'.pre t'.post e.admin e.token ps
  | .ended => ∃ t winners, closing = [t] ∧ totalPaid (winnerPayments winners) = e.reward.val ∧
      PaysOut own t.pre t.post e.token (winnerPayments winners)

/-- The ledger of an event agrees with its record: a reservation; steps that withdraw from the
reserve for the organizer or leave it alone; and the last steps that the state calls for.  The
record's reward is what the withdrawals left of the reservation. -/
def Accounted (i : EventId) : Option Event → List (Transition State (Label own)) → Prop
  | none, es => es = []
  | some e, es => ∃ (c : Creation) (first : Transition State (Label own))
      (held closing : List (Transition State (Label own))),
      es = first :: (held ++ closing) ∧ OnTerms c e ∧ Reserves c first ∧
      (∀ t ∈ held, Interim i c.admin c.token t) ∧ Settled e closing ∧
      c.reward.val = (es.map (withdrawn i)).sum + e.reward.val

variable {i : EventId} {e e' : Event} {es : List (Transition State (Label own))}
  {t : Transition State (Label own)}

theorem callsOn_append (tr : List (Transition State (Label own))) :
    callsOn i (tr ++ [t]) = callsOn i tr ++ callsOn i [t] := List.filter_append ..

theorem callsOn_call {s s' : State} {env : Env own} {call : Call} (h : call.writes? = some i) :
    callsOn i [⟨s, .call env call, s'⟩] = [⟨s, .call env call, s'⟩] := by
  have hon : isOn i ⟨s, .call env call, s'⟩ = true := decide_eq_true h
  rw [callsOn, List.filter_cons_of_pos hon, List.filter_nil]

theorem callsOn_other {s s' : State} {env : Env own} {call : Call}
    (h : call.writes? ≠ some i) : callsOn i [⟨s, .call env call, s'⟩] = [] := by
  have hoff : isOn i ⟨s, .call env call, s'⟩ = false := decide_eq_false h
  rw [callsOn, List.filter_cons_of_neg (by rw [hoff]; decide), List.filter_nil]

theorem sum_withdrawn_snoc : ((es ++ [t]).map (withdrawn i)).sum
    = (es.map (withdrawn i)).sum + withdrawn i t := by
  rw [List.map_append, List.sum_append, List.map_singleton, List.sum_singleton]

theorem withdrawn_of_creation {s s' : State} {env : Env own} {call : Call} {c : Creation}
    (h : call.creation? = some c) : withdrawn i ⟨s, .call env call, s'⟩ = 0 := by
  cases call <;> first | rfl | exact nomatch h

theorem withdrawn_emergency {s s' : State} {env : Env own} {admin resolver : Address}
    {amount : I128} :
    withdrawn i ⟨s, .call env (.emergencyWithdraw admin resolver i amount), s'⟩ = amount.val :=
  if_pos rfl

theorem OnTerms.of_sameTerms {c : Creation} (h : OnTerms c e) (hsame : SameTerms e e') :
    OnTerms c e' := by
  obtain ⟨h1, h2, h3, h4, h5⟩ := h
  obtain ⟨s1, s2, s3, s4, s5⟩ := hsame
  exact ⟨s1.trans h1, s2.trans h2, s4.trans h3, s5.trans h4, fun r hr => s3.trans (h5 r hr)⟩

/-- While the reward is reserved the ledger has no last steps, and the other way round. -/
theorem settled_held {closing : List (Transition State (Label own))} (hst : Held e.state) :
    Settled e closing ↔ closing = [] := by
  unfold Settled
  rcases hst with hst | hst | hst <;> rw [hst]

/-- A step on a reserved event that stays reserved. -/
theorem Accounted.hold (h : Accounted i (some e) es) (hst : Held e.state)
    (hst' : Held e'.state) (hterms : SameTerms e e') (ht : Interim i e.admin e.token t)
    (hr : e'.reward.val = e.reward.val - withdrawn i t) :
    Accounted i (some e') (es ++ [t]) := by
  obtain ⟨c, first, held, closing, rfl, hon, hfirst, hheld, hset, hsum⟩ := h
  obtain rfl := (settled_held hst).mp hset
  refine ⟨c, first, held ++ [t], [], ?_, hon.of_sameTerms hterms, hfirst, ?_,
    (settled_held hst').mpr rfl, ?_⟩
  · simp only [List.append_nil, List.cons_append]
  · intro t' ht'
    rcases List.mem_append.mp ht' with hold | hnew
    · exact hheld t' hold
    · rw [List.mem_singleton.mp hnew, ← hon.1, ← hon.2.2.1]
      exact ht
  · rw [sum_withdrawn_snoc, hsum, hr]
    omega

/-- A step that disposes of the reserve. -/
theorem Accounted.settle (h : Accounted i (some e) es) (hst : Held e.state)
    (hterms : SameTerms e e') (hr : e'.reward = e.reward) (ht : withdrawn i t = 0)
    (hset : Settled e' [t]) : Accounted i (some e') (es ++ [t]) := by
  obtain ⟨c, first, held, closing, rfl, hon, hfirst, hheld, hopen, hsum⟩ := h
  obtain rfl := (settled_held hst).mp hopen
  refine ⟨c, first, held, [t], ?_, hon.of_sameTerms hterms, hfirst, hheld, hset, ?_⟩
  · simp only [List.append_nil, List.cons_append]
  · rw [sum_withdrawn_snoc, ht, add_zero, hr, hsum]

/-- A cancelled event that is compensated. -/
theorem Accounted.compensate (h : Accounted i (some e) es) (hst : e.state = .cancelled)
    (ht : withdrawn i t = 0) {ps : List (Address × I128)}
    (hspent : Spends own t.pre t.post e.admin e.token ps) :
    Accounted i (some { e with state := .compensated }) (es ++ [t]) := by
  obtain ⟨c, first, held, closing, rfl, hon, hfirst, hheld, hset, hsum⟩ := h
  rw [Settled, hst] at hset
  obtain ⟨t₀, rfl, hcredit⟩ := hset
  refine ⟨c, first, held, [t₀, t], ?_, hon, hfirst, hheld, ⟨t₀, t, rfl, hcredit, ps, hspent⟩, ?_⟩
  · simp only [List.append_assoc, List.cons_append, List.nil_append]
  · rw [sum_withdrawn_snoc, ht, add_zero, hsum]

/-- Each thing a call can do to an event keeps its ledger in agreement. -/
theorem EventMove.accounted {env : Env own} {s s' : State} {call : Call} {o o' : Option Event}
    (h : EventMove env s s' i call o o') (hs : Booked s.wallet s.event)
    (ho : s.event.lookup i = o) (hes : Accounted i o es) :
    Accounted i o' (es ++ callsOn i [⟨s, .call env call, s'⟩]) := by
  cases h with
  | untouched h =>
      rw [callsOn_other h, List.append_nil]
      exact hes
  | @create _ c resolver call_eq id_eq auth resolver_eq reserved =>
      subst id_eq
      rw [callsOn_call (Call.writes?_of_creation? call_eq),
        show es = [] from hes]
      -- the ledger was empty, and this is its reservation
      refine ⟨c, _, [], [], rfl, ⟨rfl, rfl, rfl, rfl, ?_⟩, ⟨⟨env, _, rfl, call_eq⟩, reserved⟩,
        List.forall_mem_nil _, rfl, ?_⟩
      · intro r hr
        rw [hr] at resolver_eq
        exact (Option.some_inj.mp resolver_eq).symm
      · rw [sum_withdrawn_snoc, withdrawn_of_creation call_eq]
        exact (zero_add _).symm
  | expire state_eq deadline_eq passed credited =>
      rw [callsOn_call rfl]
      exact hes.settle state_eq.held (.refl _) rfl rfl ⟨_, rfl, credited⟩
  | wait auth state_eq spent =>
      rw [callsOn_call rfl]
      exact hes.hold (.inl state_eq) (.inr (.inl rfl)) (.refl _) (.inr ⟨rfl, [], spent⟩)
        (sub_zero _).symm
  | goLive auth state_eq future spent =>
      rw [callsOn_call rfl]
      exact hes.hold state_eq.held (.inr (.inr rfl)) (.refl _) (.inr ⟨rfl, _, spent⟩)
        (sub_zero _).symm
  | cancel auth state_eq credited =>
      rw [callsOn_call rfl]
      exact hes.settle state_eq.held (.refl _) rfl rfl ⟨_, rfl, credited⟩
  | emergency auth resolver_auth pos state_eq covered reward_eq credited =>
      rw [callsOn_call rfl]
      refine hes.hold state_eq.held state_eq.held (.refl _) (.inl ?_) ?_
      · rw [withdrawn_emergency]
        exact credited
      · rw [withdrawn_emergency]
        exact reward_eq
  | compensate auth state_eq wallet_eq spent =>
      rw [callsOn_call rfl]
      -- the wallet that pays is kept in the event's token
      rw [hs.wallet_token ho rfl wallet_eq] at spent
      exact hes.compensate state_eq rfl spent
  | release auth state_eq valid paid =>
      rw [callsOn_call rfl]
      exact hes.settle (.inr (.inr state_eq)) (.refl _) rfl rfl ⟨_, _, rfl, valid.total, paid⟩
  | resolve auth state_eq deadline_eq passed valid paid =>
      rw [callsOn_call rfl]
      exact hes.settle (.inr (.inr state_eq)) (.refl _) rfl rfl ⟨_, _, rfl, valid.total, paid⟩

/-- The ledger of an event agrees with its record in every state of every run. -/
theorem EscrowRun.accounted {b : Balances} {tr : List (Transition State (Label own))}
    {s : State} (hr : EscrowRun own b tr s) (i : EventId) :
    Accounted i (s.event.lookup i) (callsOn i tr) := by
  refine hr.history (H := fun tr (s : State) => Accounted i (s.event.lookup i) (callsOn i tr))
    rfl ?_
  intro tr s l s' hrun hH hstep
  rw [callsOn_append]
  cases hstep with
  | call ok =>
      exact ((exec_effect ok).eventMove i).accounted (EscrowRun.booked hrun) rfl hH
  | reverted error => exact (List.append_nil _).symm ▸ hH
  | ledger grows => exact (List.append_nil _).symm ▸ hH

/-- A call that does not write an event leaves its record. -/
theorem EventMove.eq_of_not_writes {env : Env own} {s s' : State} {call : Call}
    {o o' : Option Event} (h : EventMove env s s' i call o o') (hne : call.writes? ≠ some i) :
    o' = o := by
  cases h with
  | untouched h => rfl
  | create call_eq id_eq => exact absurd (id_eq ▸ Call.writes?_of_creation? call_eq) hne
  | _ => exact absurd rfl hne

/-- A step that is no successful call on an event leaves its record. -/
theorem Step.eq_of_not_isOn {s s' : State} {l : Label own} (h : Step own s l s')
    (hoff : isOn i ⟨s, l, s'⟩ = false) : s'.event.lookup i = s.event.lookup i := by
  cases h with
  | call ok => exact ((exec_effect ok).eventMove i).eq_of_not_writes (of_decide_eq_false hoff)
  | reverted error => rfl
  | ledger grows => rfl

/-- The sample event created, partly withdrawn, and cancelled. -/
def Sample.cancelScript : List (Env Sample.escrow × Call) :=
  [(Sample.env 1 [Sample.organizer], .depositFunds Sample.organizer Sample.token (.ofNat 1000)),
   (Sample.env 2 [Sample.organizer], .createEvent Sample.organizer Sample.judge
     (some Sample.resolver) Sample.token (.ofNat 600) 7),
   (Sample.env 3 [Sample.organizer, Sample.resolver],
     .emergencyWithdraw Sample.organizer Sample.resolver 7 (.ofNat 200)),
   (Sample.env 4 [Sample.organizer], .setEventCancelled Sample.organizer 7)]

def Sample.cancelled : State :=
  okOf (play (genesis Sample.balances) Sample.cancelScript) (by decide +kernel)

/-- The sample event once cancelled: its reward field keeps what was credited. -/
def Sample.cancelledEvent : Event :=
  { Sample.liveEvent with state := .cancelled, reward := .ofNat 400, judgingDeadline := none }

end Escrow
