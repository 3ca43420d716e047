/-
# What the notifications tell

An observer who sees nothing but the notifications the contract publishes.  It checks each against
what it has seen before, and knows of every event the organizer, the reserved reward and the state,
and what is paused.  After every run this is what the contract holds.
-/
import Astrea.EscrowGovernor

open KeyTable

namespace Escrow

variable {own : Address}

/-! ## The observer -/

/-- What the notifications say of an event. -/
structure EventView where
  admin : Address
  reward : I128
  state : EventState
  deriving DecidableEq

/-- What an observer knows. -/
structure Observed where
  events : KeyTable EventId EventView
  paused : Option Bool
  adminPaused : KeyTable Address Bool

/-- What is known before the first notification. -/
def Observed.nothing : Observed := ⟨∅, none, ∅⟩

def Event.view (e : Event) : EventView := ⟨e.admin, e.reward, e.state⟩

/-- The notification speaks of a known event and fits it. -/
def Observed.amend (o : Observed) (i : EventId) (fits : EventView → Prop) [DecidablePred fits]
    (f : EventView → EventView) : Option Observed :=
  match o.events.lookup i with
  | some v => if fits v then some { o with events := o.events.insert i (f v) } else none
  | none => none

/-- One notification: what is known after it, `none` when it does not fit. -/
def observe (o : Observed) : ContractEvent → Option Observed
  | .eventCreated i admin reward =>
      if o.events.lookup i = none ∧ 0 < reward.val then
        some { o with events := o.events.insert i ⟨admin, reward, .created⟩ }
      else none
  | .eventExpired i admin reward | .eventCancelled i admin reward =>
      o.amend i (fun v => v.admin = admin ∧ v.reward = reward ∧ PreLaunch v.state)
        fun v => { v with state := .cancelled }
  | .eventWaitingForStart i admin =>
      o.amend i (fun v => v.admin = admin ∧ v.state = .created)
        fun v => { v with state := .waitingForStart }
  | .eventStarted i admin =>
      o.amend i (fun v => v.admin = admin ∧ PreLaunch v.state)
        fun v => { v with state := .inProgress }
  | .compensationReleased i admin _ =>
      o.amend i (fun v => v.admin = admin ∧ v.state = .cancelled)
        fun v => { v with state := .compensated }
  | .rewardReleased i admin total =>
      o.amend i (fun v => v.admin = admin ∧ v.reward = total ∧ v.state = .inProgress)
        fun v => { v with state := .ended }
  | .disputeResolved i _ total =>
      o.amend i (fun v => v.reward = total ∧ v.state = .inProgress)
        fun v => { v with state := .ended }
  | .emergencyWithdrawal i admin _ amount =>
      o.amend i (fun v => v.admin = admin ∧ PreLaunch v.state ∧ 0 < amount.val ∧
          amount.val ≤ v.reward.val)
        fun v => { v with reward := (v.reward.sub amount).getD v.reward }
  -- a fee is announced with the start of its event
  | .feeCharged i admin _ fee =>
      o.amend i (fun v => v.admin = admin ∧ v.state = .inProgress ∧ 0 < fee.val) id
  | .contractPaused p => some { o with paused := some p }
  | .adminPaused a p => some { o with adminPaused := o.adminPaused.insert a p }

/-- A log of notifications, from the first. -/
def replay (log : List ContractEvent) : Option Observed := log.foldlM observe .nothing

/-! ## What the observer knows -/

/-- The observer knows of every event what the contract holds of it, and what is paused. -/
structure Mirrors (o : Observed) (s : State) : Prop where
  events : ∀ i, o.events.lookup i = (s.event.lookup i).map Event.view
  paused : o.paused = s.gov.paused
  adminPaused : ∀ a, o.adminPaused.lookup a = s.gov.adminPaused.lookup a

namespace Mirrors

variable {o : Observed} {s s' : State}

/-- A state with the same events and governance values. -/
theorem of_eq (h : Mirrors o s) (hevent : s'.event = s.event) (hgov : s'.gov = s.gov) :
    Mirrors o s' where
  events i := by rw [hevent, h.events]
  paused := by rw [hgov, h.paused]
  adminPaused a := by rw [hgov, h.adminPaused]

/-- One event is written. -/
theorem insert (h : Mirrors o s) {i : EventId} {e : Event}
    (hevent : s'.event = s.event.insert i e) (hgov : s'.gov = s.gov) :
    Mirrors { o with events := o.events.insert i e.view } s' where
  events j := by
    rw [hevent]
    by_cases hij : j = i
    · subst hij
      rw [AList.lookup_insert, AList.lookup_insert]
      rfl
    · rw [AList.lookup_insert_ne hij, AList.lookup_insert_ne hij, h.events]
  paused := by rw [hgov, h.paused]
  adminPaused a := by rw [hgov, h.adminPaused]

/-- A notification that fits the recorded event, and amends it as the contract does. -/
theorem amend (h : Mirrors o s) {i : EventId} {e e' : Event} {fits : EventView → Prop}
    [DecidablePred fits] {f : EventView → EventView} (he : s.event.lookup i = some e)
    (hfits : fits e.view) (hf : f e.view = e'.view) (hevent : s'.event = s.event.insert i e')
    (hgov : s'.gov = s.gov) : ∃ o', o.amend i fits f = some o' ∧ Mirrors o' s' := by
  have hlookup : o.events.lookup i = some e.view := by rw [h.events, he, Option.map_some]
  refine ⟨{ o with events := o.events.insert i e'.view }, ?_, h.insert hevent hgov⟩
  rw [Observed.amend, hlookup]
  dsimp only
  rw [if_pos hfits, hf]

end Mirrors

/-! ## One step -/

/-- The notifications of a step, which the observer accepts and which tell it what has changed. -/
def Told (o : Observed) (s s' : State) : Prop :=
  ∃ ns o', s'.published = s.published ++ ns ∧ ns.foldlM observe o = some o' ∧ Mirrors o' s'

theorem Told.silent {o : Observed} {s s' : State} (h : Mirrors o s)
    (hlog : s'.published = s.published) (hevent : s'.event = s.event) (hgov : s'.gov = s.gov) :
    Told o s s' :=
  ⟨[], o, by rw [hlog, List.append_nil], rfl, h.of_eq hevent hgov⟩

/-- One more notification. -/
theorem Told.snoc {o : Observed} {s t t' : State} {n : ContractEvent} (h : Told o s t)
    (hlog : t'.published = t.published ++ [n])
    (hone : ∀ o', Mirrors o' t → ∃ o'', observe o' n = some o'' ∧ Mirrors o'' t') : Told o s t' := by
  obtain ⟨ns, o', hns, hfold, hmirrors⟩ := h
  obtain ⟨o'', hobserve, hmirrors'⟩ := hone o' hmirrors
  refine ⟨ns ++ [n], o'', ?_, ?_, hmirrors'⟩
  · rw [hlog, hns, List.append_assoc]
  · rw [List.foldlM_append, hfold]
    show ([n].foldlM observe o' : Option Observed) = _
    rw [List.foldlM_cons, hobserve]
    rfl

/-- A single notification. -/
theorem Told.one {o : Observed} {s s' : State} {n : ContractEvent}
    (hlog : s'.published = s.published ++ [n])
    (h : ∃ o', observe o n = some o' ∧ Mirrors o' s') : Told o s s' := by
  obtain ⟨o', ho', hmirrors⟩ := h
  refine ⟨[n], o', hlog, ?_, hmirrors⟩
  rw [List.foldlM_cons, ho']
  rfl

/-- A call that moves funds tells the observer what it does to its event. -/
theorem Effect.told {env : Env own} {s s' : State} {call : Call} {o : Observed}
    (h : Effect env s call s') (hfunds : call.movesFunds = true) (ho : Mirrors o s) :
    Told o s s' := by
  have hgov := h.gov_eq hfunds
  cases h with
  | deposit => exact .silent ho rfl rfl rfl
  | withdraw => exact .silent ho rfl rfl rfl
  | @create _ c wallet balance resolver next call_eq auth unpaused pos fresh =>
      have hfresh : o.events.lookup c.eventId = none := by rw [ho.events, fresh, Option.map_none]
      refine .one rfl ⟨_, ?_, ho.insert (e := c.event resolver) rfl rfl⟩
      exact if_pos ⟨hfresh, pos⟩
  | expire event_eq state_eq => exact .one rfl (ho.amend event_eq ⟨rfl, rfl, state_eq⟩ rfl rfl rfl)
  | waiting auth event_eq admin_eq state_eq =>
      exact .one rfl (ho.amend event_eq ⟨admin_eq, state_eq⟩ rfl rfl rfl)
  | goLiveFree auth event_eq admin_eq state_eq =>
      exact .one rfl (ho.amend event_eq ⟨admin_eq, state_eq⟩ rfl rfl rfl)
  | @goLiveCharged admin i judgingDeadline event fee treasury wallet balance auth event_eq admin_eq
      state_eq future fee_eq fee_pos =>
      -- the start and its fee are two notifications, and the second leaves the event as it is
      let live : Event := { event with state := .inProgress, judgingDeadline := some judgingDeadline }
      have hstart : Told o s ((s.setEvent i live).publish (.eventStarted i admin)) :=
        .one rfl (ho.amend event_eq ⟨admin_eq, state_eq⟩ rfl rfl rfl)
      refine hstart.snoc (n := .feeCharged i admin treasury fee) rfl fun o₁ hmid => ?_
      exact hmid.amend (AList.lookup_insert s.event) ⟨admin_eq, rfl, fee_pos⟩ rfl
        (AList.insert_insert ..).symm rfl
  | cancel auth event_eq admin_eq state_eq =>
      exact .one rfl (ho.amend event_eq ⟨admin_eq, rfl, state_eq⟩ rfl rfl rfl)
  | @emergency admin resolver i amount reward event wallet balance auth resolver_auth pos event_eq
      admin_eq resolver_eq state_eq covered reward_eq =>
      refine .one rfl (ho.amend event_eq ⟨admin_eq, state_eq, pos, covered⟩ ?_ rfl rfl)
      have hsub : event.reward.sub amount = some reward := BoundedInt.sub_eq_some.mpr reward_eq
      show EventView.mk _ ((event.reward.sub amount).getD _) _ = _
      rw [hsub]
      rfl
  | compensate auth event_eq admin_eq state_eq =>
      exact .one rfl (ho.amend event_eq ⟨admin_eq, state_eq⟩ rfl rfl rfl)
  | release auth event_eq unpaused judge_eq state_eq =>
      exact .one rfl (ho.amend event_eq ⟨rfl, rfl, state_eq⟩ rfl rfl rfl)
  | resolve auth event_eq unpaused resolver_eq state_eq =>
      exact .one rfl (ho.amend event_eq ⟨rfl, state_eq⟩ rfl rfl rfl)
  | govern quiet => exact absurd (hfunds.symm.trans quiet) (by decide)
  | read quiet => exact absurd (hfunds.symm.trans quiet) (by decide)

/-- A governance call tells the observer what it pauses. -/
theorem GovernanceMove.told {env : Env own} {s : State} {call : Call} {g : Governance}
    {ns : List ContractEvent} {o : Observed} (h : GovernanceMove env s.gov call g ns)
    (ho : Mirrors o s) : Told o s (governed s g ns) := by
  cases h with
  | paused => exact .one rfl ⟨_, rfl, ho.events, rfl, ho.adminPaused⟩
  | @adminPaused caller a p auth admin_eq =>
      refine .one rfl ⟨_, rfl, ho.events, ho.paused, fun b => ?_⟩
      show (o.adminPaused.insert a p).lookup b = (s.gov.adminPaused.insert a p).lookup b
      by_cases hab : b = a
      · rw [hab, AList.lookup_insert, AList.lookup_insert]
      · rw [AList.lookup_insert_ne hab, AList.lookup_insert_ne hab, ho.adminPaused]
  | _ => exact ⟨[], o, rfl, rfl, ho.events, ho.paused, ho.adminPaused⟩

theorem Step.told {s s' : State} {l : Label own} {o : Observed} (h : Step own s l s')
    (ho : Mirrors o s) : Told o s s' := by
  cases h with
  | @call _ env call ok =>
      cases hfunds : call.movesFunds with
      | true => exact (exec_effect ok).told hfunds ho
      | false =>
          rcases exec_governance ok hfunds with ⟨g, ns, hmove, rfl⟩ | ⟨-, rfl⟩
          · exact hmove.told ho
          · exact .silent ho rfl rfl rfl
  | reverted _ => exact .silent ho rfl rfl rfl
  | ledger _ => exact .silent ho rfl rfl rfl

/-! ## Runs -/

/-- After every run an observer that replays the published notifications accepts each of them, and
knows of every event the organizer, the reserved reward and the state that the contract holds, and
what is paused; and what was published before any step is what the log starts with. -/
theorem log_replays {b : Balances} {tr : List (Transition State (Label own))} {s : State}
    (hr : EscrowRun own b tr s) :
    (∃ o, replay s.published = some o ∧ Mirrors o s) ∧
      ∀ t ∈ tr, t.pre.published <+: s.published := by
  refine hr.history (H := fun tr s => (∃ o, replay s.published = some o ∧ Mirrors o s) ∧
    ∀ t ∈ tr, t.pre.published <+: s.published)
    ⟨⟨.nothing, rfl, fun _ => rfl, rfl, fun _ => rfl⟩, fun _ ht => absurd ht List.not_mem_nil⟩ ?_
  rintro tr s l s' - ⟨⟨o, hreplay, ho⟩, hpre⟩ hstep
  obtain ⟨ns, o', hlog, hfold, ho'⟩ := hstep.told ho
  have hgrows : s.published <+: s'.published := ⟨ns, hlog.symm⟩
  refine ⟨⟨o', ?_, ho'⟩, fun t ht => ?_⟩
  · rw [replay, hlog, List.foldlM_append, show s.published.foldlM observe .nothing = _ from hreplay]
    exact hfold
  · rcases List.mem_append.mp ht with hold | hnew
    · exact (hpre t hold).trans hgrows
    · rw [List.mem_singleton.mp hnew]
      exact hgrows

/-- The log of the sample contract, whose event is live. -/
theorem log_replays_live : ∃ o, replay Sample.live.published = some o ∧
    o.events.lookup 7 = some ⟨Sample.organizer, .ofNat 600, .inProgress⟩ := by
  obtain ⟨⟨o, hreplay, ho⟩, -⟩ := log_replays (play_run Sample.play_live)
  refine ⟨o, hreplay, ?_⟩
  rw [ho.events]
  decide +kernel

end Escrow
