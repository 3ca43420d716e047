/-
# The organizer and the payout path

Whether an organizer can reach a live event's reward alone.  It cannot when the event
names a judge and a resolver other than the organizer, and it can, paused contracts
apart, when the event names the organizer as either; creation checks neither, so what
decides is what the creating calls of a run name.
-/
import Astrea.EscrowExit
import Astrea.EscrowDisposition

open KeyTable

namespace Escrow

variable {own : Address}

/-- The event's judge and resolver are not its organizer. -/
def Apart (e : Event) : Prop := e.judge ≠ e.admin ∧ e.resolver ≠ e.admin

instance (e : Event) : Decidable (Apart e) := inferInstanceAs (Decidable (_ ∧ _))

/-- A creation names a judge other than the organizer, and gets a resolver other than
the organizer. -/
def CreatesApart (g : Governance) (c : Creation) : Prop :=
  c.judge ≠ c.admin ∧ ∀ r, effectiveResolver g c.resolver = some r → r ≠ c.admin

/-- The transition is not a creation, or one that keeps the organizer apart. -/
def NamesApart (t : Transition State (Label own)) : Prop :=
  match t.label with
  | .call _ call => ∀ c, call.creation? = some c → CreatesApart t.pre.gov c
  | _ => True

/-- A step of the ledger whose calls are authorised by one address only. -/
def SoloStep (own a : Address) (s : State) (l : Label own) (s' : State) : Prop :=
  Step own s l s' ∧ match l with
    | .call env _ | .reverted env _ => ∀ x ∈ env.auths, x = a
    | .ledger => True

/-- No sequence of calls authorised by the organizer alone changes the record of the
event: neither its reward nor its state. -/
def OutOfReach (own : Address) (s : State) (i : EventId) (e : Event) : Prop :=
  ∀ tr s', Run (SoloStep own e.admin) s tr s' → s'.event.lookup i = some e

/-! ## Apart is what creation makes it -/

theorem Apart.of_sameTerms {e e' : Event} (h : SameTerms e e') : Apart e' ↔ Apart e := by
  obtain ⟨h1, h2, h3, -, -⟩ := h
  unfold Apart
  rw [h1, h2, h3]

/-- A step that names apart keeps every event apart. -/
theorem Step.apart {s s' : State} {l : Label own} (h : Step own s l s')
    (hnames : NamesApart ⟨s, l, s'⟩) (hs : ∀ i e, s.event.lookup i = some e → Apart e) :
    ∀ i e, s'.event.lookup i = some e → Apart e := by
  intro i e he'
  cases he : s.event.lookup i with
  | some e₀ =>
      obtain ⟨e', hlook, hfollows⟩ := h.follows he
      rw [he'] at hlook
      obtain rfl := Option.some_inj.mp hlook
      exact (Apart.of_sameTerms hfollows.1).mpr (hs i e₀ he)
  | none =>
      cases h with
      | @call _ env call ok =>
          have hmove := (exec_effect ok).eventMove i
          rw [he, he'] at hmove
          cases hmove with
          | create call_eq id_eq auth resolver_eq =>
              obtain ⟨hj, hr⟩ := hnames _ call_eq
              exact ⟨hj, hr _ resolver_eq⟩
      | reverted error => exact absurd he' (by rw [he]; exact nofun)
      | ledger grows =>
          rw [State.setBalances_event, he] at he'
          exact nomatch he'

/-- What a run's creations name is what its last state stores. -/
theorem EscrowRun.apart_iff {b : Balances} {tr : List (Transition State (Label own))}
    {s : State} (hr : EscrowRun own b tr s) :
    (∀ t ∈ tr, NamesApart t) ↔ ∀ i e, s.event.lookup i = some e → Apart e := by
  refine hr.history (H := fun tr (s : State) => (∀ t ∈ tr, NamesApart t) ↔
    ∀ i e, s.event.lookup i = some e → Apart e) ?_ ?_
  · constructor
    · intro _ i e he
      exact nomatch he
    · intro _ t ht
      exact nomatch ht
  · intro tr s l s' _ hH hstep
    constructor
    · intro hall
      refine hstep.apart (hall _ (List.mem_append_right _ (List.mem_singleton_self _))) ?_
      exact hH.mp fun t ht => hall t (List.mem_append_left _ ht)
    · intro hstored t ht
      have hbefore : ∀ i e, s.event.lookup i = some e → Apart e := by
        intro i e he
        obtain ⟨e', he', hfollows⟩ := hstep.follows he
        exact (Apart.of_sameTerms hfollows.1).mp (hstored i e' he')
      rcases List.mem_append.mp ht with ht | ht
      · exact hH.mpr hbefore t ht
      · rw [List.mem_singleton.mp ht]
        cases hstep with
        | @call _ env call ok =>
            intro c hc
            -- the created event is stored, with the resolver the creation got
            have heffect := exec_effect ok
            cases heffect with
            | @create _ c' wallet balance resolver next call_eq auth unpaused pos fresh
                wallet_eq token_eq covered balance_eq resolver_eq =>
                rw [hc] at call_eq
                obtain rfl := Option.some_inj.mp call_eq
                have hlook : (s.event.insert c.eventId (c.event resolver)).lookup c.eventId
                    = some (c.event resolver) := AList.lookup_insert _
                obtain ⟨hj, hres⟩ := hstored _ _ hlook
                refine ⟨hj, ?_⟩
                intro r hr
                rw [resolver_eq] at hr
                rw [← Option.some_inj.mp hr]
                exact hres
            | govern quiet => exact nomatch (Call.creation?_of_quiet quiet).symm.trans hc
            | read quiet => exact nomatch (Call.creation?_of_quiet quiet).symm.trans hc
            | _ => exact nomatch hc
        | reverted error => exact trivial
        | ledger grows => exact trivial

/-! ## Apart events are out of reach -/

/-- A live event kept apart does not change in a step that only its organizer signed. -/
theorem SoloStep.keeps {s s' : State} {l : Label own} {i : EventId} {e : Event}
    (h : SoloStep own e.admin s l s') (he : s.event.lookup i = some e)
    (hst : e.state = .inProgress) (hapart : Apart e) : s'.event.lookup i = some e := by
  obtain ⟨hstep, hsolo⟩ := h
  cases hstep with
  | @call _ env call ok =>
      have hmove := (exec_effect ok).eventMove i
      rw [he] at hmove
      generalize s'.event.lookup i = o at hmove
      cases hmove with
      | untouched h => rfl
      | release auth => exact absurd (hsolo _ auth) hapart.1
      | resolve auth => exact absurd (hsolo _ auth) hapart.2
      | compensate auth state_eq => exact nomatch hst.symm.trans state_eq
      | wait auth state_eq => exact nomatch hst.symm.trans state_eq
      | expire state_eq => exact absurd (hst ▸ state_eq) (by decide)
      | goLive auth state_eq => exact absurd (hst ▸ state_eq) (by decide)
      | cancel auth state_eq => exact absurd (hst ▸ state_eq) (by decide)
      | emergency auth resolver_auth pos state_eq => exact absurd (hst ▸ state_eq) (by decide)
  | reverted error => exact he
  | ledger grows => exact he

theorem Apart.outOfReach {s : State} {i : EventId} {e : Event} (hapart : Apart e)
    (he : s.event.lookup i = some e) (hst : e.state = .inProgress) : OutOfReach own s i e := by
  intro tr s' hr
  exact hr.invariant (I := fun s => s.event.lookup i = some e) he
    fun _ _ _ hI hstep => hstep.keeps hI hst hapart

/-! ## An organizer who judges or resolves is in the payout path -/

/-- An organizer of a reachable event is not the contract itself. -/
theorem Reachable.admin_ne_own {s : State} (h : Reachable own s) {i : EventId} {e : Event}
    (he : s.event.lookup i = some e) : e.admin ≠ own := by
  obtain ⟨b, tr, -, hr⟩ := h
  refine hr.invariant (I := fun s => ∀ i e, s.event.lookup i = some e → e.admin ≠ own)
    ?_ ?_ i e he
  · intro i e he
    exact nomatch he
  · intro s l s' hI hstep i e' he'
    cases he : s.event.lookup i with
    | some e =>
        obtain ⟨e'', hlook, hfollows⟩ := hstep.follows he
        rw [he'] at hlook
        obtain rfl := Option.some_inj.mp hlook
        rw [hfollows.1.1]
        exact hI i e he
    | none =>
        cases hstep with
        | @call _ env call ok =>
            have hmove := (exec_effect ok).eventMove i
            rw [he, he'] at hmove
            cases hmove with
            | create call_eq id_eq auth resolver_eq =>
                intro heq
                exact env.noSelfAuth (heq ▸ auth)
        | reverted error => exact absurd he' (by rw [he]; exact nofun)
        | ledger grows =>
            rw [State.setBalances_event, he] at he'
            exact nomatch he'

/-- A call by the organizer alone, at some time, on a token that delivers. -/
def soloEnv (own a : Address) (h : a ≠ own) (timestamp : UInt64) : Env own where
  timestamp := timestamp
  auths := [a]
  noSelfAuth := fun hmem => h (List.mem_singleton.mp hmem).symm
  transferOk := fun _ _ _ _ _ => true

/-- A closed event is not the live event it was. -/
theorem not_outOfReach_of_step {s s' : State} {i : EventId} {e : Event} {env : Env own}
    {call : Call} (hok : exec env s call = .ok s') (hsolo : ∀ x ∈ env.auths, x = e.admin)
    (hst : e.state = .inProgress) {e' : Event} (he' : s'.event.lookup i = some e')
    (hended : e'.state = .ended) : ¬ OutOfReach own s i e := by
  intro hout
  have hrun : Run (SoloStep own e.admin) s [⟨s, .call env call, s'⟩] s' :=
    Run.single ⟨.call hok, hsolo⟩
  have hkept := hout _ _ hrun
  rw [he'] at hkept
  rw [Option.some_inj.mp hkept, hst] at hended
  exact nomatch hended

/-- An unpaused live event that names its organizer as judge or resolver is within the
organizer's reach. -/
theorem not_apart_not_outOfReach {s : State} (hs : Reachable own s) {i : EventId} {e : Event}
    (he : s.event.lookup i = some e) (hst : e.state = .inProgress)
    (hp : NotPaused s.gov e.admin) (hnot : ¬ Apart e) : ¬ OutOfReach own s i e := by
  have hne := hs.admin_ne_own he
  obtain ⟨winners, hv⟩ := exists_validSplit e.reward (hs.booked.reward_nonneg i e he) e.admin
  obtain ⟨d, hd⟩ := hs.liveHasDeadline i e he hst
  let env := soloEnv own e.admin hne d
  have hdel : Delivers env e.token (winnerPayments winners) := fun _ _ _ _ => rfl
  have hmem : e.admin ∈ env.auths := List.mem_singleton_self _
  have hsolo : ∀ x ∈ env.auths, x = e.admin := fun x hx => List.mem_singleton.mp hx
  by_cases hj : e.judge = e.admin
  · have hauth : e.judge ∈ env.auths := by
      rw [hj]
      exact hmem
    obtain ⟨s', hok⟩ := (releaseReward_exit hs he hst hp hauth hdel).mpr hv
    obtain ⟨-, e', he', -, -, -, -, -, rfl⟩ := releaseReward_eq_ok.mp hok
    have hlook : (s.event.insert i { e' with state := .ended }).lookup i = some _ :=
      AList.lookup_insert _
    exact not_outOfReach_of_step hok hsolo hst hlook rfl
  · have hres : e.resolver = e.admin := by
      by_contra hr
      exact hnot ⟨hj, hr⟩
    have hauth : e.resolver ∈ env.auths := by
      rw [hres]
      exact hmem
    obtain ⟨s', hok⟩ :=
      (resolveDispute_exit hs he hst hp hd hauth (UInt64.le_refl d) hdel).mpr hv
    obtain ⟨-, e', -, he', -, -, -, -, -, -, -, rfl⟩ := resolveDispute_eq_ok.mp hok
    have hlook : (s.event.insert i { e' with state := .ended }).lookup i = some _ :=
      AList.lookup_insert _
    exact not_outOfReach_of_step hok hsolo hst hlook rfl

/-! ## What the creations decide -/

/-- In every run whose creations all keep the organizer apart from judge and resolver, and
in no other, every stored event is apart; and a live event of the run's last state is out
of its organizer's reach when it is apart and, on an unpaused contract, only then. -/
theorem organizer_out_of_payout_path {b : Balances} {tr : List (Transition State (Label own))}
    {s : State} (hb : ∀ token, 0 ≤ b token own) (hr : EscrowRun own b tr s) :
    ((∀ t ∈ tr, NamesApart t) ↔ ∀ i e, s.event.lookup i = some e → Apart e) ∧
    ∀ i e, s.event.lookup i = some e → e.state = .inProgress →
      (Apart e → OutOfReach own s i e) ∧
      (NotPaused s.gov e.admin → OutOfReach own s i e → Apart e) := by
  refine ⟨hr.apart_iff, ?_⟩
  intro i e he hst
  refine ⟨fun hapart => hapart.outOfReach he hst, ?_⟩
  intro hp hout
  by_contra hnot
  exact not_apart_not_outOfReach ⟨b, tr, hb, hr⟩ he hst hp hnot hout

/-- The sample event keeps its organizer apart, and is out of its reach once live. -/
theorem organizer_out_of_payout_path_sample :
    OutOfReach Sample.escrow Sample.live 7 Sample.liveEvent := by
  have h := organizer_out_of_payout_path Sample.balances_nonneg (play_run Sample.play_live)
  exact (h.2 7 _ Sample.live_lookup rfl).1 (by decide)

/-- The sample event created with the organizer as its own judge, and taken live. -/
def Sample.selfJudgedScript : List (Env Sample.escrow × Call) :=
  [(Sample.env 1 [Sample.emergencyAdmin], .initializeEmergencyAdmin Sample.emergencyAdmin),
   (Sample.env 2 [Sample.emergencyAdmin],
     .initializeTreasury Sample.emergencyAdmin Sample.treasury),
   (Sample.env 3 [Sample.organizer],
     .depositFunds Sample.organizer Sample.token (.ofNat 1000)),
   (Sample.env 4 [Sample.organizer], .createEvent Sample.organizer Sample.organizer
     (some Sample.resolver) Sample.token (.ofNat 600) 7),
   (Sample.env 5 [Sample.organizer], .setEventInProgress Sample.organizer 7 100)]

def Sample.selfJudged : State :=
  okOf (play (genesis Sample.balances) Sample.selfJudgedScript) (by decide +kernel)

def Sample.selfJudgedEvent : Event := { Sample.liveEvent with judge := Sample.organizer }

theorem Sample.selfJudged_lookup :
    Sample.selfJudged.event.lookup 7 = some Sample.selfJudgedEvent := by decide +kernel

/-- Not every live event of a reachable state is out of its organizer's reach: the contract
accepts an organizer as its own judge, who then releases the reward to itself. -/
theorem organizer_in_payout_path :
    ¬ ∀ s, Reachable Sample.escrow s → ∀ i e, s.event.lookup i = some e →
      e.state = .inProgress → OutOfReach Sample.escrow s i e := by
  intro h
  have hreach : Reachable Sample.escrow Sample.selfJudged :=
    ⟨Sample.balances, _, Sample.balances_nonneg, play_run (okOf_eq _)⟩
  have hout := h _ hreach 7 _ Sample.selfJudged_lookup rfl
  -- the organizer alone releases the reward to itself
  have hvalid : ValidSplit [⟨1, .ofNat 600, Sample.organizer⟩] 600 :=
    ⟨by decide, by decide, by decide⟩
  obtain ⟨s', hok⟩ := (releaseReward_exit hreach Sample.selfJudged_lookup rfl
    (by decide +kernel) (show Sample.organizer ∈ (Sample.env 6 [Sample.organizer]).auths from
      List.mem_singleton_self _) (fun _ _ _ hle => decide_eq_true hle)).mpr hvalid
  obtain ⟨-, e, -, -, -, -, -, -, rfl⟩ := releaseReward_eq_ok.mp hok
  have hlook : (Sample.selfJudged.event.insert 7 { e with state := .ended }).lookup 7
      = some _ := AList.lookup_insert _
  have hsolo : ∀ x ∈ (Sample.env 6 [Sample.organizer]).auths,
      x = Sample.selfJudgedEvent.admin := fun x hx => List.mem_singleton.mp hx
  exact not_outOfReach_of_step hok hsolo rfl hlook rfl hout

end Escrow
