/-
# Who governs

What a governance call can do to the governance values, and what this means for whole runs.  The
first address to initialise the emergency admin governs the contract for good: every later change
carries its signature, and neither it nor the default resolver nor the treasury is ever replaced.
-/
import Astrea.EscrowFee

open Guard

namespace Escrow

variable {own : Address}

/-! ## One call -/

/-- What a governance call does to the governance values `g`, and what it publishes. -/
inductive GovernanceMove (env : Env own) (g : Governance) :
    Call → Governance → List ContractEvent → Prop
  | emergencyAdmin {a : Address} (auth : a ∈ env.auths) (unset : g.emergencyAdmin = none) :
      GovernanceMove env g (.initializeEmergencyAdmin a) { g with emergencyAdmin := some a } []
  | defaultResolver {caller a : Address} (auth : caller ∈ env.auths)
      (admin_eq : g.emergencyAdmin = some caller) (unset : g.defaultResolver = none) :
      GovernanceMove env g (.initializeDefaultResolver caller a)
        { g with defaultResolver := some a } []
  | paused {caller : Address} {p : Bool} (auth : caller ∈ env.auths)
      (admin_eq : g.emergencyAdmin = some caller) :
      GovernanceMove env g (.setPaused caller p) { g with paused := some p } [.contractPaused p]
  | adminPaused {caller a : Address} {p : Bool} (auth : caller ∈ env.auths)
      (admin_eq : g.emergencyAdmin = some caller) :
      GovernanceMove env g (.setAdminPaused caller a p)
        { g with adminPaused := g.adminPaused.insert a p } [.adminPaused a p]
  | tokenWhitelistEnabled {caller : Address} {p : Bool} (auth : caller ∈ env.auths)
      (admin_eq : g.emergencyAdmin = some caller) :
      GovernanceMove env g (.setTokenWhitelistEnabled caller p)
        { g with tokenWhitelistEnabled := some p } []
  | tokenAllowed {caller token : Address} {p : Bool} (auth : caller ∈ env.auths)
      (admin_eq : g.emergencyAdmin = some caller) :
      GovernanceMove env g (.setTokenAllowed caller token p)
        { g with allowedToken := g.allowedToken.insert token p } []
  | treasury {caller a : Address} (auth : caller ∈ env.auths)
      (admin_eq : g.emergencyAdmin = some caller) (unset : g.treasury = none) :
      GovernanceMove env g (.initializeTreasury caller a) { g with treasury := some a } []
  | feeBps {caller : Address} {bps : UInt32} (auth : caller ∈ env.auths)
      (admin_eq : g.emergencyAdmin = some caller) (within : bps ≤ maxFeeBps) :
      GovernanceMove env g (.setFeeBps caller bps) { g with feeBps := some bps } []

/-- The entry points that only read. -/
def Call.isRead : Call → Bool
  | .getBalance _ | .hasWallet _ | .quoteGoLiveFee _ | .getEventsByAdmin _
  | .getEventsByAdminPage _ _ _ | .getEventsByAdminCount _ | .getEvent _ | .getDefaultResolver
  | .isPaused | .isAdminPaused _ | .isTokenAllowed _ | .getTreasury | .getFeeBps => true
  | _ => false

/-- A successful call that moves no funds is a governance move or a read. -/
theorem exec_governance {env : Env own} {s s' : State} {call : Call}
    (h : exec env s call = .ok s') (hquiet : call.movesFunds = false) :
    (∃ g ns, GovernanceMove env s.gov call g ns ∧ s' = governed s g ns) ∨
      call.isRead = true ∧ s' = s := by
  cases call with
  | initializeEmergencyAdmin a =>
      obtain ⟨ha, hunset, rfl⟩ := initializeEmergencyAdmin_eq_ok.mp h
      exact .inl ⟨_, _, .emergencyAdmin ha hunset, setGov_eq_governed _ _⟩
  | initializeDefaultResolver caller a =>
      obtain ⟨⟨ha, hadmin⟩, hunset, rfl⟩ := initializeDefaultResolver_eq_ok.mp h
      exact .inl ⟨_, _, .defaultResolver ha hadmin hunset, setGov_eq_governed _ _⟩
  | setPaused caller p =>
      obtain ⟨⟨ha, hadmin⟩, rfl⟩ := setPaused_eq_ok.mp h
      exact .inl ⟨_, _, .paused ha hadmin, rfl⟩
  | setAdminPaused caller a p =>
      obtain ⟨⟨ha, hadmin⟩, rfl⟩ := setAdminPaused_eq_ok.mp h
      exact .inl ⟨_, _, .adminPaused ha hadmin, rfl⟩
  | setTokenWhitelistEnabled caller p =>
      obtain ⟨⟨ha, hadmin⟩, rfl⟩ := setTokenWhitelistEnabled_eq_ok.mp h
      exact .inl ⟨_, _, .tokenWhitelistEnabled ha hadmin, setGov_eq_governed _ _⟩
  | setTokenAllowed caller token p =>
      obtain ⟨⟨ha, hadmin⟩, rfl⟩ := setTokenAllowed_eq_ok.mp h
      exact .inl ⟨_, _, .tokenAllowed ha hadmin, setGov_eq_governed _ _⟩
  | initializeTreasury caller a =>
      obtain ⟨⟨ha, hadmin⟩, hunset, rfl⟩ := initializeTreasury_eq_ok.mp h
      exact .inl ⟨_, _, .treasury ha hadmin hunset, setGov_eq_governed _ _⟩
  | setFeeBps caller bps =>
      obtain ⟨⟨ha, hadmin⟩, hle, rfl⟩ := setFeeBps_eq_ok.mp h
      exact .inl ⟨_, _, .feeBps ha hadmin hle, setGov_eq_governed _ _⟩
  | depositFunds | withdrawFunds | createEvent | createEventWithDeadline | expireEvent
  | setEventWaitingForStart | setEventInProgress | setEventCancelled | emergencyWithdraw
  | releaseCompensation | releaseReward | resolveDispute => exact nomatch hquiet
  | _ => exact .inr ⟨rfl, readOnly_eq_ok h⟩

namespace GovernanceMove

variable {env : Env own} {g g' : Governance} {call : Call} {ns : List ContractEvent}

/-- The governance values change by the signature of the recorded emergency admin, or of the
address that becomes it. -/
theorem signed (h : GovernanceMove env g call g' ns) :
    (∃ a, call = .initializeEmergencyAdmin a ∧ a ∈ env.auths ∧ g.emergencyAdmin = none) ∨
      ∃ a, g.emergencyAdmin = some a ∧ a ∈ env.auths := by
  cases h with
  | emergencyAdmin auth unset => exact .inl ⟨_, rfl, auth, unset⟩
  | defaultResolver auth admin_eq => exact .inr ⟨_, admin_eq, auth⟩
  | paused auth admin_eq => exact .inr ⟨_, admin_eq, auth⟩
  | adminPaused auth admin_eq => exact .inr ⟨_, admin_eq, auth⟩
  | tokenWhitelistEnabled auth admin_eq => exact .inr ⟨_, admin_eq, auth⟩
  | tokenAllowed auth admin_eq => exact .inr ⟨_, admin_eq, auth⟩
  | treasury auth admin_eq => exact .inr ⟨_, admin_eq, auth⟩
  | feeBps auth admin_eq => exact .inr ⟨_, admin_eq, auth⟩

end GovernanceMove

/-! ## What is set stays -/

/-- The values that are initialised once: where `g` has one, `g'` has the same. -/
structure KeepsSingletons (g g' : Governance) : Prop where
  emergencyAdmin : ∀ a, g.emergencyAdmin = some a → g'.emergencyAdmin = some a
  defaultResolver : ∀ a, g.defaultResolver = some a → g'.defaultResolver = some a
  treasury : ∀ a, g.treasury = some a → g'.treasury = some a

theorem KeepsSingletons.refl (g : Governance) : KeepsSingletons g g :=
  ⟨fun _ h => h, fun _ h => h, fun _ h => h⟩

theorem KeepsSingletons.trans {g₁ g₂ g₃ : Governance} (h : KeepsSingletons g₁ g₂)
    (h' : KeepsSingletons g₂ g₃) : KeepsSingletons g₁ g₃ where
  emergencyAdmin a ha := h'.emergencyAdmin a (h.emergencyAdmin a ha)
  defaultResolver a ha := h'.defaultResolver a (h.defaultResolver a ha)
  treasury a ha := h'.treasury a (h.treasury a ha)

theorem GovernanceMove.keepsSingletons {env : Env own} {g g' : Governance} {call : Call}
    {ns : List ContractEvent} (h : GovernanceMove env g call g' ns) : KeepsSingletons g g' := by
  -- a value that was not set cannot be lost
  have hunset : ∀ {o : Option Address} {a b : Address}, o = none → o = some a → some b = some a :=
    fun hnone ha => absurd (hnone.symm.trans ha) (Option.some_ne_none _).symm
  cases h with
  | emergencyAdmin auth unset => exact ⟨fun _ => hunset unset, fun _ h => h, fun _ h => h⟩
  | defaultResolver auth admin_eq unset => exact ⟨fun _ h => h, fun _ => hunset unset, fun _ h => h⟩
  | treasury auth admin_eq unset => exact ⟨fun _ h => h, fun _ h => h, fun _ => hunset unset⟩
  | _ => exact ⟨fun _ h => h, fun _ h => h, fun _ h => h⟩

/-! ## Runs -/

/-- What a step does to the governance values. -/
theorem Step.governance {s s' : State} {l : Label own} (h : Step own s l s') :
    s'.gov = s.gov ∨ ∃ env call g ns, l = .call env call ∧ GovernanceMove env s.gov call g ns ∧
      s' = governed s g ns := by
  cases h with
  | @call _ env call ok =>
      cases hfunds : call.movesFunds with
      | true => exact .inl ((exec_effect ok).gov_eq hfunds)
      | false =>
          rcases exec_governance ok hfunds with ⟨g, ns, hmove, rfl⟩ | ⟨-, rfl⟩
          · exact .inr ⟨env, call, g, ns, rfl, hmove, rfl⟩
          · exact .inl rfl
  | reverted _ => exact .inl rfl
  | ledger _ => exact .inl rfl

theorem Step.keepsSingletons {s s' : State} {l : Label own} (h : Step own s l s') :
    KeepsSingletons s.gov s'.gov := by
  rcases h.governance with heq | ⟨env, call, g, ns, -, hmove, rfl⟩
  · rw [heq]
    exact .refl _
  · exact hmove.keepsSingletons

theorem keepsSingletons_of_run {s s' : State} {tr : List (Transition State (Label own))}
    (hr : Run (Step own) s tr s') : KeepsSingletons s.gov s'.gov :=
  hr.invariant (I := fun t => KeepsSingletons s.gov t.gov) (.refl _)
    fun _ _ _ hI hstep => hI.trans hstep.keepsSingletons

/-- Nothing is governed before there is an emergency admin. -/
def Unfounded (s : State) : Prop := s.gov.emergencyAdmin = none → s.gov = freshGovernance

theorem Step.unfounded {s s' : State} {l : Label own} (h : Step own s l s') (hs : Unfounded s) :
    Unfounded s' := by
  intro hnone
  rcases h.governance with heq | ⟨env, call, g, ns, -, hmove, rfl⟩
  · rw [heq] at hnone ⊢
    exact hs hnone
  · rcases hmove.signed with ⟨a, rfl, -, -⟩ | ⟨a, ha, -⟩
    · cases hmove
      cases hnone
    · exact absurd (hnone.symm.trans (hmove.keepsSingletons.emergencyAdmin a ha))
        (Option.some_ne_none a).symm

/-- The transition is a successful initialisation of the emergency admin. -/
def founds (t : Transition State (Label own)) : Option Address :=
  match t.label with
  | .call _ (.initializeEmergencyAdmin a) => some a
  | _ => none

/-- An initialisation finds no emergency admin and leaves its own. -/
theorem Step.founds {s s' : State} {l : Label own} (h : Step own s l s') {a : Address}
    (ha : founds ⟨s, l, s'⟩ = some a) :
    s.gov.emergencyAdmin = none ∧ s'.gov.emergencyAdmin = some a := by
  cases h with
  | @call _ env call ok =>
      cases call with
      | initializeEmergencyAdmin a' =>
          obtain rfl := Option.some_inj.mp ha
          obtain ⟨-, hunset, rfl⟩ := initializeEmergencyAdmin_eq_ok.mp ok
          exact ⟨hunset, rfl⟩
      | _ => cases ha
  | reverted _ => cases ha
  | ledger _ => cases ha

/-- The emergency admin comes from an initialisation. -/
theorem Step.founded {s s' : State} {l : Label own} (h : Step own s l s') {a : Address}
    (ha : s'.gov.emergencyAdmin = some a) :
    s.gov.emergencyAdmin = some a ∨ Escrow.founds ⟨s, l, s'⟩ = some a := by
  rcases h.governance with heq | ⟨env, call, g, ns, rfl, hmove, rfl⟩
  · rw [heq] at ha
    exact .inl ha
  · rcases hmove.signed with ⟨a', rfl, -, -⟩ | ⟨a', ha', -⟩
    · cases hmove
      exact .inr ha
    · left
      rw [ha', ← ha]
      exact (hmove.keepsSingletons.emergencyAdmin a' ha').symm

/-- The change carries the signature of the recorded emergency admin; the first one, on a contract
where nothing is governed, that of the address that becomes it.  Only a governance call makes it. -/
def SignedChange (t : Transition State (Label own)) : Prop :=
  ∃ env call g ns, t.label = .call env call ∧ GovernanceMove env t.pre.gov call g ns ∧
    t.post = governed t.pre g ns ∧
    ((∃ a, founds t = some a ∧ a ∈ env.auths ∧ t.pre.gov = freshGovernance) ∨
      ∃ a, t.pre.gov.emergencyAdmin = some a ∧ a ∈ env.auths)

/-- Along every run from the deployment: each change of a governance value is a governance call
signed by the recorded emergency admin; the emergency admin is the one that some call initialised,
no second initialisation succeeds, and it, the default resolver and the treasury stay what they
were first set to; and the fee rate stays within its ceiling. -/
theorem governance_authority {b : Balances} {tr : List (Transition State (Label own))} {s : State}
    (hr : EscrowRun own b tr s) :
    (∀ t ∈ tr, t.post.gov ≠ t.pre.gov → SignedChange t) ∧
    (∀ a, s.gov.emergencyAdmin = some a ↔ ∃ t ∈ tr, founds t = some a) ∧
    tr.countP (fun t => (founds t).isSome) ≤ 1 ∧
    (∀ t ∈ tr, KeepsSingletons t.post.gov s.gov) ∧
    getFeeBps s.gov ≤ maxFeeBps := by
  have hfresh : Unfounded (genesis b) := fun _ => rfl
  have hsteps := hr.forall_mem hfresh fun _ _ _ hI hstep => hstep.unfounded hI
  have hlater : ∀ t ∈ tr, KeepsSingletons t.post.gov s.gov := by
    intro t ht
    obtain ⟨before, after, rfl⟩ := List.mem_iff_append.mp ht
    exact keepsSingletons_of_run hr.split.2.2
  refine ⟨?_, ?_, ?_, hlater, hr.feeBps_le⟩
  · intro t ht hchanged
    obtain ⟨hunfounded, hstep⟩ := hsteps t ht
    rcases hstep.governance with heq | ⟨env, call, g, ns, hlabel, hmove, hpost⟩
    · exact absurd heq hchanged
    · refine ⟨env, call, g, ns, hlabel, hmove, hpost, ?_⟩
      rcases hmove.signed with ⟨a, rfl, hauth, hnone⟩ | hadmin
      · refine .inl ⟨a, ?_, hauth, hunfounded hnone⟩
        rw [founds, hlabel]
      · exact .inr hadmin
  · intro a
    constructor
    · refine hr.history (H := fun tr s => s.gov.emergencyAdmin = some a →
        ∃ t ∈ tr, founds t = some a) (fun ha => by cases ha) ?_
      intro tr s l s' _ ih hstep ha
      rcases hstep.founded ha with hbefore | hnow
      · obtain ⟨t, ht, hfounds⟩ := ih hbefore
        exact ⟨t, List.mem_append_left _ ht, hfounds⟩
      · exact ⟨_, List.mem_append_right _ (List.mem_singleton_self _), hnow⟩
    · rintro ⟨t, ht, hfounds⟩
      exact (hlater t ht).emergencyAdmin a ((hsteps t ht).2.founds hfounds).2
  · refine hr.crosses_once (fun s => if s.gov.emergencyAdmin.isSome then 1 else 0) 0 ?_ ?_
    · intro s l s' hstep
      cases ha : s.gov.emergencyAdmin with
      | none => exact Nat.zero_le _
      | some a => rw [hstep.keepsSingletons.emergencyAdmin a ha]
    · intro s l s' hstep hP
      obtain ⟨a, ha⟩ := Option.isSome_iff_exists.mp hP
      obtain ⟨hbefore, hafter⟩ := hstep.founds ha
      rw [hbefore, hafter]
      exact ⟨le_refl 0, Nat.one_pos⟩

/-- The sample contract is governed by the address that initialised it. -/
theorem governance_authority_live : ∃ tr, EscrowRun Sample.escrow Sample.balances tr Sample.live ∧
    ∃ t ∈ tr, founds t = some Sample.emergencyAdmin := by
  have hrun := play_run Sample.play_live
  exact ⟨_, hrun, ((governance_authority hrun).2.1 _).mp (by decide +kernel)⟩

end Escrow
