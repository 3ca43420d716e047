/-
# Whose signature a call needs

Every entry point asks for its signatures before anything else.  So what a call does depends on who
signed through the addresses it names for this alone: without one of them it traps at once, and
with all of them other signatures make no difference.
-/
import Astrea.EscrowContract

open Guard

namespace Escrow

variable {own : Address}

/-! ## The signers -/

/-- The addresses whose authorisation a call asks for, in the order it does. -/
def Call.signers : Call → List Address
  | .depositFunds admin _ _ | .withdrawFunds admin _ | .createEvent admin _ _ _ _ _
  | .createEventWithDeadline admin _ _ _ _ _ _ | .setEventWaitingForStart admin _
  | .setEventInProgress admin _ _ | .setEventCancelled admin _ | .releaseCompensation admin _ _ =>
      [admin]
  | .emergencyWithdraw admin resolver _ _ => [admin, resolver]
  | .releaseReward judge _ _ => [judge]
  | .resolveDispute resolver _ _ => [resolver]
  | .initializeEmergencyAdmin emergencyAdmin => [emergencyAdmin]
  | .initializeDefaultResolver caller _ | .setPaused caller _ | .setAdminPaused caller _ _
  | .setTokenWhitelistEnabled caller _ | .setTokenAllowed caller _ _
  | .initializeTreasury caller _ | .setFeeBps caller _ => [caller]
  | .expireEvent _ | .getBalance _ | .hasWallet _ | .quoteGoLiveFee _ | .getEventsByAdmin _
  | .getEventsByAdminPage _ _ _ | .getEventsByAdminCount _ | .getEvent _ | .getDefaultResolver
  | .isPaused | .isAdminPaused _ | .isTokenAllowed _ | .getTreasury | .getFeeBps => []

/-- What its first signer has, every signer of a call has, unless it is an emergency withdrawal. -/
theorem Call.forall_signers {call : Call} {p : Address → Prop} {first : Address}
    (hone : ¬ ∃ admin resolver i n, call = .emergencyWithdraw admin resolver i n)
    (hhead : call.signers.head? = some first) (hfirst : p first) : ∀ a ∈ call.signers, p a := by
  intro a ha
  cases call with
  | emergencyWithdraw admin resolver i n => exact absurd ⟨admin, resolver, i, n, rfl⟩ hone
  | expireEvent | getBalance | hasWallet | quoteGoLiveFee | getEventsByAdmin
  | getEventsByAdminPage | getEventsByAdminCount | getEvent | getDefaultResolver | isPaused
  | isAdminPaused | isTokenAllowed | getTreasury | getFeeBps => cases hhead
  | _ =>
      obtain rfl := Option.some_inj.mp hhead
      rw [List.mem_singleton.mp ha]
      exact hfirst

/-- The same ledger, with these signatures. -/
def Env.signedBy (env : Env own) (as : List Address) (h : own ∉ as) : Env own :=
  { env with auths := as, noSelfAuth := h }

theorem requireAuth_of_mem {env : Env own} {a : Address} (h : a ∈ env.auths) :
    requireAuth env a = .ok () := requireAuth_eq_ok.mpr h

/-- The loop of the payouts does not look at the signatures. -/
theorem payAll_signedBy {env : Env own} {as : List Address} {h : own ∉ as} {token : Address}
    {ps : List (Address × I128)} {s : State} :
    payAll (env.signedBy as h) s token ps = payAll env s token ps := by
  induction ps generalizing s with
  | nil => rfl
  | cons p ps ih =>
      rw [payAll, payAll]
      exact congrArg _ (funext fun _ => ih)

/-- The computation asks for the signature of `a` and then goes on. -/
def AsksFirst {α : Type} (env : Env own) (a : Address) (x : Except Trap α) : Prop :=
  ∃ k : Except Trap α, x = do requireAuth env a; k

theorem AsksFirst.unauthorized {α : Type} {env : Env own} {a : Address} {x : Except Trap α}
    (h : AsksFirst env a x) (ha : a ∉ env.auths) : x = .error (.unauthorized a) := by
  obtain ⟨k, rfl⟩ := h
  have hno : requireAuth env a = .error (.unauthorized a) := if_neg ha
  rw [hno]
  rfl

theorem AsksFirst.bind {α β : Type} {env : Env own} {a : Address} {x : Except Trap α}
    {f : α → Except Trap β} (h : AsksFirst env a x) : AsksFirst env a (x >>= f) := by
  obtain ⟨k, rfl⟩ := h
  exact ⟨k >>= f, bind_assoc ..⟩

/-! ## What the signatures decide -/

/-- A call asks for its first signature before anything else. -/
theorem exec_asksFirst {env : Env own} {s : State} {call : Call} {a : Address}
    (ha : call.signers.head? = some a) : AsksFirst env a (exec env s call) := by
  cases call with
  | createEvent | createEventWithDeadline | initializeDefaultResolver | setPaused | setAdminPaused
  | setTokenWhitelistEnabled | setTokenAllowed | initializeTreasury | setFeeBps =>
      cases ha
      exact .bind ⟨_, rfl⟩
  | expireEvent | getBalance | hasWallet | quoteGoLiveFee | getEventsByAdmin
  | getEventsByAdminPage | getEventsByAdminCount | getEvent | getDefaultResolver | isPaused
  | isAdminPaused | isTokenAllowed | getTreasury | getFeeBps => cases ha
  | _ =>
      cases ha
      exact ⟨_, rfl⟩

/-- A call without one of its signatures traps, and says whose is missing. -/
theorem exec_unauthorized {env : Env own} {s : State} {call : Call}
    (hmiss : ∃ a ∈ call.signers, a ∉ env.auths) :
    ∃ a ∈ call.signers, a ∉ env.auths ∧ exec env s call = .error (.unauthorized a) := by
  obtain ⟨a, ha, hno⟩ := hmiss
  cases hhead : call.signers.head? with
  | none =>
      rw [List.head?_eq_none_iff.mp hhead] at ha
      exact absurd ha List.not_mem_nil
  | some first =>
      have hfirst : first ∈ call.signers := List.mem_of_head? hhead
      by_cases hin : first ∈ env.auths
      · by_cases hem : ∃ admin resolver i n, call = .emergencyWithdraw admin resolver i n
        · -- the one call that asks for a second signature, and it does so next
          obtain ⟨admin, resolver, i, n, rfl⟩ := hem
          obtain rfl := Option.some_inj.mp hhead
          obtain rfl : a = resolver :=
            (List.mem_pair.mp ha).resolve_left fun heq => hno (heq ▸ hin)
          refine ⟨a, ha, hno, ?_⟩
          have hsecond : AsksFirst env a (exec env s (.emergencyWithdraw admin a i n)) := by
            simp only [exec, emergencyWithdraw, requireAuth_of_mem hin]
            exact ⟨_, rfl⟩
          exact hsecond.unauthorized hno
        · exact absurd (Call.forall_signers hem hhead hin a ha) hno
      · exact ⟨first, hfirst, hin, (exec_asksFirst hhead).unauthorized hin⟩

/-- With all the signatures it asks for, a call does what it does with any others beside them. -/
theorem exec_signedBy {env : Env own} {s : State} {call : Call} {as : List Address} {h : own ∉ as}
    (hall : ∀ a ∈ call.signers, a ∈ env.auths) (hall' : ∀ a ∈ call.signers, a ∈ as) :
    exec (env.signedBy as h) s call = exec env s call := by
  have hauth : ∀ a ∈ call.signers, requireAuth env a = requireAuth (env.signedBy as h) a :=
    fun a ha => (requireAuth_of_mem (hall a ha)).trans
      (requireAuth_eq_ok.mpr (hall' a ha)).symm
  have hgov : ∀ a ∈ call.signers,
      requireEmergencyAdmin env s a = requireEmergencyAdmin (env.signedBy as h) s a := fun a ha => by
    rw [requireEmergencyAdmin, requireEmergencyAdmin, hauth a ha]
  cases call with
  | depositFunds admin token amount =>
      simp only [exec, depositFunds, hauth admin (List.mem_singleton_self _)]
      rfl
  | withdrawFunds admin amount =>
      simp only [exec, withdrawFunds, hauth admin (List.mem_singleton_self _)]
      rfl
  | createEvent admin =>
      simp only [exec, createEvent, createEventInternal, hauth admin (List.mem_singleton_self _)]
      rfl
  | createEventWithDeadline admin =>
      simp only [exec, createEventWithDeadline, createEventInternal,
        hauth admin (List.mem_singleton_self _)]
      rfl
  | setEventWaitingForStart admin =>
      simp only [exec, setEventWaitingForStart, hauth admin (List.mem_singleton_self _)]
  | setEventInProgress admin =>
      simp only [exec, setEventInProgress, hauth admin (List.mem_singleton_self _)]
      rfl
  | setEventCancelled admin =>
      simp only [exec, setEventCancelled, hauth admin (List.mem_singleton_self _)]
  | emergencyWithdraw admin resolver =>
      simp only [exec, emergencyWithdraw, hauth admin List.mem_cons_self,
        hauth resolver (List.mem_cons_of_mem _ (List.mem_singleton_self _))]
  | releaseCompensation admin =>
      simp only [exec, releaseCompensation, hauth admin (List.mem_singleton_self _),
        payAll_signedBy]
  | releaseReward judge =>
      simp only [exec, releaseReward, transferToWinners, hauth judge (List.mem_singleton_self _),
        payAll_signedBy]
  | resolveDispute resolver =>
      simp only [exec, resolveDispute, transferToWinners,
        hauth resolver (List.mem_singleton_self _), payAll_signedBy]
      rfl
  | initializeEmergencyAdmin a =>
      simp only [exec, initializeEmergencyAdmin, hauth a (List.mem_singleton_self _)]
  | initializeDefaultResolver caller =>
      simp only [exec, initializeDefaultResolver, hgov caller (List.mem_singleton_self _)]
  | setPaused caller => simp only [exec, setPaused, hgov caller (List.mem_singleton_self _)]
  | setAdminPaused caller =>
      simp only [exec, setAdminPaused, hgov caller (List.mem_singleton_self _)]
  | setTokenWhitelistEnabled caller =>
      simp only [exec, setTokenWhitelistEnabled, hgov caller (List.mem_singleton_self _)]
  | setTokenAllowed caller =>
      simp only [exec, setTokenAllowed, hgov caller (List.mem_singleton_self _)]
  | initializeTreasury caller =>
      simp only [exec, initializeTreasury, hgov caller (List.mem_singleton_self _)]
  | setFeeBps caller => simp only [exec, setFeeBps, hgov caller (List.mem_singleton_self _)]
  | _ => rfl

/-- Who signed decides about a call through its signers: without one of them it traps and says
whose signature is missing, and with all of them it does what it does with any others besides. -/
def SignersDecide (call : Call) : Prop :=
  ∀ (own : Address) (env : Env own) (s : State),
    ((∃ a ∈ call.signers, a ∉ env.auths) →
      ∃ a ∈ call.signers, a ∉ env.auths ∧ exec env s call = .error (.unauthorized a)) ∧
    ∀ (as : List Address) (h : own ∉ as), (∀ a ∈ call.signers, a ∈ env.auths) →
      (∀ a ∈ call.signers, a ∈ as) → exec (env.signedBy as h) s call = exec env s call

theorem Call.signersDecide (call : Call) : SignersDecide call :=
  fun _ _ _ => ⟨exec_unauthorized, fun _ _ => exec_signedBy⟩

end Escrow
