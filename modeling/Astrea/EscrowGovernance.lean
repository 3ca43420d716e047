/-
# Governance

The values the emergency admin controls: the pause switches, the token whitelist,
the default resolver, the treasury and the go-live fee rate.  Nothing here touches an
event, a wallet or a token balance.
-/
import Astrea.EscrowAccess

open Guard

namespace Escrow

variable {own : Address}

def initializeEmergencyAdmin (env : Env own) (s : State) (emergencyAdmin : Address) :
    Except Trap State := do
  requireAuth env emergencyAdmin
  ensure (s.gov.emergencyAdmin = none) (.panicked "Emergency admin already initialized")
  return s.setGov { s.gov with emergencyAdmin := some emergencyAdmin }

/-- The two checks every other governance entry point starts with. -/
def requireEmergencyAdmin (env : Env own) (s : State) (caller : Address) :
    Except Trap Unit := do
  requireAuth env caller
  assertIsEmergencyAdmin s.gov caller

def initializeDefaultResolver (env : Env own) (s : State) (caller defaultResolver : Address) :
    Except Trap State := do
  requireEmergencyAdmin env s caller
  ensure (s.gov.defaultResolver = none) (.panicked "Default resolver already initialized")
  return s.setGov { s.gov with defaultResolver := some defaultResolver }

def setPaused (env : Env own) (s : State) (caller : Address) (paused : Bool) :
    Except Trap State := do
  requireEmergencyAdmin env s caller
  return (s.setGov { s.gov with paused := some paused }).publish (.contractPaused paused)

def setAdminPaused (env : Env own) (s : State) (caller targetAdmin : Address) (paused : Bool) :
    Except Trap State := do
  requireEmergencyAdmin env s caller
  let s := s.setGov { s.gov with adminPaused := s.gov.adminPaused.insert targetAdmin paused }
  return s.publish (.adminPaused targetAdmin paused)

def setTokenWhitelistEnabled (env : Env own) (s : State) (caller : Address) (enabled : Bool) :
    Except Trap State := do
  requireEmergencyAdmin env s caller
  return s.setGov { s.gov with tokenWhitelistEnabled := some enabled }

def setTokenAllowed (env : Env own) (s : State) (caller token : Address) (allowed : Bool) :
    Except Trap State := do
  requireEmergencyAdmin env s caller
  return s.setGov { s.gov with allowedToken := s.gov.allowedToken.insert token allowed }

def initializeTreasury (env : Env own) (s : State) (caller treasury : Address) :
    Except Trap State := do
  requireEmergencyAdmin env s caller
  ensure (s.gov.treasury = none) (.panicked "Treasury already initialized")
  return s.setGov { s.gov with treasury := some treasury }

def setFeeBps (env : Env own) (s : State) (caller : Address) (feeBps : UInt32) :
    Except Trap State := do
  requireEmergencyAdmin env s caller
  ensure (feeBps ≤ maxFeeBps) (.panicked "Fee exceeds the maximum allowed")
  return s.setGov { s.gov with feeBps := some feeBps }

def isPaused (s : State) : Bool := s.gov.paused.getD false

def isAdminPaused (s : State) (admin : Address) : Bool :=
  (s.gov.adminPaused.lookup admin).getD false

/-! ## What a governance call writes -/

/-- The state after a governance call: new governance values and at most a
notification. -/
def governed (s : State) (g : Governance) (ns : List ContractEvent) : State :=
  { s.setGov g with published := s.published ++ ns }

@[simp] theorem governed_wallet (s : State) (g : Governance) (ns : List ContractEvent) :
    (governed s g ns).wallet = s.wallet := rfl

@[simp] theorem governed_event (s : State) (g : Governance) (ns : List ContractEvent) :
    (governed s g ns).event = s.event := rfl

@[simp] theorem governed_balances (s : State) (g : Governance) (ns : List ContractEvent) :
    (governed s g ns).balances = s.balances := rfl

/-- Governance that changes without a notification. -/
theorem setGov_eq_governed (s : State) (g : Governance) : s.setGov g = governed s g [] := by
  simp only [governed, List.append_nil, State.setGov]

/-- The caller signs and is the stored emergency admin. -/
theorem requireEmergencyAdmin_eq_ok {env : Env own} {s : State} {caller : Address} {u : Unit} :
    requireEmergencyAdmin env s caller = .ok u ↔
      caller ∈ env.auths ∧ s.gov.emergencyAdmin = some caller := by
  simp only [requireEmergencyAdmin, bind_eq_ok, requireAuth_eq_ok, exists_const,
    assertIsEmergencyAdmin_eq_ok]

/-- The first to sign for it becomes the emergency admin, once. -/
theorem initializeEmergencyAdmin_eq_ok {env : Env own} {s s' : State} {a : Address} :
    initializeEmergencyAdmin env s a = .ok s' ↔
      a ∈ env.auths ∧ s.gov.emergencyAdmin = none ∧
        s.setGov { s.gov with emergencyAdmin := some a } = s' := by
  simp only [initializeEmergencyAdmin, bind_eq_ok, requireAuth_eq_ok, ensure_eq_ok,
    exists_const, pure_eq_ok]

/-- The default resolver is set once, by the emergency admin. -/
theorem initializeDefaultResolver_eq_ok {env : Env own} {s s' : State} {caller a : Address} :
    initializeDefaultResolver env s caller a = .ok s' ↔
      (caller ∈ env.auths ∧ s.gov.emergencyAdmin = some caller) ∧
        s.gov.defaultResolver = none ∧
        s.setGov { s.gov with defaultResolver := some a } = s' := by
  simp only [initializeDefaultResolver, bind_eq_ok, requireEmergencyAdmin_eq_ok, ensure_eq_ok,
    exists_const, pure_eq_ok]

theorem setPaused_eq_ok {env : Env own} {s s' : State} {caller : Address} {p : Bool} :
    setPaused env s caller p = .ok s' ↔
      (caller ∈ env.auths ∧ s.gov.emergencyAdmin = some caller) ∧
        (s.setGov { s.gov with paused := some p }).publish (.contractPaused p) = s' := by
  simp only [setPaused, bind_eq_ok, requireEmergencyAdmin_eq_ok, exists_const, pure_eq_ok]

theorem setAdminPaused_eq_ok {env : Env own} {s s' : State} {caller a : Address} {p : Bool} :
    setAdminPaused env s caller a p = .ok s' ↔
      (caller ∈ env.auths ∧ s.gov.emergencyAdmin = some caller) ∧
        (s.setGov { s.gov with adminPaused := s.gov.adminPaused.insert a p }).publish
          (.adminPaused a p) = s' := by
  simp only [setAdminPaused, bind_eq_ok, requireEmergencyAdmin_eq_ok, exists_const, pure_eq_ok]

theorem setTokenWhitelistEnabled_eq_ok {env : Env own} {s s' : State} {caller : Address}
    {p : Bool} :
    setTokenWhitelistEnabled env s caller p = .ok s' ↔
      (caller ∈ env.auths ∧ s.gov.emergencyAdmin = some caller) ∧
        s.setGov { s.gov with tokenWhitelistEnabled := some p } = s' := by
  simp only [setTokenWhitelistEnabled, bind_eq_ok, requireEmergencyAdmin_eq_ok, exists_const,
    pure_eq_ok]

theorem setTokenAllowed_eq_ok {env : Env own} {s s' : State} {caller a : Address} {p : Bool} :
    setTokenAllowed env s caller a p = .ok s' ↔
      (caller ∈ env.auths ∧ s.gov.emergencyAdmin = some caller) ∧
        s.setGov { s.gov with allowedToken := s.gov.allowedToken.insert a p } = s' := by
  simp only [setTokenAllowed, bind_eq_ok, requireEmergencyAdmin_eq_ok, exists_const, pure_eq_ok]

/-- The treasury is set once, by the emergency admin. -/
theorem initializeTreasury_eq_ok {env : Env own} {s s' : State} {caller a : Address} :
    initializeTreasury env s caller a = .ok s' ↔
      (caller ∈ env.auths ∧ s.gov.emergencyAdmin = some caller) ∧ s.gov.treasury = none ∧
        s.setGov { s.gov with treasury := some a } = s' := by
  simp only [initializeTreasury, bind_eq_ok, requireEmergencyAdmin_eq_ok, ensure_eq_ok,
    exists_const, pure_eq_ok]

/-- The rate stays within its cap. -/
theorem setFeeBps_eq_ok {env : Env own} {s s' : State} {caller : Address} {bps : UInt32} :
    setFeeBps env s caller bps = .ok s' ↔
      (caller ∈ env.auths ∧ s.gov.emergencyAdmin = some caller) ∧ bps ≤ maxFeeBps ∧
        s.setGov { s.gov with feeBps := some bps } = s' := by
  simp only [setFeeBps, bind_eq_ok, requireEmergencyAdmin_eq_ok, ensure_eq_ok, exists_const,
    pure_eq_ok]

end Escrow
