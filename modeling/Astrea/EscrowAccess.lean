/-
# Guards and token transfers

The checks shared by every entry point of the escrow contract (authorisation, the
pause switch, the emergency admin, the token whitelist) and the token client.  A
token is a SEP-41 token: a transfer moves exactly the amount or fails, and never
calls back into the contract.
-/
import Astrea.EscrowTypes
import Astrea.Guard

open Guard

namespace Escrow

variable {own : Address}

/-! ## Guards -/

/-- `address.require_auth()`. -/
def requireAuth (env : Env own) (address : Address) : Except Trap Unit :=
  ensure (address ∈ env.auths) (.unauthorized address)

/-- Neither the contract nor this organizer is paused. -/
def NotPaused (g : Governance) (admin : Address) : Prop :=
  g.paused.getD false = false ∧ (g.adminPaused.lookup admin).getD false = false

instance (g : Governance) (admin : Address) : Decidable (NotPaused g admin) :=
  inferInstanceAs (Decidable (_ ∧ _))

def assertNotPaused (g : Governance) (admin : Address) : Except Trap Unit := do
  let globallyPaused := g.paused.getD false
  ensure (globallyPaused = false) (.panicked "Contract is paused")
  let adminPaused := (g.adminPaused.lookup admin).getD false
  ensure (adminPaused = false) (.panicked "This admin's operations are paused")

def assertIsEmergencyAdmin (g : Governance) (caller : Address) : Except Trap Unit := do
  let emergencyAdmin ← expect g.emergencyAdmin (.panicked "Emergency admin not initialized")
  ensure (emergencyAdmin = caller)
    (.panicked "Only the emergency admin can perform this action")

def getDefaultResolver (g : Governance) : Except Trap Address :=
  expect g.defaultResolver (.panicked "Default resolver not initialized")

/-- The whitelist is off by default: any token passes until it is enabled. -/
def isTokenAllowed (g : Governance) (token : Address) : Bool :=
  let enabled := g.tokenWhitelistEnabled.getD false
  if enabled = false then true else (g.allowedToken.lookup token).getD false

def assertTokenAllowed (g : Governance) (token : Address) : Except Trap Unit :=
  ensure (isTokenAllowed g token = true) (.panicked "Token is not allowed")

def getTreasury (g : Governance) : Except Trap Address :=
  expect g.treasury (.panicked "Treasury not initialized")

/-- The hard ceiling of the go-live fee rate. -/
def maxFeeBps : UInt32 := 500

/-- The go-live fee rate until the emergency admin sets one. -/
def defaultFeeBps : UInt32 := 50

def getFeeBps (g : Governance) : UInt32 := g.feeBps.getD defaultFeeBps

theorem requireAuth_eq_ok {env : Env own} {a : Address} {u : Unit} :
    requireAuth env a = .ok u ↔ a ∈ env.auths := ensure_eq_ok

/-- Neither the contract nor the organizer is paused. -/
theorem assertNotPaused_eq_ok {g : Governance} {admin : Address} {u : Unit} :
    assertNotPaused g admin = .ok u ↔ NotPaused g admin := by
  simp only [assertNotPaused, bind_eq_ok, ensure_eq_ok, exists_const, NotPaused]

theorem assertTokenAllowed_eq_ok {g : Governance} {token : Address} {u : Unit} :
    assertTokenAllowed g token = .ok u ↔ isTokenAllowed g token = true := ensure_eq_ok

/-- The caller is the emergency admin. -/
theorem assertIsEmergencyAdmin_eq_ok {g : Governance} {caller : Address} {u : Unit} :
    assertIsEmergencyAdmin g caller = .ok u ↔ g.emergencyAdmin = some caller := by
  simp only [assertIsEmergencyAdmin, bind_eq_ok, expect_eq_ok, ensure_eq_ok]
  constructor
  · rintro ⟨a, ha, rfl⟩
    exact ha
  · intro h
    exact ⟨caller, h, rfl⟩

/-! ## Token transfers -/

/-- The balances after `amount` of `token` moved from `src` to `dst`. -/
def move (b : Balances) (token src dst : Address) (amount : ℤ) : Balances := fun t a =>
  b t a - (if t = token ∧ a = src then amount else 0)
    + (if t = token ∧ a = dst then amount else 0)

/-- `token_client.transfer(src, dst, amount)`. -/
def transfer (env : Env own) (s : State) (token src dst : Address) (amount : I128) :
    Except Trap State := do
  ensure (env.transferOk s.balances token src dst amount = true) .transferFailed
  return s.setBalances (move s.balances token src dst amount.val)

/-- The transfer loop of every payout: pay each entry out of the contract's own
balance, in list order. -/
def payAll (env : Env own) (s : State) (token : Address) :
    List (Address × I128) → Except Trap State
  | [] => .ok s
  | p :: ps => do
      let s ← transfer env s token own p.1 p.2
      payAll env s token ps

/-- The balances after the whole loop. -/
def moveAll (b : Balances) (token src : Address) : List (Address × I128) → Balances
  | [] => b
  | p :: ps => moveAll (move b token src p.1 p.2.val) token src ps

/-- The token accepts every transfer of the loop. -/
def Payable (env : Env own) (b : Balances) (token : Address) : List (Address × I128) → Prop
  | [] => True
  | p :: ps => env.transferOk b token own p.1 p.2 = true ∧
      Payable env (move b token own p.1 p.2.val) token ps

/-- What a payment list pays in total. -/
def totalPaid (ps : List (Address × I128)) : ℤ := (ps.map fun p => p.2.val).sum

/-- What a payment list pays to one address. -/
def paidTo (a : Address) (ps : List (Address × I128)) : ℤ :=
  (ps.map fun p => if p.1 = a then p.2.val else 0).sum

/-- A transfer that the token allows moves the amount. -/
theorem transfer_eq_ok {env : Env own} {s s' : State} {token src dst : Address}
    {amount : I128} :
    transfer env s token src dst amount = .ok s' ↔
      env.transferOk s.balances token src dst amount = true ∧
        s' = s.setBalances (move s.balances token src dst amount.val) := by
  simp only [transfer, bind_eq_ok, ensure_eq_ok, exists_const, pure_eq_ok]
  exact and_congr_right fun _ => eq_comm

/-- The loop succeeds exactly when the token accepts every transfer, and it then
changes the balances only. -/
theorem payAll_eq_ok {env : Env own} {token : Address} {ps : List (Address × I128)}
    {s s' : State} :
    payAll env s token ps = .ok s' ↔
      Payable env s.balances token ps ∧
        s' = s.setBalances (moveAll s.balances token own ps) := by
  induction ps generalizing s with
  | nil =>
      simp only [payAll, Payable, moveAll, Except.ok.injEq, true_and]
      exact eq_comm
  | cons p ps ih =>
      simp only [payAll, bind_eq_ok, transfer_eq_ok, ih, Payable, moveAll]
      constructor
      · rintro ⟨t, ⟨hok, rfl⟩, hps, rfl⟩
        exact ⟨⟨hok, hps⟩, rfl⟩
      · rintro ⟨⟨hok, hps⟩, rfl⟩
        exact ⟨_, ⟨hok, rfl⟩, hps, rfl⟩

@[simp] theorem totalPaid_cons (p : Address × I128) (ps : List (Address × I128)) :
    totalPaid (p :: ps) = p.2.val + totalPaid ps := by
  simp only [totalPaid, List.map_cons, List.sum_cons]

@[simp] theorem paidTo_cons (a : Address) (p : Address × I128) (ps : List (Address × I128)) :
    paidTo a (p :: ps) = (if p.1 = a then p.2.val else 0) + paidTo a ps := by
  simp only [paidTo, List.map_cons, List.sum_cons]

/-- Positive payments pay nobody a negative amount. -/
theorem paidTo_nonneg {a : Address} {ps : List (Address × I128)}
    (h : ∀ p ∈ ps, 0 < p.2.val) : 0 ≤ paidTo a ps := by
  apply List.sum_nonneg
  intro x hx
  obtain ⟨p, hp, rfl⟩ := List.mem_map.mp hx
  by_cases ha : p.1 = a
  · rw [if_pos ha]
    exact le_of_lt (h p hp)
  · rw [if_neg ha]

/-- Every other token is untouched by a transfer. -/
theorem move_other_token {b : Balances} {token src dst t a : Address} {amount : ℤ}
    (h : t ≠ token) : move b token src dst amount t a = b t a := by
  simp only [move, h, false_and, if_false]
  omega

/-- A transfer seen from the payer. -/
theorem move_src {b : Balances} {token src dst : Address} {amount : ℤ} :
    move b token src dst amount token src
      = b token src - amount + (if dst = src then amount else 0) := by
  simp only [move, and_self, if_true, true_and, eq_comm]

/-- A transfer seen from a receiver who is not the payer. -/
theorem move_dst {b : Balances} {token src dst : Address} {amount : ℤ} (h : dst ≠ src) :
    move b token src dst amount token dst = b token dst + amount := by
  simp only [move, h, and_false, if_false, and_self, if_true]
  omega

/-- Every other token is untouched by the loop. -/
theorem moveAll_other_token {b : Balances} {token src t a : Address}
    {ps : List (Address × I128)} (h : t ≠ token) : moveAll b token src ps t a = b t a := by
  induction ps generalizing b with
  | nil => rfl
  | cons p ps ih => rw [moveAll, ih, move_other_token h]

/-- The payer ends with its balance less the total, plus what it paid itself. -/
theorem moveAll_src {b : Balances} {token src : Address} {ps : List (Address × I128)} :
    moveAll b token src ps token src = b token src - totalPaid ps + paidTo src ps := by
  induction ps generalizing b with
  | nil => simp [moveAll, totalPaid, paidTo]
  | cons p ps ih =>
      rw [moveAll, ih, move_src, totalPaid_cons, paidTo_cons]
      omega

/-- A transfer seen from the payer, in any token. -/
theorem move_src_in {b : Balances} {token src dst t : Address} {amount : ℤ} :
    move b token src dst amount t src
      = b t src - if token = t then amount - (if dst = src then amount else 0) else 0 := by
  by_cases ht : token = t
  · subst ht
    rw [move_src, if_pos rfl]
    omega
  · rw [move_other_token (Ne.symm ht), if_neg ht, sub_zero]

/-- A transfer seen from a receiver who is not the payer, in any token. -/
theorem move_dst_in {b : Balances} {token src dst t : Address} {amount : ℤ} (h : dst ≠ src) :
    move b token src dst amount t dst = b t dst + if token = t then amount else 0 := by
  by_cases ht : token = t
  · subst ht
    rw [move_dst h, if_pos rfl]
  · rw [move_other_token (Ne.symm ht), if_neg ht, add_zero]

/-- The payer's balance after the loop, in any token. -/
theorem moveAll_src_in {b : Balances} {token src t : Address} {ps : List (Address × I128)} :
    moveAll b token src ps t src
      = b t src - if token = t then totalPaid ps - paidTo src ps else 0 := by
  by_cases ht : token = t
  · subst ht
    rw [moveAll_src, if_pos rfl]
    omega
  · rw [moveAll_other_token (Ne.symm ht), if_neg ht, sub_zero]

end Escrow
