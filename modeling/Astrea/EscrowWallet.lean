/-
# Free balances

`deposit_funds`, `withdraw_funds` and the plain wallet reads.
-/
import Astrea.EscrowAccess

open Guard

namespace Escrow

variable {own : Address}

def depositFunds (env : Env own) (s : State) (admin token : Address) (amount : I128) :
    Except Trap State := do
  requireAuth env admin
  assertNotPaused s.gov admin
  assertTokenAllowed s.gov token
  ensure (0 < amount.val) (.panicked "Amount must be greater than zero")
  let s ← transfer env s token admin own amount
  -- a first deposit opens the wallet and fixes its token
  let wallet := (s.wallet.lookup admin).getD { token := token, balance := .ofNat 0 }
  ensure (wallet.token = token)
    (.panicked "This admin already has a wallet with a different token")
  let balance ← expect (wallet.balance.add amount) .overflow
  return s.setWallet admin { wallet with balance := balance }

def withdrawFunds (env : Env own) (s : State) (admin : Address) (amount : I128) :
    Except Trap State := do
  requireAuth env admin
  assertNotPaused s.gov admin
  ensure (0 < amount.val) (.panicked "Amount must be greater than zero")
  let wallet ← expect (s.wallet.lookup admin) (.panicked "Admin has no wallet registered")
  ensure (amount.val ≤ wallet.balance.val) (.panicked "Insufficient balance in wallet")
  let balance ← expect (wallet.balance.sub amount) .overflow
  let s := s.setWallet admin { wallet with balance := balance }
  transfer env s wallet.token own admin amount

def getBalance (s : State) (admin : Address) : I128 :=
  match s.wallet.lookup admin with
  | some w => w.balance
  | none => .ofNat 0

def hasWallet (s : State) (admin : Address) : Bool := (s.wallet.lookup admin).isSome

/-! ## When the calls succeed -/

/-- A deposit goes through for an organizer that signs and is not paused, in a whitelisted token
that is the wallet's, and adds the amount to both sides. -/
theorem depositFunds_eq_ok {env : Env own} {s s' : State} {admin token : Address}
    {amount : I128} :
    depositFunds env s admin token amount = .ok s' ↔
      admin ∈ env.auths ∧ NotPaused s.gov admin ∧ isTokenAllowed s.gov token = true ∧
      0 < amount.val ∧ env.transferOk s.balances token admin own amount = true ∧
      ∃ wallet balance, (s.wallet.lookup admin).getD ⟨token, .ofNat 0⟩ = wallet ∧
        wallet.token = token ∧ balance.val = wallet.balance.val + amount.val ∧
        s' = (s.setBalances (move s.balances token admin own amount.val)).setWallet admin
          { wallet with balance := balance } := by
  simp only [depositFunds, bind_eq_ok, requireAuth_eq_ok, assertNotPaused_eq_ok,
    assertTokenAllowed_eq_ok, ensure_eq_ok, exists_const, transfer_eq_ok, expect_eq_ok,
    BoundedInt.add_eq_some, pure_eq_ok]
  constructor
  · rintro ⟨ha, hp, ht, hpos, t, ⟨hok, rfl⟩, htok, b, hb, rfl⟩
    exact ⟨ha, hp, ht, hpos, hok, _, b, rfl, htok, hb, rfl⟩
  · rintro ⟨ha, hp, ht, hpos, hok, w, b, rfl, htok, hb, rfl⟩
    exact ⟨ha, hp, ht, hpos, _, ⟨hok, rfl⟩, htok, b, hb, rfl⟩

/-- A withdrawal goes through for an organizer that signs, is not paused and has the amount. -/
theorem withdrawFunds_eq_ok {env : Env own} {s s' : State} {admin : Address}
    {amount : I128} :
    withdrawFunds env s admin amount = .ok s' ↔
      admin ∈ env.auths ∧ NotPaused s.gov admin ∧ 0 < amount.val ∧
      ∃ wallet balance, s.wallet.lookup admin = some wallet ∧
        amount.val ≤ wallet.balance.val ∧ balance.val = wallet.balance.val - amount.val ∧
        env.transferOk s.balances wallet.token own admin amount = true ∧
        s' = (s.setWallet admin { wallet with balance := balance }).setBalances
          (move s.balances wallet.token own admin amount.val) := by
  simp only [withdrawFunds, bind_eq_ok, requireAuth_eq_ok, assertNotPaused_eq_ok,
    ensure_eq_ok, exists_const, transfer_eq_ok, expect_eq_ok, BoundedInt.sub_eq_some,
    State.setWallet_balances]
  constructor
  · rintro ⟨ha, hp, hpos, w, hw, hle, b, hb, hok, rfl⟩
    exact ⟨ha, hp, hpos, w, b, hw, hle, hb, hok, rfl⟩
  · rintro ⟨ha, hp, hpos, w, b, hw, hle, hb, hok, rfl⟩
    exact ⟨ha, hp, hpos, w, hw, hle, b, hb, hok, rfl⟩

end Escrow
