/-
# Runs of the escrow contract

The contract from its deployment on: any calls by any callers at any ledger times, a
trapped call leaving the state as it was, and token movements of the outside world in
between.  The outside world cannot take tokens from the contract, whose address never
authorises anything; it can send it some.
-/
import Astrea.EscrowContract
import Astrea.LabelledRun

namespace Escrow

variable {own : Address}

/-- What a step of the ledger is. -/
inductive Label (own : Address) where
  | call (env : Env own) (call : Call)
  | reverted (env : Env own) (call : Call)
  | ledger

/-- One step of the ledger, seen from the contract. -/
inductive Step (own : Address) : State → Label own → State → Prop
  | call {s s' : State} {env : Env own} {call : Call} (ok : exec env s call = .ok s') :
      Step own s (.call env call) s'
  | reverted {s : State} {env : Env own} {call : Call} {trap : Trap}
      (error : exec env s call = .error trap) : Step own s (.reverted env call) s
  | ledger {s : State} {b : Balances} (grows : ∀ token, s.balances token own ≤ b token own) :
      Step own s .ledger (s.setBalances b)

/-- The governance values of a fresh deployment. -/
def freshGovernance : Governance where
  emergencyAdmin := none
  defaultResolver := none
  paused := none
  adminPaused := ∅
  tokenWhitelistEnabled := none
  allowedToken := ∅
  treasury := none
  feeBps := none

/-- A fresh deployment on a ledger with the given token balances. -/
def genesis (b : Balances) : State where
  wallet := ∅
  event := ∅
  eventsCount := ∅
  eventIndex := ∅
  gov := freshGovernance
  published := []
  balances := b

/-- A run of the contract from a fresh deployment. -/
abbrev EscrowRun (own : Address) (b : Balances) (tr : List (Transition State (Label own)))
    (s : State) : Prop := Run (Step own) (genesis b) tr s

/-- The states of all runs. -/
def Reachable (own : Address) (s : State) : Prop :=
  ∃ b tr, (∀ token, 0 ≤ b token own) ∧ EscrowRun own b tr s

/-- A property kept by every effect and by every change of the balances alone is kept
by every step. -/
theorem Step.preserves {I : State → Prop} {s s' : State} {l : Label own}
    (h : Step own s l s') (hI : I s)
    (hcall : ∀ (env : Env own) call, Effect env s call s' → I s')
    (hledger : ∀ b, I (s.setBalances b)) : I s' := by
  cases h with
  | call ok => exact hcall _ _ (exec_effect ok)
  | reverted _ => exact hI
  | ledger _ => exact hledger _

/-! ## Scripts -/

/-- Make the calls of a script one after the other; the script fails with its first
trap. -/
def play (s : State) : List (Env own × Call) → Except Trap State
  | [] => .ok s
  | (env, call) :: rest => do
      let s ← exec env s call
      play s rest

/-- The transitions of a script. -/
def playTrace (s : State) : List (Env own × Call) → List (Transition State (Label own))
  | [] => []
  | (env, call) :: rest =>
      match exec env s call with
      | .ok s' => ⟨s, .call env call, s'⟩ :: playTrace s' rest
      | .error _ => []

/-- A script that plays through is a run. -/
theorem play_run {script : List (Env own × Call)} {s s' : State}
    (h : play s script = .ok s') : Run (Step own) s (playTrace s script) s' := by
  induction script generalizing s with
  | nil =>
      obtain rfl := Except.ok.inj h
      exact .nil
  | cons p rest ih =>
      obtain ⟨env, call⟩ := p
      obtain ⟨t, ht, hrest⟩ := Guard.bind_eq_ok.mp h
      have htrace : playTrace s ((env, call) :: rest)
          = [⟨s, .call env call, t⟩] ++ playTrace t rest := by
        rw [playTrace, ht]
        rfl
      rw [htrace]
      exact (Run.single (.call ht)).append (ih hrest)

/-- The value of a computation that is known to succeed. -/
def okOf {α : Type} (r : Except Trap α) (h : r.isOk = true) : α :=
  match r, h with
  | .ok a, _ => a

theorem okOf_eq {α : Type} {r : Except Trap α} (h : r.isOk = true) : r = .ok (okOf r h) := by
  cases r with
  | error e => exact nomatch h
  | ok a => rfl

/-! ## A sample deployment -/

namespace Sample

/-- The contract's own address. -/
def escrow : Address := .contract 1

def token : Address := .contract 2

def emergencyAdmin : Address := .account 1

def treasury : Address := .account 2

def organizer : Address := .account 3

def judge : Address := .account 4

def resolver : Address := .account 5

def winner : Address := .account 6

/-- The organizer starts with ten thousand units of the token. -/
def balances : Balances := fun t a => if t = token ∧ a = organizer then 10000 else 0

/-- A call at time `timestamp` authorised by `auths`, on a token that refuses only
uncovered transfers. -/
def env (timestamp : UInt64) (auths : List Address)
    (h : auths.contains escrow = false := by exact Eq.refl false) : Env escrow where
  timestamp := timestamp
  auths := auths
  noSelfAuth := by simpa using h
  transferOk := fun b t src _ amount => decide (amount.val ≤ b t src)

/-- Governance set up, a deposit, and an event of reward 600 that went live and is due for
judging at time 100. -/
def liveScript : List (Env escrow × Call) :=
  [(env 1 [emergencyAdmin], .initializeEmergencyAdmin emergencyAdmin),
   (env 2 [emergencyAdmin], .initializeTreasury emergencyAdmin treasury),
   (env 3 [organizer], .depositFunds organizer token (.ofNat 1000)),
   (env 4 [organizer], .createEvent organizer judge (some resolver) token (.ofNat 600) 7),
   (env 5 [organizer], .setEventInProgress organizer 7 100)]

/-- The state after the script. -/
def live : State := okOf (play (genesis balances) liveScript) (by decide +kernel)

theorem play_live : play (genesis balances) liveScript = .ok live := okOf_eq _

/-- The sample event once live. -/
def liveEvent : Event where
  admin := organizer
  judge := judge
  token := token
  resolver := resolver
  reward := .ofNat 600
  state := .inProgress
  deadline := none
  judgingDeadline := some 100

theorem live_lookup : live.event.lookup 7 = some liveEvent := by decide +kernel

/-- The judge pays the whole reward to one winner. -/
def release : Call := .releaseReward judge 7 [⟨1, .ofNat 600, winner⟩]

theorem balances_nonneg (t : Address) : 0 ≤ balances t escrow := by
  have hne : escrow ≠ organizer := by decide
  simp only [balances, hne, and_false, if_false, le_refl]

/-- The sample event is live in a reachable state. -/
theorem live_reachable : Reachable escrow live :=
  ⟨balances, _, balances_nonneg, play_run play_live⟩

end Sample

end Escrow
