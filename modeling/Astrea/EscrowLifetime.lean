/-
# The lifetime of storage keys

Every storage key of the contract has a lifetime of its own, in ledgers, which the entry points
extend where they write the key.  The four helpers of `access.rs` differ in their constants only;
`accesses` lists what an entry point sets and which of the helpers it calls, in order.
-/
import Astrea.EscrowGovernor
import Astrea.EscrowIndex
import Astrea.Lifetime

open Lifetime

namespace Escrow

variable {own : Address}

/-! ## Storage keys -/

/-- `DataKey`. -/
inductive DataKey where
  | wallet (admin : Address)
  | event (eventId : EventId)
  | eventsCount (admin : Address)
  | eventIndex (admin : Address) (count : UInt32)
  | emergencyAdmin
  | defaultResolver
  | paused
  | adminPaused (admin : Address)
  | tokenWhitelistEnabled
  | allowedToken (token : Address)
  | treasury
  | feeBps
  deriving DecidableEq

/-- What is stored under a key. -/
inductive StoredValue where
  | wallet (w : AdminWallet)
  | event (e : Event)
  | count (n : UInt32)
  | eventId (i : EventId)
  | address (a : Address)
  | flag (b : Bool)
  | rate (bps : UInt32)
  deriving DecidableEq

/-- `env.storage().persistent().get(key)`. -/
def State.stored (s : State) : DataKey → Option StoredValue
  | .wallet admin => (s.wallet.lookup admin).map .wallet
  | .event eventId => (s.event.lookup eventId).map .event
  | .eventsCount admin => (s.eventsCount.lookup admin).map .count
  | .eventIndex admin count => (s.eventIndex.lookup (admin, count)).map .eventId
  | .emergencyAdmin => s.gov.emergencyAdmin.map .address
  | .defaultResolver => s.gov.defaultResolver.map .address
  | .paused => s.gov.paused.map .flag
  | .adminPaused admin => (s.gov.adminPaused.lookup admin).map .flag
  | .tokenWhitelistEnabled => s.gov.tokenWhitelistEnabled.map .flag
  | .allowedToken token => (s.gov.allowedToken.lookup token).map .flag
  | .treasury => s.gov.treasury.map .address
  | .feeBps => s.gov.feeBps.map .rate

/-! ## The helpers -/

def dayInLedgers : ℕ := 17280

/-- `WALLET_TTL_THRESHOLD`, `WALLET_TTL_EXTEND_TO`. -/
def walletTtl : Terms := ⟨30 * dayInLedgers, 90 * dayInLedgers, by decide, by decide⟩

/-- `EVENT_TTL_THRESHOLD`, `EVENT_TTL_EXTEND_TO`. -/
def eventTtl : Terms := ⟨30 * dayInLedgers, 90 * dayInLedgers, by decide, by decide⟩

/-- `EVENTS_INDEX_TTL_THRESHOLD`, `EVENTS_INDEX_TTL_EXTEND_TO`. -/
def eventsIndexTtl : Terms := ⟨30 * dayInLedgers, 120 * dayInLedgers, by decide, by decide⟩

/-- `GOVERNANCE_TTL_THRESHOLD`, `GOVERNANCE_TTL_EXTEND_TO`. -/
def governanceTtl : Terms := ⟨30 * dayInLedgers, 180 * dayInLedgers, by decide, by decide⟩

def bumpWalletTtl (key : DataKey) : Access DataKey := .extendTtl key walletTtl

def bumpEventTtl (key : DataKey) : Access DataKey := .extendTtl key eventTtl

def bumpEventsIndexTtl (key : DataKey) : Access DataKey := .extendTtl key eventsIndexTtl

def bumpGovernanceTtl (key : DataKey) : Access DataKey := .extendTtl key governanceTtl

/-! ## What the entry points set and extend -/

/-- `set` on the key of a wallet, and `bump_wallet_ttl`. -/
def setWalletKey (admin : Address) : List (Access DataKey) :=
  [.set (.wallet admin), bumpWalletTtl (.wallet admin)]

/-- `set` on the key of an event, and `bump_event_ttl`. -/
def setEventKey (eventId : EventId) : List (Access DataKey) :=
  [.set (.event eventId), bumpEventTtl (.event eventId)]

/-- `set` on a governance key, and `bump_governance_ttl`. -/
def setGovernanceKey (key : DataKey) : List (Access DataKey) := [.set key, bumpGovernanceTtl key]

/-- The accesses of `create_event_internal`. -/
def createAccesses (s : State) (admin : Address) (eventId : EventId) : List (Access DataKey) :=
  let indexKey := .eventIndex admin ((s.eventsCount.lookup admin).getD 0)
  let countKey := .eventsCount admin
  setWalletKey admin ++ setEventKey eventId ++
    [.set indexKey, bumpEventsIndexTtl indexKey, .set countKey, bumpEventsIndexTtl countKey]

/-- The accesses of `expire_event`, whose wallet is that of the recorded organizer. -/
def expireAccesses (s : State) (eventId : EventId) : List (Access DataKey) :=
  match s.event.lookup eventId with
  | some event => setEventKey eventId ++ setWalletKey event.admin
  | none => []

/-- The accesses of `set_event_in_progress`: the wallet is written only where a fee is due. -/
def inProgressAccesses (s : State) (admin : Address) (eventId : EventId) :
    List (Access DataKey) :=
  match s.event.lookup eventId with
  | some event =>
      match goLiveFee event.reward (getFeeBps s.gov) with
      | .ok fee =>
          if 0 < fee.val then setWalletKey admin ++ setEventKey eventId else setEventKey eventId
      | .error _ => []
  | none => []

/-- What a successful call sets and extends in the storage, in order. -/
def accesses (s : State) : Call → List (Access DataKey)
  | .depositFunds admin _ _ | .withdrawFunds admin _ => setWalletKey admin
  | .createEvent admin _ _ _ _ eventId => createAccesses s admin eventId
  | .createEventWithDeadline admin _ _ _ _ eventId _ => createAccesses s admin eventId
  | .expireEvent eventId => expireAccesses s eventId
  | .setEventWaitingForStart _ eventId => setEventKey eventId
  | .setEventInProgress admin eventId _ => inProgressAccesses s admin eventId
  | .setEventCancelled admin eventId | .emergencyWithdraw admin _ eventId _ =>
      setEventKey eventId ++ setWalletKey admin
  | .releaseCompensation admin eventId _ => setWalletKey admin ++ setEventKey eventId
  | .releaseReward _ eventId _ | .resolveDispute _ eventId _ => setEventKey eventId
  | .initializeEmergencyAdmin _ => setGovernanceKey .emergencyAdmin
  | .initializeDefaultResolver _ _ => setGovernanceKey .defaultResolver
  | .setPaused _ _ => setGovernanceKey .paused
  | .setAdminPaused _ targetAdmin _ => setGovernanceKey (.adminPaused targetAdmin)
  | .setTokenWhitelistEnabled _ _ => setGovernanceKey .tokenWhitelistEnabled
  | .setTokenAllowed _ token _ => setGovernanceKey (.allowedToken token)
  | .initializeTreasury _ _ => setGovernanceKey .treasury
  | .setFeeBps _ _ => setGovernanceKey .feeBps
  | _ => []

/-- The keys that a successful call sets, in order. -/
def sets (s : State) (call : Call) : List DataKey := (accesses s call).filterMap Access.setKey

/-- The terms a key should be kept on. -/
def DataKey.terms : DataKey → Terms
  | .wallet _ => walletTtl
  | .event _ => eventTtl
  | .eventsCount _ | .eventIndex _ _ => eventsIndexTtl
  | _ => governanceTtl

/-- The keys of a list of accesses are set once each, and each is extended on its own terms, and
nothing else is. -/
def SetsExtended (l : List (Access DataKey)) : Prop :=
  l = setAndExtend DataKey.terms (l.filterMap Access.setKey) ∧ (l.filterMap Access.setKey).Nodup

/-- Every entry point calls the helper of each key it sets, once. -/
theorem setsExtended_accesses (s : State) (call : Call) : SetsExtended (accesses s call) := by
  have hnone : SetsExtended [] := ⟨rfl, List.nodup_nil⟩
  have hwallet : ∀ admin, SetsExtended (setWalletKey admin) :=
    fun admin => ⟨rfl, List.nodup_singleton _⟩
  have hevent : ∀ eventId, SetsExtended (setEventKey eventId) :=
    fun eventId => ⟨rfl, List.nodup_singleton _⟩
  have heventWallet : ∀ eventId admin,
      SetsExtended (setEventKey eventId ++ setWalletKey admin) := by
    intro eventId admin
    refine ⟨rfl, ?_⟩
    show [DataKey.event eventId, .wallet admin].Nodup
    simp
  have hwalletEvent : ∀ admin eventId,
      SetsExtended (setWalletKey admin ++ setEventKey eventId) := by
    intro admin eventId
    refine ⟨rfl, ?_⟩
    show [DataKey.wallet admin, .event eventId].Nodup
    simp
  have hcreate : ∀ admin eventId, SetsExtended (createAccesses s admin eventId) := by
    intro admin eventId
    refine ⟨rfl, ?_⟩
    show [DataKey.wallet admin, .event eventId, .eventIndex admin _, .eventsCount admin].Nodup
    simp
  cases call with
  | createEvent => exact hcreate _ _
  | createEventWithDeadline => exact hcreate _ _
  | expireEvent eventId =>
      show SetsExtended (expireAccesses s eventId)
      unfold expireAccesses
      split
      · exact heventWallet _ _
      · exact hnone
  | setEventInProgress admin eventId judgingDeadline =>
      show SetsExtended (inProgressAccesses s admin eventId)
      unfold inProgressAccesses
      split
      · split
        · split_ifs
          · exact hwalletEvent _ _
          · exact hevent _
        · exact hnone
      · exact hnone
  | setEventCancelled | emergencyWithdraw => exact heventWallet _ _
  | releaseCompensation => exact hwalletEvent _ _
  | depositFunds | withdrawFunds => exact hwallet _
  | setEventWaitingForStart | releaseReward | resolveDispute => exact hevent _
  | initializeEmergencyAdmin | initializeDefaultResolver | setPaused | setAdminPaused
  | setTokenWhitelistEnabled | setTokenAllowed | initializeTreasury | setFeeBps =>
      exact ⟨rfl, List.nodup_singleton _⟩
  | _ => exact hnone

/-! ## What the entry points write -/

/-- `s'` is `s` with other values under the keys `ks`, each of which then has one. -/
structure Writes (ks : List DataKey) (s s' : State) : Prop where
  frame : ∀ k, k ∉ ks → s'.stored k = s.stored k
  stored : ∀ k ∈ ks, (s'.stored k).isSome = true

namespace Writes

variable {ks : List DataKey} {s t t' : State}

theorem refl (s : State) : Writes [] s s :=
  ⟨fun _ _ => rfl, fun _ hk => absurd hk List.not_mem_nil⟩

/-- One more key. -/
theorem snoc (h : Writes ks s t) {k : DataKey} (hframe : ∀ k', k' ≠ k → t'.stored k' = t.stored k')
    (hk : (t'.stored k).isSome = true) : Writes (ks ++ [k]) s t' where
  frame k' hk' := by
    rw [List.mem_append, List.mem_singleton, not_or] at hk'
    rw [hframe k' hk'.2, h.frame k' hk'.1]
  stored k' hk' := by
    by_cases heq : k' = k
    · rwa [heq]
    · rw [hframe k' heq]
      rcases List.mem_append.mp hk' with hmem | hmem
      · exact h.stored k' hmem
      · exact absurd (List.mem_singleton.mp hmem) heq

/-- Nothing under any key. -/
theorem same (h : Writes ks s t) (heq : ∀ k, t'.stored k = t.stored k) : Writes ks s t' where
  frame k hk := by rw [heq, h.frame k hk]
  stored k hk := by rw [heq, h.stored k hk]

theorem publish (h : Writes ks s t) (n : ContractEvent) : Writes ks s (t.publish n) :=
  h.same fun k => by cases k <;> rfl

theorem setBalances (h : Writes ks s t) (b : Balances) : Writes ks s (t.setBalances b) :=
  h.same fun k => by cases k <;> rfl

theorem setWallet (h : Writes ks s t) (a : Address) (w : AdminWallet) :
    Writes (ks ++ [.wallet a]) s (t.setWallet a w) := by
  refine h.snoc ?_ ?_
  · intro k hk
    cases k with
    | wallet a' =>
        have hne : a' ≠ a := fun heq => hk (heq ▸ rfl)
        rw [State.stored, State.stored, State.setWallet_wallet, AList.lookup_insert_ne hne]
    | _ => rfl
  · rw [State.stored, State.setWallet_wallet, AList.lookup_insert]
    rfl

theorem setEvent (h : Writes ks s t) (i : EventId) (e : Event) :
    Writes (ks ++ [.event i]) s (t.setEvent i e) := by
  refine h.snoc ?_ ?_
  · intro k hk
    cases k with
    | event i' =>
        have hne : i' ≠ i := fun heq => hk (heq ▸ rfl)
        rw [State.stored, State.stored, State.setEvent_event, AList.lookup_insert_ne hne]
    | _ => rfl
  · rw [State.stored, State.setEvent_event, AList.lookup_insert]
    rfl

/-- The index entry is written first, then the count. -/
theorem appendIndex (h : Writes ks s t) (a : Address) (count next : UInt32) (i : EventId) :
    Writes (ks ++ [.eventIndex a count] ++ [.eventsCount a]) s (t.appendIndex a count next i) := by
  have hindex : Writes (ks ++ [.eventIndex a count]) s
      { t with eventIndex := t.eventIndex.insert (a, count) i } := by
    refine h.snoc ?_ ?_
    · intro k hk
      cases k with
      | eventIndex a' count' =>
          have hne : (a', count') ≠ (a, count) := by
            intro heq
            cases heq
            exact hk rfl
          rw [State.stored, State.stored]
          dsimp only
          rw [AList.lookup_insert_ne hne]
      | _ => rfl
    · rw [State.stored]
      dsimp only
      rw [AList.lookup_insert]
      rfl
  refine hindex.snoc ?_ ?_
  · intro k hk
    cases k with
    | eventsCount a' =>
        have hne : a' ≠ a := fun heq => hk (heq ▸ rfl)
        rw [State.stored, State.stored, State.appendIndex]
        dsimp only
        rw [AList.lookup_insert_ne hne]
    | _ => rfl
  · rw [State.stored, State.appendIndex]
    dsimp only
    rw [AList.lookup_insert]
    rfl

end Writes

/-- A governance call writes one key. -/
theorem GovernanceMove.writes {env : Env own} {s : State} {call : Call} {g : Governance}
    {ns : List ContractEvent} (h : GovernanceMove env s.gov call g ns) :
    Writes (sets s call) s (governed s g ns) := by
  cases h with
  | adminPaused auth admin_eq =>
      rename_i caller a p
      refine (Writes.refl s).snoc (k := .adminPaused a) ?_ ?_
      · intro k hk
        cases k with
        | adminPaused a' =>
            have hne : a' ≠ a := fun heq => hk (heq ▸ rfl)
            rw [State.stored, State.stored, governed]
            dsimp only [State.setGov]
            rw [AList.lookup_insert_ne hne]
        | _ => rfl
      · rw [State.stored, governed]
        dsimp only [State.setGov]
        rw [AList.lookup_insert]
        rfl
  | tokenAllowed auth admin_eq =>
      rename_i caller a p
      refine (Writes.refl s).snoc (k := .allowedToken a) ?_ ?_
      · intro k hk
        cases k with
        | allowedToken a' =>
            have hne : a' ≠ a := fun heq => hk (heq ▸ rfl)
            rw [State.stored, State.stored, governed]
            dsimp only [State.setGov]
            rw [AList.lookup_insert_ne hne]
        | _ => rfl
      · rw [State.stored, governed]
        dsimp only [State.setGov]
        rw [AList.lookup_insert]
        rfl
  | _ =>
      refine (Writes.refl s).snoc ?_ rfl
      intro k hk
      cases k <;> first | rfl | exact absurd rfl hk

/-- A call that is one of the two creations sets the same keys. -/
theorem accesses_of_creation {s : State} {call : Call} {c : Creation}
    (h : call.creation? = some c) : accesses s call = createAccesses s c.admin c.eventId := by
  cases call with
  | createEvent => obtain rfl := Option.some_inj.mp h; rfl
  | createEventWithDeadline => obtain rfl := Option.some_inj.mp h; rfl
  | _ => cases h

/-- A successful call writes exactly the keys it sets: nothing else that is stored changes, and each
of them has a value afterwards. -/
theorem exec_writes {env : Env own} {s s' : State} {call : Call} (h : exec env s call = .ok s') :
    Writes (sets s call) s s' := by
  cases hfunds : call.movesFunds with
  | false =>
      rcases exec_governance h hfunds with ⟨g, ns, hmove, rfl⟩ | ⟨hread, rfl⟩
      · exact hmove.writes
      · cases call <;> first | exact .refl _ | cases hread
  | true =>
      cases exec_effect h with
      | deposit => exact ((Writes.refl s).setBalances _).setWallet _ _
      | withdraw => exact ((Writes.refl s).setWallet _ _).setBalances _
      | create call_eq =>
          rw [sets, accesses_of_creation call_eq]
          exact ((((Writes.refl s).setWallet _ _).setEvent _ _).appendIndex _ _ _ _).publish _
      | @expire eventId event deadline wallet balance event_eq =>
          show Writes ((expireAccesses s eventId).filterMap Access.setKey) s _
          rw [expireAccesses, event_eq]
          exact (((Writes.refl s).setEvent _ _).setWallet _ _).publish _
      | waiting => exact ((Writes.refl s).setEvent _ _).publish _
      | @goLiveFree admin eventId judgingDeadline event fee auth event_eq admin_eq state_eq future
          fee_eq no_fee =>
          show Writes ((inProgressAccesses s admin eventId).filterMap Access.setKey) s _
          simp only [inProgressAccesses, event_eq, fee_eq, if_neg no_fee]
          exact ((Writes.refl s).setEvent _ _).publish _
      | @goLiveCharged admin eventId judgingDeadline event fee treasury wallet balance auth
          event_eq admin_eq state_eq future fee_eq fee_pos =>
          show Writes ((inProgressAccesses s admin eventId).filterMap Access.setKey) s _
          simp only [inProgressAccesses, event_eq, fee_eq, if_pos fee_pos]
          exact (((((Writes.refl s).setWallet _ _).setBalances _).setEvent _ _).publish _).publish _
      | cancel => exact (((Writes.refl s).setEvent _ _).setWallet _ _).publish _
      | emergency => exact (((Writes.refl s).setEvent _ _).setWallet _ _).publish _
      | compensate =>
          exact ((((Writes.refl s).setWallet _ _).setBalances _).setEvent _ _).publish _
      | release => exact (((Writes.refl s).setEvent _ _).setBalances _).publish _
      | resolve => exact (((Writes.refl s).setEvent _ _).setBalances _).publish _
      | govern quiet => exact absurd (hfunds.symm.trans quiet) (by decide)
      | read quiet => exact absurd (hfunds.symm.trans quiet) (by decide)

end Escrow
