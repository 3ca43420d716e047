/-
# The calls of the service

What the service asks for is the call the contract runs; two requests with the same bytes are the
same request; and the account a transaction is built for is one whose signature the call needs.
-/
import Astrea.EntryPoints
import Astrea.EscrowSigners

open Guard RoundTrip Service

namespace Soroban

variable {sdk : Sdk}

/-! ## What the service reads back -/

def eventIDFromScVal : ScVal → Except Message EventID
  | .bytes b =>
      if h : b.length = 16 then .ok ⟨b, h⟩
      else .error ⟨"escrow: expected a %d-byte event id, got %d bytes",
        [.int 16, .int b.length]⟩
  | v => .error ⟨"escrow: expected a Bytes ScVal for an event id, got %v", [.text v.typeName]⟩

def readEventID (v : ScVal) : Option EventID := (eventIDFromScVal v).toOption

def readResolver (sdk : Sdk) (v : ScVal) : Option GoString :=
  if v = scVoid then some [] else readAddress sdk v

def readWinners (sdk : Sdk) : ScVal → Option (List Winner)
  | .vec items => items.mapM (readWinner sdk)
  | _ => none

def readParticipants (sdk : Sdk) : ScVal → Option (List Participant)
  | .vec items => items.mapM (readParticipant sdk)
  | _ => none

/-- The requests with the types of their arguments. -/
def invocations (sdk : Sdk) : List (String × EntryPoint Invocation) :=
  [("deposit_funds", arg (readAddress sdk) fun admin => arg (readAddress sdk) fun token =>
      arg readInt64 fun amount => noArg (.depositFunds admin token amount)),
    ("withdraw_funds", arg (readAddress sdk) fun admin => arg readInt64 fun amount =>
      noArg (.withdrawFunds admin amount)),
    ("get_balance", arg (readAddress sdk) fun admin => noArg (.getBalance admin)),
    ("create_event", arg (readAddress sdk) fun admin => arg (readAddress sdk) fun judge =>
      arg (readResolver sdk) fun resolver => arg (readAddress sdk) fun token =>
      arg readInt64 fun reward => arg readEventID fun eventID =>
      noArg (.createEvent admin judge resolver token reward eventID)),
    ("set_event_cancelled", arg (readAddress sdk) fun admin => arg readEventID fun eventID =>
      noArg (.setEventCancelled admin eventID)),
    ("set_event_waiting_for_start", arg (readAddress sdk) fun admin =>
      arg readEventID fun eventID => noArg (.setEventWaitingForStart admin eventID)),
    ("set_event_in_progress", arg (readAddress sdk) fun admin => arg readEventID fun eventID =>
      arg readU64 fun judgingDeadline => noArg (.setEventInProgress admin eventID judgingDeadline)),
    ("expire_event", arg readEventID fun eventID => noArg (.expireEvent eventID)),
    ("quote_go_live_fee", arg readEventID fun eventID => noArg (.quoteGoLiveFee eventID)),
    ("get_default_resolver", noArg .getDefaultResolver),
    ("release_reward", arg (readAddress sdk) fun judge => arg readEventID fun eventID =>
      arg (readWinners sdk) fun winners => noArg (.releaseReward judge eventID winners)),
    ("resolve_dispute", arg (readAddress sdk) fun resolver => arg readEventID fun eventID =>
      arg (readWinners sdk) fun winners => noArg (.resolveDispute resolver eventID winners)),
    ("release_compensation", arg (readAddress sdk) fun admin => arg readEventID fun eventID =>
      arg (readParticipants sdk) fun participants =>
      noArg (.releaseCompensation admin eventID participants)),
    ("emergency_withdraw", arg (readAddress sdk) fun admin => arg (readAddress sdk) fun resolver =>
      arg readEventID fun eventID => arg readInt64 fun amount =>
      noArg (.emergencyWithdraw admin resolver eventID amount))]

theorem invocations_distinct : ((invocations sdk).map fun e => Service.bytes e.1).Nodup := by
  show (["deposit_funds", "withdraw_funds", "get_balance", "create_event", "set_event_cancelled",
    "set_event_waiting_for_start", "set_event_in_progress", "expire_event", "quote_go_live_fee",
    "get_default_resolver", "release_reward", "resolve_dispute", "release_compensation",
    "emergency_withdraw"].map Service.bytes).Nodup
  decide +kernel

/-- The request that a host function was built for. -/
def readInvocation (sdk : Sdk) (hf : HostFunction) : Option Invocation :=
  dispatch (invocations sdk) hf

/-- An invocation is read by the entry of its name. -/
theorem readInvocation_invoke {name : String} {entry : EntryPoint Invocation}
    {contract : ScAddress} {args : List ScVal} (i : ℕ)
    (h : (invocations sdk)[i]? = some (name, entry)) :
    readInvocation sdk (invokeContractHF contract name args) = entry args :=
  dispatch_invoke invocations_distinct (List.mem_of_getElem? h)

theorem readEventID_scVal (eventID : EventID) : readEventID eventID.scVal = some eventID := by
  have hok : eventIDFromScVal eventID.scVal = .ok eventID := dif_pos eventID.length_eq
  rw [readEventID, hok]
  rfl

/-- An empty resolver or a valid one is read back. -/
theorem resolverScVal_roundTrips :
    RoundTrips (fun r => r = [] ∨ sdk.Valid r) (resolverScVal sdk) (readResolver sdk) := by
  intro resolver hvalid
  by_cases hempty : resolver = []
  · subst hempty
    exact ⟨scVoid, rfl, rfl⟩
  · obtain ⟨v, hv, hread⟩ := encodeAddress_roundTrips resolver (hvalid.resolve_left hempty)
    refine ⟨v, ?_, ?_⟩
    · rw [resolverScVal, if_neg hempty, wrapErr_eq_ok.mpr hv]
    · have hvoid : v ≠ scVoid := by
        obtain ⟨b, rfl | rfl⟩ := encodeAddress_eq_ok hv
        · rintro ⟨⟩
        · rintro ⟨⟩
      exact (if_neg hvoid).trans hread

theorem mapM_eq_some_of_map {α β : Type} {read : α → Option β} {as : List α} {bs : List β}
    (h : as.map read = bs.map some) : as.mapM read = some bs := by
  induction as generalizing bs with
  | nil =>
      obtain rfl : bs = [] := List.map_eq_nil_iff.mp h.symm
      rfl
  | cons a as ih =>
      cases bs with
      | nil => cases h
      | cons b bs =>
          obtain ⟨ha, has⟩ := List.cons.inj h
          rw [List.mapM_cons, ha, ih has]
          rfl

/-- Winners that are encoded are read back. -/
theorem winnersScVal_roundTrips : RoundTrips (fun ws => ∀ w ∈ ws, sdk.Valid w.address)
    (winnersScVal sdk) (readWinners sdk) := by
  intro ws hvalid
  obtain ⟨items, hitems, -, -, hread⟩ := winnersScVal_faithful.vector ws hvalid
  exact ⟨_, hitems, mapM_eq_some_of_map hread⟩

/-- Participants that are encoded are read back. -/
theorem participantsScVal_roundTrips : RoundTrips (fun ps => ∀ p ∈ ps, sdk.Valid p.address)
    (participantsScVal sdk) (readParticipants sdk) := by
  intro ps hvalid
  obtain ⟨items, hitems, -, -, hread⟩ := participantsScVal_faithful.vector ps hvalid
  exact ⟨_, hitems, mapM_eq_some_of_map hread⟩

namespace Invocation

/-- The addresses of the request are addresses; a resolver may be left empty. -/
def Valid (sdk : Sdk) : Invocation → Prop
  | depositFunds admin token _ => sdk.Valid admin ∧ sdk.Valid token
  | withdrawFunds admin _ | getBalance admin | setEventCancelled admin _
  | setEventWaitingForStart admin _ | setEventInProgress admin _ _ => sdk.Valid admin
  | createEvent admin judge resolver token _ _ =>
      sdk.Valid admin ∧ sdk.Valid judge ∧ (resolver = [] ∨ sdk.Valid resolver) ∧ sdk.Valid token
  | expireEvent _ | quoteGoLiveFee _ | getDefaultResolver => True
  | releaseReward signer _ winners | resolveDispute signer _ winners =>
      sdk.Valid signer ∧ ∀ w ∈ winners, sdk.Valid w.address
  | releaseCompensation admin _ participants =>
      sdk.Valid admin ∧ ∀ p ∈ participants, sdk.Valid p.address
  | emergencyWithdraw admin resolver _ _ => sdk.Valid admin ∧ sdk.Valid resolver

/-- A request is built when its lists fit, and is read back from what was built. -/
theorem roundTrips (contract : ScAddress) :
    RoundTrips (fun inv : Invocation => inv.Valid sdk ∧ inv.Fits) (hostFunction sdk contract)
      (readInvocation sdk) := by
  rintro inv ⟨hvalid, hfits⟩
  cases inv with
  | depositFunds admin token amount =>
      obtain ⟨a, ha, hreadA⟩ := encodeAddress_roundTrips admin hvalid.1
      obtain ⟨t, ht, hreadT⟩ := encodeAddress_roundTrips token hvalid.2
      refine ⟨_, hostFunction_eq_ok.mpr ⟨hfits, _, .cons ha (.cons ht (.cons rfl .nil)), rfl⟩, ?_⟩
      rw [functionName, readInvocation_invoke 0 rfl]
      simp only [arg, noArg, hreadA, hreadT, readInt64_encodeI128]
      rfl
  | withdrawFunds admin amount =>
      obtain ⟨a, ha, hreadA⟩ := encodeAddress_roundTrips admin hvalid
      refine ⟨_, hostFunction_eq_ok.mpr ⟨hfits, _, .cons ha (.cons rfl .nil), rfl⟩, ?_⟩
      rw [functionName, readInvocation_invoke 1 rfl]
      simp only [arg, noArg, hreadA, readInt64_encodeI128]
      rfl
  | getBalance admin =>
      obtain ⟨a, ha, hreadA⟩ := encodeAddress_roundTrips admin hvalid
      refine ⟨_, hostFunction_eq_ok.mpr ⟨hfits, _, .cons ha .nil, rfl⟩, ?_⟩
      rw [functionName, readInvocation_invoke 2 rfl]
      simp only [arg, noArg, hreadA]
      rfl
  | createEvent admin judge resolver token reward eventID =>
      obtain ⟨a, ha, hreadA⟩ := encodeAddress_roundTrips admin hvalid.1
      obtain ⟨j, hj, hreadJ⟩ := encodeAddress_roundTrips judge hvalid.2.1
      obtain ⟨r, hr, hreadR⟩ := resolverScVal_roundTrips resolver hvalid.2.2.1
      obtain ⟨t, ht, hreadT⟩ := encodeAddress_roundTrips token hvalid.2.2.2
      refine ⟨_, hostFunction_eq_ok.mpr
        ⟨hfits, _, .cons ha (.cons hj (.cons hr (.cons ht (.cons rfl (.cons rfl .nil))))), rfl⟩, ?_⟩
      rw [functionName, readInvocation_invoke 3 rfl]
      simp only [arg, noArg, hreadA, hreadJ, hreadR, hreadT, readInt64_encodeI128,
        readEventID_scVal]
      rfl
  | setEventCancelled admin eventID =>
      obtain ⟨a, ha, hreadA⟩ := encodeAddress_roundTrips admin hvalid
      refine ⟨_, hostFunction_eq_ok.mpr ⟨hfits, _, .cons ha (.cons rfl .nil), rfl⟩, ?_⟩
      rw [functionName, readInvocation_invoke 4 rfl]
      simp only [arg, noArg, hreadA, readEventID_scVal]
      rfl
  | setEventWaitingForStart admin eventID =>
      obtain ⟨a, ha, hreadA⟩ := encodeAddress_roundTrips admin hvalid
      refine ⟨_, hostFunction_eq_ok.mpr ⟨hfits, _, .cons ha (.cons rfl .nil), rfl⟩, ?_⟩
      rw [functionName, readInvocation_invoke 5 rfl]
      simp only [arg, noArg, hreadA, readEventID_scVal]
      rfl
  | setEventInProgress admin eventID judgingDeadline =>
      obtain ⟨a, ha, hreadA⟩ := encodeAddress_roundTrips admin hvalid
      refine ⟨_, hostFunction_eq_ok.mpr ⟨hfits, _, .cons ha (.cons rfl (.cons rfl .nil)), rfl⟩, ?_⟩
      rw [functionName, readInvocation_invoke 6 rfl]
      simp only [arg, noArg, hreadA, readEventID_scVal, readU64, scU64]
      rfl
  | expireEvent eventID =>
      refine ⟨_, hostFunction_eq_ok.mpr ⟨hfits, _, .cons rfl .nil, rfl⟩, ?_⟩
      rw [functionName, readInvocation_invoke 7 rfl]
      simp only [arg, noArg, readEventID_scVal]
      rfl
  | quoteGoLiveFee eventID =>
      refine ⟨_, hostFunction_eq_ok.mpr ⟨hfits, _, .cons rfl .nil, rfl⟩, ?_⟩
      rw [functionName, readInvocation_invoke 8 rfl]
      simp only [arg, noArg, readEventID_scVal]
      rfl
  | getDefaultResolver =>
      exact ⟨_, hostFunction_eq_ok.mpr ⟨hfits, _, .nil, rfl⟩, readInvocation_invoke 9 rfl⟩
  | releaseReward judge eventID winners =>
      obtain ⟨a, ha, hreadA⟩ := encodeAddress_roundTrips judge hvalid.1
      obtain ⟨v, hv, hreadV⟩ := winnersScVal_roundTrips winners hvalid.2
      refine ⟨_, hostFunction_eq_ok.mpr ⟨hfits, _, .cons ha (.cons rfl (.cons hv .nil)), rfl⟩, ?_⟩
      rw [functionName, readInvocation_invoke 10 rfl]
      simp only [arg, noArg, hreadA, hreadV, readEventID_scVal]
      rfl
  | resolveDispute resolver eventID winners =>
      obtain ⟨a, ha, hreadA⟩ := encodeAddress_roundTrips resolver hvalid.1
      obtain ⟨v, hv, hreadV⟩ := winnersScVal_roundTrips winners hvalid.2
      refine ⟨_, hostFunction_eq_ok.mpr ⟨hfits, _, .cons ha (.cons rfl (.cons hv .nil)), rfl⟩, ?_⟩
      rw [functionName, readInvocation_invoke 11 rfl]
      simp only [arg, noArg, hreadA, hreadV, readEventID_scVal]
      rfl
  | releaseCompensation admin eventID participants =>
      obtain ⟨a, ha, hreadA⟩ := encodeAddress_roundTrips admin hvalid.1
      obtain ⟨v, hv, hreadV⟩ := participantsScVal_roundTrips participants hvalid.2
      refine ⟨_, hostFunction_eq_ok.mpr ⟨hfits, _, .cons ha (.cons rfl (.cons hv .nil)), rfl⟩, ?_⟩
      rw [functionName, readInvocation_invoke 12 rfl]
      simp only [arg, noArg, hreadA, hreadV, readEventID_scVal]
      rfl
  | emergencyWithdraw admin resolver eventID amount =>
      obtain ⟨a, ha, hreadA⟩ := encodeAddress_roundTrips admin hvalid.1
      obtain ⟨r, hr, hreadR⟩ := encodeAddress_roundTrips resolver hvalid.2
      refine ⟨_, hostFunction_eq_ok.mpr
        ⟨hfits, _, .cons ha (.cons hr (.cons rfl (.cons rfl .nil))), rfl⟩, ?_⟩
      rw [functionName, readInvocation_invoke 13 rfl]
      simp only [arg, noArg, hreadA, hreadR, readEventID_scVal, readInt64_encodeI128]
      rfl

/-! ## The account a transaction is built for -/

/-- The source of the transaction: the signer, or for a call that names none or two the account
that the caller of the service chose. -/
def source (chosen : GoString) : Invocation → Except Message GoString
  | depositFunds admin _ _ | withdrawFunds admin _ | getBalance admin | createEvent admin _ _ _ _ _
  | setEventCancelled admin _ | setEventWaitingForStart admin _ | setEventInProgress admin _ _
  | releaseCompensation admin _ _ => .ok admin
  | releaseReward judge _ _ => .ok judge
  | resolveDispute resolver _ _ => .ok resolver
  | expireEvent _ | quoteGoLiveFee _ | getDefaultResolver => .ok chosen
  | emergencyWithdraw admin resolver _ _ => do
      ensure (chosen = admin ∨ chosen = resolver)
        ⟨"escrow: emergency_withdraw source must be admin or resolver, got %q", [.str chosen]⟩
      return chosen

/-- What a build hands on: the host function and the account the transaction is built for. -/
def build (sdk : Sdk) (contract : ScAddress) (chosen : GoString) (inv : Invocation) :
    Except Message (HostFunction × GoString) := do
  let source ← inv.source chosen
  let hf ← inv.hostFunction sdk contract
  return (hf, source)

/-- The source is a signer of the call, and the only one unless funds are withdrawn in an
emergency; a call without signers takes any source. -/
theorem source_signs {chosen src : GoString} {inv : Invocation} {c : Escrow.Call}
    (hcall : inv.call sdk = some c) (hsource : inv.source chosen = .ok src) :
    c.signers = [] ∨ ∃ a, ledgerOf sdk src = some a ∧ a ∈ c.signers ∧
      ((∀ a' ∈ c.signers, a' = a) ∨
        ∃ admin resolver eventID amount, inv = .emergencyWithdraw admin resolver eventID amount) := by
  cases inv with
  | expireEvent | quoteGoLiveFee | getDefaultResolver =>
      left
      obtain rfl := Option.some_inj.mp hcall
      rfl
  | getBalance admin =>
      left
      obtain ⟨a, -, hc⟩ := Option.bind_eq_some_iff.mp hcall
      obtain rfl := Option.some_inj.mp hc
      rfl
  | withdrawFunds | setEventCancelled | setEventWaitingForStart | setEventInProgress =>
      right
      obtain rfl := Except.ok.inj hsource
      obtain ⟨a, ha, hc⟩ := Option.bind_eq_some_iff.mp hcall
      obtain rfl := Option.some_inj.mp hc
      exact ⟨a, ha, List.mem_singleton_self _, .inl fun _ => List.mem_singleton.mp⟩
  | depositFunds | releaseReward | resolveDispute | releaseCompensation =>
      right
      obtain rfl := Except.ok.inj hsource
      obtain ⟨a, ha, hrest⟩ := Option.bind_eq_some_iff.mp hcall
      obtain ⟨_, -, hc⟩ := Option.bind_eq_some_iff.mp hrest
      obtain rfl := Option.some_inj.mp hc
      exact ⟨a, ha, List.mem_singleton_self _, .inl fun _ => List.mem_singleton.mp⟩
  | createEvent =>
      right
      obtain rfl := Except.ok.inj hsource
      obtain ⟨a, ha, hjudge⟩ := Option.bind_eq_some_iff.mp hcall
      obtain ⟨_, -, hresolver⟩ := Option.bind_eq_some_iff.mp hjudge
      obtain ⟨_, -, htoken⟩ := Option.bind_eq_some_iff.mp hresolver
      obtain ⟨_, -, hc⟩ := Option.bind_eq_some_iff.mp htoken
      obtain rfl := Option.some_inj.mp hc
      exact ⟨a, ha, List.mem_singleton_self _, .inl fun _ => List.mem_singleton.mp⟩
  | emergencyWithdraw admin resolver eventID amount =>
      right
      obtain ⟨_, hchosen, hsrc⟩ := bind_eq_ok.mp hsource
      obtain rfl := pure_eq_ok.mp hsrc
      obtain ⟨a, ha, hresolver⟩ := Option.bind_eq_some_iff.mp hcall
      obtain ⟨r, hr, hc⟩ := Option.bind_eq_some_iff.mp hresolver
      obtain rfl := Option.some_inj.mp hc
      have hem : ∃ admin' resolver' eventID' amount', emergencyWithdraw admin resolver eventID amount
          = .emergencyWithdraw admin' resolver' eventID' amount' := ⟨_, _, _, _, rfl⟩
      rcases ensure_eq_ok.mp hchosen with rfl | rfl
      · exact ⟨a, ha, List.mem_cons_self, .inr hem⟩
      · exact ⟨r, hr, List.mem_cons_of_mem _ (List.mem_singleton_self _), .inr hem⟩

end Invocation

/-! ## Results -/

/-- A request of the service with valid addresses is built exactly when its payout list fits; what
is built is, to the contract, the call that was asked for, whatever the request; and two requests
with the same bytes are the same request to the same contract. -/
theorem calls_faithful (sdk : Sdk) (contract : ScAddress) :
    (∀ inv : Invocation, inv.Valid sdk →
      ((∃ hf, inv.hostFunction sdk contract = .ok hf) ↔ inv.Fits)) ∧
    (∀ (inv : Invocation) (hf : HostFunction), inv.hostFunction sdk contract = .ok hf →
      ∃ c, inv.call sdk = some c ∧ ledgerCall hf = some c) ∧
    ∀ (inv inv' : Invocation) (contract' : ScAddress) (text text' : GoString),
      inv.Valid sdk → inv'.Valid sdk →
      (inv.hostFunction sdk contract >>= sdk.marshalBase64) = .ok text →
      (inv'.hostFunction sdk contract' >>= sdk.marshalBase64) = .ok text' →
      (text = text' ↔ contract = contract' ∧ inv = inv') := by
  refine ⟨?_, ?_, ?_⟩
  · intro inv hvalid
    constructor
    · rintro ⟨hf, hhf⟩
      exact (Invocation.hostFunction_eq_ok.mp hhf).1
    · intro hfits
      obtain ⟨hf, hhf, -⟩ := Invocation.roundTrips contract inv ⟨hvalid, hfits⟩
      exact ⟨hf, hhf⟩
  · intro inv hf hhf
    obtain ⟨c, hc⟩ := Invocation.call_isSome hhf
    exact ⟨c, hc, (Invocation.ledgerCall_eq hhf).trans hc⟩
  · intro inv inv' contract' text text' hvalid hvalid' htext htext'
    constructor
    · rintro rfl
      obtain ⟨hf, hhf, hmarshal⟩ := bind_eq_ok.mp htext
      obtain ⟨hf', hhf', hmarshal'⟩ := bind_eq_ok.mp htext'
      -- one text unmarshals to one host function
      obtain rfl := Except.ok.inj
        ((sdk.unmarshal_marshal hmarshal).symm.trans (sdk.unmarshal_marshal hmarshal'))
      obtain ⟨hfits, args, -, heq⟩ := Invocation.hostFunction_eq_ok.mp hhf
      obtain ⟨hfits', args', -, heq'⟩ := Invocation.hostFunction_eq_ok.mp hhf'
      obtain ⟨rfl, -, -⟩ := HostFunction.mk.inj (heq.trans heq'.symm)
      exact ⟨rfl, (Invocation.roundTrips contract).injective ⟨hvalid, hfits⟩ ⟨hvalid', hfits'⟩
        hhf hhf'⟩
    · rintro ⟨rfl, rfl⟩
      exact Except.ok.inj (htext.symm.trans htext')

namespace Sample

/-- A creation that leaves the resolver to the contract. -/
def creation : Invocation := .createEvent judge winner [] contract 600 eventID

/-- The contract's side of the addresses of the sample. -/
def judgeAddress : Escrow.Address := .account (.ofNat 256 (ofBytes judgeKey.val))

def winnerAddress : Escrow.Address := .account (.ofNat 256 (ofBytes winnerKey.val))

def contractAddress : Escrow.Address := .contract (.ofNat 256 (ofBytes contractID.val))

theorem creation_valid : creation.Valid stellarSdk :=
  ⟨.inl ⟨judgeKey, by decide +kernel⟩, .inl ⟨winnerKey, by decide +kernel⟩, .inl rfl,
    .inr ⟨contractID.val, by decide +kernel, rfl⟩⟩

end Sample

/-- The creation reaches the contract with its six arguments, the resolver left out. -/
theorem calls_faithful_creation : ∃ hf,
    Sample.creation.hostFunction Sample.stellarSdk (.contract (some Sample.contractID)) = .ok hf ∧
    ledgerCall hf = some (.createEvent Sample.judgeAddress Sample.winnerAddress none
      Sample.contractAddress (.ofNat 600) (ledgerId Sample.eventID)) := by
  have h := calls_faithful Sample.stellarSdk (.contract (some Sample.contractID))
  obtain ⟨hf, hhf⟩ := (h.1 _ Sample.creation_valid).mpr trivial
  obtain ⟨c, hc, hledger⟩ := h.2.1 _ _ hhf
  refine ⟨hf, hhf, hledger.trans (hc.symm.trans ?_)⟩
  decide +kernel

/-- The transaction the service builds is for a signer of the call, and for the only one unless
funds are withdrawn in an emergency, where it refuses any account but the two signers; and the
signatures that the transaction collects decide about the call through its signers alone. -/
theorem source_authorizes {sdk : Sdk} {contract : ScAddress} {chosen src : GoString}
    {inv : Invocation} {hf : HostFunction} (h : inv.build sdk contract chosen = .ok (hf, src)) :
    ∃ c, ledgerCall hf = some c ∧ Escrow.SignersDecide c ∧
      (c.signers = [] ∨ ∃ a, ledgerOf sdk src = some a ∧ a ∈ c.signers ∧
        ((∀ a' ∈ c.signers, a' = a) ∨ ∃ admin resolver eventID amount,
          inv = .emergencyWithdraw admin resolver eventID amount)) := by
  obtain ⟨src', hsource, hrest⟩ := bind_eq_ok.mp h
  obtain ⟨hf', hhf, heq⟩ := bind_eq_ok.mp hrest
  obtain ⟨rfl, rfl⟩ := Prod.mk.inj (pure_eq_ok.mp heq)
  obtain ⟨c, hc⟩ := Invocation.call_isSome hhf
  exact ⟨c, (Invocation.ledgerCall_eq hhf).trans hc, c.signersDecide,
    Invocation.source_signs hc hsource⟩

namespace Sample

def emergency : Invocation := .emergencyWithdraw judge winner eventID 5

/-- What is built for it. -/
def emergencyCall : HostFunction :=
  invokeContractHF (.contract (some contractID)) "emergency_withdraw"
    [.address (some (.account (some judgeKey))), .address (some (.account (some winnerKey))),
      eventID.scVal, encodeI128 5]

theorem ledgerCall_emergencyCall : ledgerCall emergencyCall =
    some (.emergencyWithdraw judgeAddress winnerAddress (ledgerId eventID) (.ofNat 5)) := by
  rw [emergencyCall, ledgerCall_invoke 11 rfl]
  decide +kernel

end Sample

/-- An emergency withdrawal that the resolver pays for needs the organizer's signature as well. -/
theorem source_authorizes_emergency : ∃ c,
    Sample.emergency.build Sample.stellarSdk (.contract (some Sample.contractID)) Sample.winner
      = .ok (Sample.emergencyCall, Sample.winner) ∧
    ledgerCall Sample.emergencyCall = some c ∧ Escrow.SignersDecide c ∧
    c.signers = [Sample.judgeAddress, Sample.winnerAddress] := by
  have h : Sample.emergency.build Sample.stellarSdk (.contract (some Sample.contractID))
      Sample.winner = .ok (Sample.emergencyCall, Sample.winner) := by decide +kernel
  obtain ⟨c, hledger, hdecide, -⟩ := source_authorizes h
  refine ⟨c, h, hledger, hdecide, ?_⟩
  rw [Option.some_inj.mp (hledger.symm.trans Sample.ledgerCall_emergencyCall)]
  rfl

end Soroban
