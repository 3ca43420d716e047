/-
# The entry points of the contract

The functions of `lib.rs` with the types of their arguments, which the host reads off a host
function.  What the service builds for a request is read as the call that the service means.
-/
import Astrea.HostCalls

open Guard RoundTrip Service

namespace Soroban

variable {sdk : Sdk}

/-! ## Entry points -/

/-- A function of a contract: it takes its arguments off the list. -/
abbrev EntryPoint (α : Type) : Type := List ScVal → Option α

/-- No argument is left. -/
def noArg {α : Type} (a : α) : EntryPoint α
  | [] => some a
  | _ :: _ => none

/-- The next argument, of the type that `read` reads. -/
def arg {α β : Type} (read : ScVal → Option β) (rest : β → EntryPoint α) : EntryPoint α
  | [] => none
  | v :: vs => read v >>= fun b => rest b vs

/-- The call of a contract whose functions have these names. -/
def dispatch {α : Type} : List (String × EntryPoint α) → HostFunction → Option α
  | [], _ => none
  | (name, entry) :: table, hf =>
      if hf.functionName = Service.bytes name then entry hf.args else dispatch table hf

/-- A function is found under its name, which no other has. -/
theorem dispatch_invoke {α : Type} {table : List (String × EntryPoint α)} {name : String}
    {entry : EntryPoint α} {contract : ScAddress} {args : List ScVal}
    (hdistinct : (table.map fun e => Service.bytes e.1).Nodup) (hmem : (name, entry) ∈ table) :
    dispatch table (invokeContractHF contract name args) = entry args := by
  induction table with
  | nil => exact absurd hmem List.not_mem_nil
  | cons e table ih =>
      obtain ⟨hfresh, hrest⟩ := List.nodup_cons.mp hdistinct
      rw [dispatch]
      rcases List.mem_cons.mp hmem with rfl | hin
      · exact if_pos rfl
      · have hne : ¬ Service.bytes name = Service.bytes e.1 := fun heq =>
          hfresh (List.mem_map.mpr ⟨_, hin, heq⟩)
        exact (if_neg hne).trans (ih hrest hin)

/-! ## What the contract reads -/

/-- The number that some bytes denote, the most significant first. -/
def ofBytes (b : GoString) : ℕ := b.foldl (fun n c => 256 * n + c.toNat) 0

/-- The contract's `Address`. -/
def ledgerAddress : ScVal → Option Escrow.Address
  | .address (some (.account (some id))) => some (.account (.ofNat 256 (ofBytes id.val)))
  | .address (some (.contract (some id))) => some (.contract (.ofNat 256 (ofBytes id.val)))
  | _ => none

/-- The contract's `i128`. -/
def ledgerI128 : ScVal → Option Escrow.I128
  | .i128 parts => BoundedInt.ofInt _ _ parts.toInt
  | _ => none

/-- The contract's `Winner`. -/
def ledgerWinner (v : ScVal) : Option Escrow.Winner := do
  match ← structFields ["address", "amount", "place"] v with
  | [address, amount, place] =>
      return ⟨← readU32 place, ← ledgerI128 amount, ← ledgerAddress address⟩
  | _ => none

/-- The contract's `Vec<Winner>`. -/
def ledgerWinners : ScVal → Option (List Escrow.Winner)
  | .vec items => items.mapM ledgerWinner
  | _ => none

/-- The contract's `BytesN<16>`. -/
def ledgerEventID : ScVal → Option Escrow.EventId
  | .bytes b => if b.length = 16 then some (.ofNat 128 (ofBytes b)) else none
  | _ => none

def ledgerBool : ScVal → Option Bool
  | .other type body =>
      if type = "ScValTypeScvBool" then
        if body = [0, 0, 0, 1] then some true else if body = [0, 0, 0, 0] then some false else none
      else none
  | _ => none

def readU64 : ScVal → Option UInt64
  | .u64 v => some v
  | _ => none

/-- `Option<Address>`. -/
def ledgerResolver (v : ScVal) : Option (Option Escrow.Address) :=
  if v = scVoid then some none else (ledgerAddress v).map some

/-- The contract's `Participants`. -/
def ledgerParticipant (v : ScVal) : Option Escrow.Participants := do
  match ← structFields ["address", "amount_compensation"] v with
  | [address, amountCompensation] =>
      return ⟨← ledgerAddress address, ← ledgerI128 amountCompensation⟩
  | _ => none

/-- The contract's `Vec<Participants>`. -/
def ledgerParticipants : ScVal → Option (List Escrow.Participants)
  | .vec items => items.mapM ledgerParticipant
  | _ => none

/-- The functions of `lib.rs` with the types of their arguments. -/
def entryPoints : List (String × EntryPoint Escrow.Call) :=
  [("deposit_funds", arg ledgerAddress fun admin => arg ledgerAddress fun token =>
      arg ledgerI128 fun amount => noArg (.depositFunds admin token amount)),
    ("withdraw_funds", arg ledgerAddress fun admin => arg ledgerI128 fun amount =>
      noArg (.withdrawFunds admin amount)),
    ("get_balance", arg ledgerAddress fun admin => noArg (.getBalance admin)),
    ("has_wallet", arg ledgerAddress fun admin => noArg (.hasWallet admin)),
    ("create_event", arg ledgerAddress fun admin => arg ledgerAddress fun judge =>
      arg ledgerResolver fun resolver => arg ledgerAddress fun token =>
      arg ledgerI128 fun reward => arg ledgerEventID fun eventId =>
      noArg (.createEvent admin judge resolver token reward eventId)),
    ("create_event_with_deadline", arg ledgerAddress fun admin => arg ledgerAddress fun judge =>
      arg ledgerResolver fun resolver => arg ledgerAddress fun token =>
      arg ledgerI128 fun reward => arg ledgerEventID fun eventId => arg readU64 fun deadline =>
      noArg (.createEventWithDeadline admin judge resolver token reward eventId deadline)),
    ("expire_event", arg ledgerEventID fun eventId => noArg (.expireEvent eventId)),
    ("set_event_waiting_for_start", arg ledgerAddress fun admin => arg ledgerEventID fun eventId =>
      noArg (.setEventWaitingForStart admin eventId)),
    ("set_event_in_progress", arg ledgerAddress fun admin => arg ledgerEventID fun eventId =>
      arg readU64 fun judgingDeadline => noArg (.setEventInProgress admin eventId judgingDeadline)),
    ("quote_go_live_fee", arg ledgerEventID fun eventId => noArg (.quoteGoLiveFee eventId)),
    ("set_event_cancelled", arg ledgerAddress fun admin => arg ledgerEventID fun eventId =>
      noArg (.setEventCancelled admin eventId)),
    ("emergency_withdraw", arg ledgerAddress fun admin => arg ledgerAddress fun resolver =>
      arg ledgerEventID fun eventId => arg ledgerI128 fun amount =>
      noArg (.emergencyWithdraw admin resolver eventId amount)),
    ("release_compensation", arg ledgerAddress fun admin => arg ledgerEventID fun eventId =>
      arg ledgerParticipants fun participants =>
      noArg (.releaseCompensation admin eventId participants)),
    ("release_reward", arg ledgerAddress fun judge => arg ledgerEventID fun eventId =>
      arg ledgerWinners fun winners => noArg (.releaseReward judge eventId winners)),
    ("resolve_dispute", arg ledgerAddress fun resolver => arg ledgerEventID fun eventId =>
      arg ledgerWinners fun winners => noArg (.resolveDispute resolver eventId winners)),
    ("get_events_by_admin", arg ledgerAddress fun admin => noArg (.getEventsByAdmin admin)),
    ("get_events_by_admin_page", arg ledgerAddress fun admin => arg readU32 fun offset =>
      arg readU32 fun limit => noArg (.getEventsByAdminPage admin offset limit)),
    ("get_events_by_admin_count", arg ledgerAddress fun admin =>
      noArg (.getEventsByAdminCount admin)),
    ("get_event", arg ledgerEventID fun eventId => noArg (.getEvent eventId)),
    ("initialize_emergency_admin", arg ledgerAddress fun emergencyAdmin =>
      noArg (.initializeEmergencyAdmin emergencyAdmin)),
    ("initialize_default_resolver", arg ledgerAddress fun caller =>
      arg ledgerAddress fun defaultResolver =>
      noArg (.initializeDefaultResolver caller defaultResolver)),
    ("get_default_resolver", noArg .getDefaultResolver),
    ("set_paused", arg ledgerAddress fun caller => arg ledgerBool fun paused =>
      noArg (.setPaused caller paused)),
    ("set_admin_paused", arg ledgerAddress fun caller => arg ledgerAddress fun targetAdmin =>
      arg ledgerBool fun paused => noArg (.setAdminPaused caller targetAdmin paused)),
    ("is_paused", noArg .isPaused),
    ("is_admin_paused", arg ledgerAddress fun admin => noArg (.isAdminPaused admin)),
    ("set_token_whitelist_enabled", arg ledgerAddress fun caller => arg ledgerBool fun enabled =>
      noArg (.setTokenWhitelistEnabled caller enabled)),
    ("set_token_allowed", arg ledgerAddress fun caller => arg ledgerAddress fun token =>
      arg ledgerBool fun allowed => noArg (.setTokenAllowed caller token allowed)),
    ("is_token_allowed", arg ledgerAddress fun token => noArg (.isTokenAllowed token)),
    ("initialize_treasury", arg ledgerAddress fun caller => arg ledgerAddress fun treasury =>
      noArg (.initializeTreasury caller treasury)),
    ("get_treasury", noArg .getTreasury),
    ("set_fee_bps", arg ledgerAddress fun caller => arg readU32 fun feeBps =>
      noArg (.setFeeBps caller feeBps)),
    ("get_fee_bps", noArg .getFeeBps)]

theorem entryPoints_distinct : (entryPoints.map fun e => Service.bytes e.1).Nodup := by
  decide +kernel

/-- The call that a host function is to the contract. -/
def ledgerCall (hf : HostFunction) : Option Escrow.Call := dispatch entryPoints hf

/-! ## What the service means -/

/-- The ledger address that a strkey names. -/
def ledgerOf (sdk : Sdk) (address : GoString) : Option Escrow.Address :=
  (encodeAddress sdk address).toOption.bind ledgerAddress

/-- The event that an identifier names. -/
def ledgerId (eventID : EventID) : Escrow.EventId := .ofNat 128 (ofBytes eventID.val)

def meantWinner (sdk : Sdk) (w : Winner) : Option Escrow.Winner := do
  return ⟨w.place, Service.encodeI128 w.amount, ← ledgerOf sdk w.address⟩

def meantParticipant (sdk : Sdk) (p : Participant) : Option Escrow.Participants := do
  return ⟨← ledgerOf sdk p.address, Service.encodeI128 p.amountCompensation⟩

/-- An empty resolver names none. -/
def meantResolver (sdk : Sdk) (resolver : GoString) : Option (Option Escrow.Address) :=
  if resolver = [] then some none else (ledgerOf sdk resolver).map some

namespace Invocation

/-- The call that the service asks for. -/
def call (sdk : Sdk) : Invocation → Option Escrow.Call
  | depositFunds admin token amount => do
      return .depositFunds (← ledgerOf sdk admin) (← ledgerOf sdk token)
        (Service.encodeI128 amount)
  | withdrawFunds admin amount => do
      return .withdrawFunds (← ledgerOf sdk admin) (Service.encodeI128 amount)
  | getBalance admin => do return .getBalance (← ledgerOf sdk admin)
  | createEvent admin judge resolver token reward eventID => do
      return .createEvent (← ledgerOf sdk admin) (← ledgerOf sdk judge)
        (← meantResolver sdk resolver) (← ledgerOf sdk token) (Service.encodeI128 reward)
        (ledgerId eventID)
  | setEventCancelled admin eventID => do
      return .setEventCancelled (← ledgerOf sdk admin) (ledgerId eventID)
  | setEventWaitingForStart admin eventID => do
      return .setEventWaitingForStart (← ledgerOf sdk admin) (ledgerId eventID)
  | setEventInProgress admin eventID judgingDeadline => do
      return .setEventInProgress (← ledgerOf sdk admin) (ledgerId eventID) judgingDeadline
  | expireEvent eventID => some (.expireEvent (ledgerId eventID))
  | quoteGoLiveFee eventID => some (.quoteGoLiveFee (ledgerId eventID))
  | getDefaultResolver => some .getDefaultResolver
  | releaseReward judge eventID winners => do
      return .releaseReward (← ledgerOf sdk judge) (ledgerId eventID)
        (← winners.mapM (meantWinner sdk))
  | resolveDispute resolver eventID winners => do
      return .resolveDispute (← ledgerOf sdk resolver) (ledgerId eventID)
        (← winners.mapM (meantWinner sdk))
  | releaseCompensation admin eventID participants => do
      return .releaseCompensation (← ledgerOf sdk admin) (ledgerId eventID)
        (← participants.mapM (meantParticipant sdk))
  | emergencyWithdraw admin resolver eventID amount => do
      return .emergencyWithdraw (← ledgerOf sdk admin) (← ledgerOf sdk resolver)
        (ledgerId eventID) (Service.encodeI128 amount)

end Invocation

/-! ### Values -/

/-- An encoded address names what its strkey names. -/
theorem ledgerOf_eq {address : GoString} {v : ScVal} (h : encodeAddress sdk address = .ok v) :
    ledgerOf sdk address = ledgerAddress v := by
  rw [ledgerOf, h]
  rfl

/-- The ledger reads the amount that was encoded. -/
theorem ledgerI128_encodeI128 (v : Int64) :
    ledgerI128 (encodeI128 v) = some (Service.encodeI128 v) := by
  obtain ⟨parts, hencode, hvalue⟩ := encodeI128_toInt v
  rw [hencode]
  exact BoundedInt.ofInt_eq_some.mpr hvalue.symm

theorem ledgerEventID_scVal (eventID : EventID) :
    ledgerEventID eventID.scVal = some (ledgerId eventID) := if_pos eventID.length_eq

/-- An encoded address is an address, of an account or a contract. -/
theorem encodeAddress_eq_ok {address : GoString} {v : ScVal} :
    encodeAddress sdk address = .ok v →
      ∃ b, v = .address (some (.account (some b))) ∨ v = .address (some (.contract (some b))) := by
  intro h
  rw [encodeAddress] at h
  split at h
  · exact ⟨_, .inl (Except.ok.inj h).symm⟩
  · obtain ⟨a, ha, hv⟩ := bind_eq_ok.mp h
    obtain ⟨raw, -, rfl⟩ := contractAddress_eq_ok.mp (wrapErr_eq_ok.mp ha)
    exact ⟨_, .inr (pure_eq_ok.mp hv).symm⟩

theorem ledgerAddress_isSome {address : GoString} {v : ScVal}
    (h : encodeAddress sdk address = .ok v) : ∃ a, ledgerAddress v = some a := by
  obtain ⟨b, rfl | rfl⟩ := encodeAddress_eq_ok h
  · exact ⟨_, rfl⟩
  · exact ⟨_, rfl⟩

/-- The ledger reads the resolver that was meant. -/
theorem ledgerResolver_eq {resolver : GoString} {v : ScVal}
    (h : resolverScVal sdk resolver = .ok v) :
    ledgerResolver v = meantResolver sdk resolver := by
  rw [meantResolver]
  rw [resolverScVal] at h
  split_ifs at h ⊢ with hempty
  · rw [← Except.ok.inj h]
    rfl
  · have hv := wrapErr_eq_ok.mp h
    rw [ledgerOf_eq hv]
    obtain ⟨b, rfl | rfl⟩ := encodeAddress_eq_ok hv
    · exact if_neg nofun
    · exact if_neg nofun

/-- The ledger reads the winner that was meant. -/
theorem meantWinner_eq {w : Winner} {v : ScVal} (h : winnerScVal sdk w = .ok v) :
    ledgerWinner v = meantWinner sdk w := by
  obtain ⟨a, ha, rfl⟩ := winnerScVal_eq_ok.mp h
  rw [ledgerWinner, structFields_map rfl, meantWinner, ledgerOf_eq ha]
  simp only [readU32, List.map_cons, List.map_nil, Option.bind_eq_bind, Option.bind_some,
    ledgerI128_encodeI128]

/-- The ledger reads the participant that was meant. -/
theorem meantParticipant_eq {p : Participant} {v : ScVal} (h : participantScVal sdk p = .ok v) :
    ledgerParticipant v = meantParticipant sdk p := by
  obtain ⟨a, ha, rfl⟩ := participantScVal_eq_ok.mp h
  rw [ledgerParticipant, structFields_map rfl, meantParticipant, ledgerOf_eq ha]
  simp only [List.map_cons, List.map_nil, Option.bind_eq_bind, Option.bind_some,
    ledgerI128_encodeI128]

theorem ledgerOf_isSome {address : GoString} {v : ScVal} (h : encodeAddress sdk address = .ok v) :
    ∃ a, ledgerOf sdk address = some a := ledgerOf_eq h ▸ ledgerAddress_isSome h

theorem meantResolver_isSome {resolver : GoString} {v : ScVal}
    (h : resolverScVal sdk resolver = .ok v) : ∃ r, meantResolver sdk resolver = some r := by
  rw [meantResolver]
  rw [resolverScVal] at h
  split_ifs at h ⊢
  · exact ⟨none, rfl⟩
  · obtain ⟨a, ha⟩ := ledgerOf_isSome (wrapErr_eq_ok.mp h)
    exact ⟨some a, by rw [ha, Option.map_some]⟩

/-- A list whose elements all mean something. -/
theorem mapM_isSome_of_encodes {α β : Type} {one : α → Except Message ScVal} {meant : α → Option β}
    (hone : ∀ a v, one a = .ok v → ∃ b, meant a = some b) {as : List α} {items : List ScVal}
    (h : Encodes one as items) : ∃ bs, as.mapM meant = some bs := by
  induction h with
  | nil => exact ⟨[], rfl⟩
  | cons hv _ ih =>
      obtain ⟨b, hb⟩ := hone _ _ hv
      obtain ⟨bs, hbs⟩ := ih
      exact ⟨b :: bs, by rw [List.mapM_cons, hb, hbs]; rfl⟩

theorem meantWinners_isSome {ws : List Winner} {v : ScVal} (h : winnersScVal sdk ws = .ok v) :
    ∃ ws', ws.mapM (meantWinner sdk) = some ws' := by
  obtain ⟨items, hitems, -⟩ := winnersScVal_eq_ok.mp h
  refine mapM_isSome_of_encodes (fun w v hv => ?_) hitems
  obtain ⟨a, ha, -⟩ := winnerScVal_eq_ok.mp hv
  obtain ⟨a', ha'⟩ := ledgerOf_isSome ha
  exact ⟨_, by rw [meantWinner, ha']; rfl⟩

theorem meantParticipants_isSome {ps : List Participant} {v : ScVal}
    (h : participantsScVal sdk ps = .ok v) :
    ∃ ps', ps.mapM (meantParticipant sdk) = some ps' := by
  obtain ⟨items, hitems, -⟩ := participantsScVal_eq_ok.mp h
  refine mapM_isSome_of_encodes (fun p v hv => ?_) hitems
  obtain ⟨a, ha, -⟩ := participantScVal_eq_ok.mp hv
  obtain ⟨a', ha'⟩ := ledgerOf_isSome ha
  exact ⟨_, by rw [meantParticipant, ha']; rfl⟩

/-- A list whose elements are read as they are meant. -/
theorem mapM_eq_of_encodes {α β : Type} {one : α → Except Message ScVal} {read : ScVal → Option β}
    {meant : α → Option β} (hone : ∀ a v, one a = .ok v → read v = meant a) {as : List α}
    {items : List ScVal} (h : Encodes one as items) : items.mapM read = as.mapM meant := by
  induction h with
  | nil => rfl
  | cons hv _ ih => rw [List.mapM_cons, List.mapM_cons, hone _ _ hv, ih]

/-- The ledger reads the winners that were meant. -/
theorem ledgerWinners_eq {ws : List Winner} {v : ScVal} (h : winnersScVal sdk ws = .ok v) :
    ledgerWinners v = ws.mapM (meantWinner sdk) := by
  obtain ⟨items, hitems, rfl⟩ := winnersScVal_eq_ok.mp h
  exact mapM_eq_of_encodes (fun _ _ => meantWinner_eq) hitems

/-- The ledger reads the participants that were meant. -/
theorem ledgerParticipants_eq {ps : List Participant} {v : ScVal}
    (h : participantsScVal sdk ps = .ok v) :
    ledgerParticipants v = ps.mapM (meantParticipant sdk) := by
  obtain ⟨items, hitems, rfl⟩ := participantsScVal_eq_ok.mp h
  exact mapM_eq_of_encodes (fun _ _ => meantParticipant_eq) hitems

/-! ### Calls -/

/-- The entry at a place of the table is found under its name. -/
theorem ledgerCall_invoke {name : String} {entry : EntryPoint Escrow.Call} {contract : ScAddress}
    {args : List ScVal} (i : ℕ) (h : entryPoints[i]? = some (name, entry)) :
    ledgerCall (invokeContractHF contract name args) = entry args :=
  dispatch_invoke entryPoints_distinct (List.mem_of_getElem? h)

/-- The contract runs the call that the service asks for. -/
theorem Invocation.ledgerCall_eq {contract : ScAddress} {inv : Invocation} {hf : HostFunction}
    (h : inv.hostFunction sdk contract = .ok hf) : ledgerCall hf = inv.call sdk := by
  have hargs := (hostFunction_eq_ok.mp h).2
  cases inv with
  | depositFunds admin token amount =>
      simp only [arguments, exists_args_cons, exists_args_nil, Except.ok.injEq,
        exists_eq_left'] at hargs
      obtain ⟨a, ha, t, ht, rfl⟩ := hargs
      rw [functionName, ledgerCall_invoke 0 rfl]
      simp only [arg, noArg, call, ledgerOf_eq ha, ledgerOf_eq ht, ledgerI128_encodeI128]
      rfl
  | withdrawFunds admin amount =>
      simp only [arguments, exists_args_cons, exists_args_nil, Except.ok.injEq,
        exists_eq_left'] at hargs
      obtain ⟨a, ha, rfl⟩ := hargs
      rw [functionName, ledgerCall_invoke 1 rfl]
      simp only [arg, noArg, call, ledgerOf_eq ha, ledgerI128_encodeI128]
      rfl
  | getBalance admin =>
      simp only [arguments, exists_args_cons, exists_args_nil] at hargs
      obtain ⟨a, ha, rfl⟩ := hargs
      rw [functionName, ledgerCall_invoke 2 rfl]
      simp only [arg, noArg, call, ledgerOf_eq ha]
      rfl
  | createEvent admin judge resolver token reward eventID =>
      simp only [arguments, exists_args_cons, exists_args_nil, Except.ok.injEq,
        exists_eq_left'] at hargs
      obtain ⟨a, ha, j, hj, r, hr, t, ht, rfl⟩ := hargs
      rw [functionName, ledgerCall_invoke 4 rfl]
      simp only [arg, noArg, call, ledgerOf_eq ha, ledgerOf_eq hj, ledgerResolver_eq hr,
        ledgerOf_eq ht, ledgerI128_encodeI128, ledgerEventID_scVal]
      rfl
  | setEventCancelled admin eventID =>
      simp only [arguments, exists_args_cons, exists_args_nil, Except.ok.injEq,
        exists_eq_left'] at hargs
      obtain ⟨a, ha, rfl⟩ := hargs
      rw [functionName, ledgerCall_invoke 10 rfl]
      simp only [arg, noArg, call, ledgerOf_eq ha, ledgerEventID_scVal]
      rfl
  | setEventWaitingForStart admin eventID =>
      simp only [arguments, exists_args_cons, exists_args_nil, Except.ok.injEq,
        exists_eq_left'] at hargs
      obtain ⟨a, ha, rfl⟩ := hargs
      rw [functionName, ledgerCall_invoke 7 rfl]
      simp only [arg, noArg, call, ledgerOf_eq ha, ledgerEventID_scVal]
      rfl
  | setEventInProgress admin eventID judgingDeadline =>
      simp only [arguments, exists_args_cons, exists_args_nil, Except.ok.injEq,
        exists_eq_left'] at hargs
      obtain ⟨a, ha, rfl⟩ := hargs
      rw [functionName, ledgerCall_invoke 8 rfl]
      simp only [arg, noArg, call, ledgerOf_eq ha, ledgerEventID_scVal, scU64, readU64]
      rfl
  | expireEvent eventID =>
      simp only [arguments, exists_args_cons, exists_args_nil, Except.ok.injEq,
        exists_eq_left'] at hargs
      obtain rfl := hargs
      rw [functionName, ledgerCall_invoke 6 rfl]
      simp only [arg, noArg, call, ledgerEventID_scVal]
      rfl
  | quoteGoLiveFee eventID =>
      simp only [arguments, exists_args_cons, exists_args_nil, Except.ok.injEq,
        exists_eq_left'] at hargs
      obtain rfl := hargs
      rw [functionName, ledgerCall_invoke 9 rfl]
      simp only [arg, noArg, call, ledgerEventID_scVal]
      rfl
  | getDefaultResolver =>
      obtain rfl := exists_args_nil.mp hargs
      exact ledgerCall_invoke 21 rfl
  | releaseReward judge eventID winners =>
      simp only [arguments, exists_args_cons, exists_args_nil, Except.ok.injEq,
        exists_eq_left'] at hargs
      obtain ⟨a, ha, v, hv, rfl⟩ := hargs
      rw [functionName, ledgerCall_invoke 13 rfl]
      simp only [arg, noArg, call, ledgerOf_eq ha, ledgerEventID_scVal, ledgerWinners_eq hv]
      rfl
  | resolveDispute resolver eventID winners =>
      simp only [arguments, exists_args_cons, exists_args_nil, Except.ok.injEq,
        exists_eq_left'] at hargs
      obtain ⟨a, ha, v, hv, rfl⟩ := hargs
      rw [functionName, ledgerCall_invoke 14 rfl]
      simp only [arg, noArg, call, ledgerOf_eq ha, ledgerEventID_scVal, ledgerWinners_eq hv]
      rfl
  | releaseCompensation admin eventID participants =>
      simp only [arguments, exists_args_cons, exists_args_nil, Except.ok.injEq,
        exists_eq_left'] at hargs
      obtain ⟨a, ha, v, hv, rfl⟩ := hargs
      rw [functionName, ledgerCall_invoke 12 rfl]
      simp only [arg, noArg, call, ledgerOf_eq ha, ledgerEventID_scVal, ledgerParticipants_eq hv]
      rfl
  | emergencyWithdraw admin resolver eventID amount =>
      simp only [arguments, exists_args_cons, exists_args_nil, Except.ok.injEq,
        exists_eq_left'] at hargs
      obtain ⟨a, ha, r, hr, rfl⟩ := hargs
      rw [functionName, ledgerCall_invoke 11 rfl]
      simp only [arg, noArg, call, ledgerOf_eq ha, ledgerOf_eq hr, ledgerEventID_scVal,
        ledgerI128_encodeI128]
      rfl

/-- What the service can build means a call. -/
theorem Invocation.call_isSome {contract : ScAddress} {inv : Invocation} {hf : HostFunction}
    (h : inv.hostFunction sdk contract = .ok hf) : ∃ c, inv.call sdk = some c := by
  have hargs := (hostFunction_eq_ok.mp h).2
  cases inv with
  | expireEvent | quoteGoLiveFee | getDefaultResolver => exact ⟨_, rfl⟩
  | withdrawFunds | getBalance | setEventCancelled | setEventWaitingForStart
  | setEventInProgress =>
      simp only [arguments, exists_args_cons] at hargs
      obtain ⟨a, ha, -⟩ := hargs
      obtain ⟨a', ha'⟩ := ledgerOf_isSome ha
      exact ⟨_, by simp only [call, ha']; rfl⟩
  | depositFunds | emergencyWithdraw =>
      simp only [arguments, exists_args_cons] at hargs
      obtain ⟨a, ha, b, hb, -⟩ := hargs
      obtain ⟨a', ha'⟩ := ledgerOf_isSome ha
      obtain ⟨b', hb'⟩ := ledgerOf_isSome hb
      exact ⟨_, by simp only [call, ha', hb']; rfl⟩
  | createEvent =>
      simp only [arguments, exists_args_cons] at hargs
      obtain ⟨a, ha, j, hj, r, hr, t, ht, -⟩ := hargs
      obtain ⟨a', ha'⟩ := ledgerOf_isSome ha
      obtain ⟨j', hj'⟩ := ledgerOf_isSome hj
      obtain ⟨r', hr'⟩ := meantResolver_isSome hr
      obtain ⟨t', ht'⟩ := ledgerOf_isSome ht
      exact ⟨_, by simp only [call, ha', hj', hr', ht']; rfl⟩
  | releaseReward | resolveDispute =>
      simp only [arguments, exists_args_cons] at hargs
      obtain ⟨a, ha, -, -, v, hv, -⟩ := hargs
      obtain ⟨a', ha'⟩ := ledgerOf_isSome ha
      obtain ⟨ws, hws⟩ := meantWinners_isSome hv
      exact ⟨_, by simp only [call, ha', hws]; rfl⟩
  | releaseCompensation =>
      simp only [arguments, exists_args_cons] at hargs
      obtain ⟨a, ha, -, -, v, hv, -⟩ := hargs
      obtain ⟨a', ha'⟩ := ledgerOf_isSome ha
      obtain ⟨ps, hps⟩ := meantParticipants_isSome hv
      exact ⟨_, by simp only [call, ha', hps]; rfl⟩

end Soroban
