/-
# The arguments are the lists

What `winnersScVal` and `participantsScVal` make of a list can be read back field by field: a map
with the sorted field names for every line, in the order of the lines.  So the host functions of two
payouts have the same bytes only if the payouts are the same.
-/
import Astrea.HandlersRelease
import Astrea.I128Exact
import Astrea.RoundTrip

open Guard RoundTrip Service

namespace Soroban

variable {sdk : Sdk}

/-! ## Reading a value -/

/-- The values of a map whose keys are these symbols, in this order.  The host unpacks no other map
into a structure with these fields. -/
def structFields (names : List String) : ScVal → Option (List ScVal)
  | .map entries =>
      if entries.map Prod.fst = names.map scSymbol then some (entries.map Prod.snd) else none
  | _ => none

def readU32 : ScVal → Option UInt32
  | .u32 v => some v
  | _ => none

/-- The two's complement value of an `i128`, when it is that of an `int64`. -/
def readInt64 : ScVal → Option Int64
  | .i128 parts => if InInt64 parts.toInt then some (Int64.ofInt parts.toInt) else none
  | _ => none

def readAddress (sdk : Sdk) (v : ScVal) : Option GoString := (decodeAddressToString sdk v).toOption

def readWinner (sdk : Sdk) (v : ScVal) : Option Winner := do
  match ← structFields ["address", "amount", "place"] v with
  | [address, amount, place] =>
      return ⟨← readU32 place, ← readInt64 amount, ← readAddress sdk address⟩
  | _ => none

def readParticipant (sdk : Sdk) (v : ScVal) : Option Participant := do
  match ← structFields ["address", "amount_compensation"] v with
  | [address, amountCompensation] =>
      return ⟨← readAddress sdk address, ← readInt64 amountCompensation⟩
  | _ => none

/-- A map with the fields of a structure gives their values. -/
theorem structFields_map {names : List String} {entries : List (ScVal × ScVal)}
    (h : entries.map Prod.fst = names.map scSymbol) :
    structFields names (.map entries) = some (entries.map Prod.snd) := if_pos h

/-! ## The round trip of a line -/

theorem contractAddress_eq_ok {contractID : GoString} {a : ScAddress} :
    contractAddress sdk contractID = .ok a ↔
      ∃ raw, sdk.decodeContract contractID = .ok raw ∧ .contract (some (.copy 32 raw)) = a := by
  simp only [contractAddress, bind_eq_ok, wrapErr_eq_ok, pure_eq_ok]

/-- A valid address is read back from its encoding, whichever kind it is. -/
theorem encodeAddress_roundTrips :
    RoundTrips sdk.Valid (encodeAddress sdk) (readAddress sdk) := by
  intro address hvalid
  unfold encodeAddress
  cases haccount : sdk.addressToAccountID address with
  | ok id =>
      refine ⟨_, rfl, ?_⟩
      show some (sdk.accountAddress id) = some address
      rw [sdk.account_address haccount]
  | error err =>
      rcases hvalid with ⟨id, hid⟩ | ⟨raw, hraw, hlength⟩
      · cases haccount.symm.trans hid
      · have hcontract := contractAddress_eq_ok.mpr ⟨raw, hraw, rfl⟩
        refine ⟨.address (some (.contract (some (.copy 32 raw)))), ?_, ?_⟩
        · dsimp only
          rw [hcontract]
          rfl
        · show (sdk.encodeContract (Bytes.copy 32 raw).val).toOption = some address
          rw [Bytes.copy_val hlength, sdk.contract_encode hraw hlength]
          rfl

/-- The amount is read back, negative or not. -/
theorem readInt64_encodeI128 (v : Int64) : readInt64 (encodeI128 v) = some v := by
  obtain ⟨parts, hencode, hvalue⟩ := encodeI128_toInt v
  rw [hencode]
  have hfits : InInt64 parts.toInt := hvalue ▸ inInt64_toInt v
  rw [readInt64, if_pos hfits, hvalue, Int64.ofInt_toInt]

theorem winnerScVal_eq_ok {w : Winner} {v : ScVal} :
    winnerScVal sdk w = .ok v ↔ ∃ a, encodeAddress sdk w.address = .ok a ∧
      .map [(scSymbol "address", a), (scSymbol "amount", encodeI128 w.amount),
        (scSymbol "place", .u32 w.place)] = v := by
  simp only [winnerScVal, bind_eq_ok, wrapErr_eq_ok, pure_eq_ok, scMap, scU32]

theorem participantScVal_eq_ok {p : Participant} {v : ScVal} :
    participantScVal sdk p = .ok v ↔ ∃ a, encodeAddress sdk p.address = .ok a ∧
      .map [(scSymbol "address", a),
        (scSymbol "amount_compensation", encodeI128 p.amountCompensation)] = v := by
  simp only [participantScVal, bind_eq_ok, wrapErr_eq_ok, pure_eq_ok, scMap]

/-- A winner that is encoded is read back. -/
theorem winnerScVal_roundTrips :
    RoundTrips (fun w => sdk.Valid w.address) (winnerScVal sdk) (readWinner sdk) := by
  intro w hvalid
  obtain ⟨a, ha, hread⟩ := encodeAddress_roundTrips w.address hvalid
  refine ⟨_, winnerScVal_eq_ok.mpr ⟨a, ha, rfl⟩, ?_⟩
  rw [readWinner, structFields_map rfl]
  simp only [List.map_cons, List.map_nil, Option.bind_eq_bind, Option.bind_some, hread,
    readInt64_encodeI128]
  rfl

/-- A participant that is encoded is read back. -/
theorem participantScVal_roundTrips :
    RoundTrips (fun p => sdk.Valid p.address) (participantScVal sdk) (readParticipant sdk) := by
  intro p hvalid
  obtain ⟨a, ha, hread⟩ := encodeAddress_roundTrips p.address hvalid
  refine ⟨_, participantScVal_eq_ok.mpr ⟨a, ha, rfl⟩, ?_⟩
  rw [readParticipant, structFields_map rfl]
  simp only [List.map_cons, List.map_nil, Option.bind_eq_bind, Option.bind_some, hread,
    readInt64_encodeI128]
  rfl

/-! ## The round trip of a list -/

/-- The elements of a list are encoded one by one, whatever their numbers in the complaints. -/
theorem scVals_eq_ok {α : Type} {format : String} {one : α → Except Message ScVal} {i : ℕ}
    {as : List α} {vals : List ScVal} :
    scVals format one i as = .ok vals ↔ Encodes one as vals := by
  induction as generalizing i vals with
  | nil =>
      rw [scVals, Encodes, List.forall₂_nil_left_iff]
      exact ⟨fun h => (Except.ok.inj h).symm, fun h => congrArg _ h.symm⟩
  | cons a as ih =>
      simp only [scVals, bind_eq_ok, wrapErr_eq_ok, pure_eq_ok, ih, Encodes,
        List.forall₂_cons_left_iff]
      constructor
      · rintro ⟨v, hv, vals, hvals, rfl⟩
        exact ⟨v, vals, hv, hvals, rfl⟩
      · rintro ⟨v, vals, hv, hvals, rfl⟩
        exact ⟨v, hv, vals, hvals, rfl⟩

theorem winnersScVal_eq_ok {ws : List Winner} {v : ScVal} :
    winnersScVal sdk ws = .ok v ↔ ∃ items, Encodes (winnerScVal sdk) ws items ∧ .vec items = v := by
  simp only [winnersScVal, bind_eq_ok, scVals_eq_ok, pure_eq_ok, scVec]

theorem participantsScVal_eq_ok {ps : List Participant} {v : ScVal} :
    participantsScVal sdk ps = .ok v ↔
      ∃ items, Encodes (participantScVal sdk) ps items ∧ .vec items = v := by
  simp only [participantsScVal, bind_eq_ok, scVals_eq_ok, pure_eq_ok, scVec]

/-- A map with these symbols as keys, in this order. -/
def HasFields (names : List String) (v : ScVal) : Prop :=
  ∃ entries, v = .map entries ∧ entries.map Prod.fst = names.map scSymbol

/-- The list encoder is faithful: the lines become maps with the sorted fields `names`, in the order
of the lines, `read` gives every line back, and two lists have two encodings. -/
structure Faithful (sdk : Sdk) {α : Type} (address : α → GoString) (names : List String)
    (encode : List α → Except Message ScVal) (read : ScVal → Option α) : Prop where
  sorted : (names.map Service.bytes).Pairwise (· < ·)
  vector : ∀ as : List α, (∀ a ∈ as, sdk.Valid (address a)) →
    ∃ items, encode as = .ok (.vec items) ∧ items.length = as.length ∧
      (∀ v ∈ items, HasFields names v) ∧ items.map read = as.map some
  injective : ∀ as as' : List α, (∀ a ∈ as, sdk.Valid (address a)) →
    (∀ a ∈ as', sdk.Valid (address a)) → encode as = encode as' → as = as'

/-- A list encoder is faithful when its lines are read back and have the sorted fields. -/
theorem faithful_of_roundTrips {α : Type} {address : α → GoString} {names : List String}
    {one : α → Except Message ScVal} {encode : List α → Except Message ScVal}
    {read : ScVal → Option α} (hsorted : (names.map Service.bytes).Pairwise (· < ·))
    (hone : RoundTrips (fun a => sdk.Valid (address a)) one read)
    (hnames : ∀ a v, one a = .ok v → HasFields names v)
    (hencode : ∀ as v, encode as = .ok v ↔ ∃ items, Encodes one as items ∧ .vec items = v) :
    Faithful sdk address names encode read where
  sorted := hsorted
  vector := by
    intro as has
    obtain ⟨items, hitems⟩ := hone.exists_encodes has
    refine ⟨items, (hencode _ _).mpr ⟨items, hitems, rfl⟩, hitems.length_eq.symm,
      Encodes.forall_mem hnames hitems, hone.map_read has hitems⟩
  injective := by
    intro as as' has has' heq
    obtain ⟨items, hitems⟩ := hone.exists_encodes has
    have hok : encode as = .ok (.vec items) := (hencode _ _).mpr ⟨items, hitems, rfl⟩
    obtain ⟨items', hitems', hvec⟩ := (hencode _ _).mp (heq ▸ hok)
    obtain rfl := ScVal.vec.inj hvec
    exact hone.list_injective has has' hitems hitems'

/-- A list of winners is encoded faithfully. -/
theorem winnersScVal_faithful :
    Faithful sdk Winner.address ["address", "amount", "place"] (winnersScVal sdk)
      (readWinner sdk) := by
  refine faithful_of_roundTrips (by decide) winnerScVal_roundTrips ?_
    fun _ _ => winnersScVal_eq_ok
  intro w v hv
  obtain ⟨a, -, rfl⟩ := winnerScVal_eq_ok.mp hv
  exact ⟨_, rfl, rfl⟩

/-- A list of participants is encoded faithfully. -/
theorem participantsScVal_faithful :
    Faithful sdk Participant.address ["address", "amount_compensation"] (participantsScVal sdk)
      (readParticipant sdk) := by
  refine faithful_of_roundTrips (by decide) participantScVal_roundTrips ?_
    fun _ _ => participantsScVal_eq_ok
  intro p v hv
  obtain ⟨a, -, rfl⟩ := participantScVal_eq_ok.mp hv
  exact ⟨_, rfl, rfl⟩

/-! ## The host functions -/

/-- A payout is built for at least one winner and at most the contract's limit. -/
theorem payWinnersHostFunction_eq_ok {fn noWinner encodingSigner : String} {contract : ScAddress}
    {signer : GoString} {eventID : EventID} {ws : List Winner} {hf : HostFunction} :
    payWinnersHostFunction sdk fn noWinner encodingSigner contract signer eventID ws = .ok hf ↔
      ws ≠ [] ∧ ws.length ≤ maxWinners ∧ ∃ a, encodeAddress sdk signer = .ok a ∧
        ∃ v, winnersScVal sdk ws = .ok v ∧
          invokeContractHF contract fn [a, eventID.scVal, v] = hf := by
  simp only [payWinnersHostFunction, bind_eq_ok, ensure_eq_ok, exists_const, wrapErr_eq_ok,
    pure_eq_ok]

/-- A compensation is built for at least one participant. -/
theorem releaseCompensationHostFunction_eq_ok {contract : ScAddress} {admin : GoString}
    {eventID : EventID} {ps : List Participant} {hf : HostFunction} :
    releaseCompensationHostFunction sdk contract admin eventID ps = .ok hf ↔
      ps ≠ [] ∧ ∃ a, encodeAddress sdk admin = .ok a ∧
        ∃ v, participantsScVal sdk ps = .ok v ∧
          invokeContractHF contract "release_compensation" [a, eventID.scVal, v] = hf := by
  simp only [releaseCompensationHostFunction, bind_eq_ok, ensure_eq_ok, exists_const,
    wrapErr_eq_ok, pure_eq_ok]

/-! ## The bytes of a call -/

/-- To compare the bytes of two calls is to compare the contract, the signer, the event and the
lines. -/
def ComparesSplit (sdk : Sdk) {α : Type} (address : α → GoString)
    (hostFunction : ScAddress → GoString → EventID → List α → Except Message HostFunction) :
    Prop :=
  ∀ (contract contract' : ScAddress) (signer signer' : GoString) (eventID eventID' : EventID)
    (as as' : List α) (text text' : GoString),
    sdk.Valid signer → sdk.Valid signer' → (∀ a ∈ as, sdk.Valid (address a)) →
    (∀ a ∈ as', sdk.Valid (address a)) →
    (hostFunction contract signer eventID as >>= sdk.marshalBase64) = .ok text →
    (hostFunction contract' signer' eventID' as' >>= sdk.marshalBase64) = .ok text' →
    (text = text' ↔ contract = contract' ∧ signer = signer' ∧ eventID = eventID' ∧ as = as')

/-- A host function that passes the signer, the event and a faithful list. -/
theorem Faithful.comparesSplit {α : Type} {address : α → GoString} {names : List String}
    {encode : List α → Except Message ScVal} {read : ScVal → Option α} {fn : String}
    {hostFunction : ScAddress → GoString → EventID → List α → Except Message HostFunction}
    (h : Faithful sdk address names encode read)
    (hcall : ∀ contract signer eventID as hf, hostFunction contract signer eventID as = .ok hf →
      ∃ a, encodeAddress sdk signer = .ok a ∧ ∃ v, encode as = .ok v ∧
        invokeContractHF contract fn [a, eventID.scVal, v] = hf) :
    ComparesSplit sdk address hostFunction := by
  intro contract contract' signer signer' eventID eventID' as as' text text' hsigner hsigner' has
    has' htext htext'
  constructor
  · rintro rfl
    obtain ⟨hf, hhf, hmarshal⟩ := bind_eq_ok.mp htext
    obtain ⟨hf', hhf', hmarshal'⟩ := bind_eq_ok.mp htext'
    -- one text unmarshals to one host function
    obtain rfl := Except.ok.inj
      ((sdk.unmarshal_marshal hmarshal).symm.trans (sdk.unmarshal_marshal hmarshal'))
    obtain ⟨a, ha, v, hv, heq⟩ := hcall _ _ _ _ _ hhf
    obtain ⟨a', ha', v', hv', heq'⟩ := hcall _ _ _ _ _ hhf'
    obtain ⟨hcontract, -, hargs⟩ := HostFunction.mk.inj (heq.trans heq'.symm)
    obtain ⟨hsignerArg, hrest⟩ := List.cons.inj hargs
    obtain ⟨hevent, hlast⟩ := List.cons.inj hrest
    have hlines : encode as = encode as' := by
      rw [hv, hv', (List.cons.inj hlast).1]
    exact ⟨hcontract, encodeAddress_roundTrips.injective hsigner hsigner' ha (hsignerArg ▸ ha'),
      Bytes.ext (ScVal.bytes.inj hevent), h.injective _ _ has has' hlines⟩
  · rintro ⟨rfl, rfl, rfl, rfl⟩
    exact Except.ok.inj (htext.symm.trans htext')

/-- The payout lists of both kinds are encoded faithfully, and the bytes of the calls that carry
them are compared as the lists are. -/
theorem arguments_faithful (sdk : Sdk) :
    Faithful sdk Winner.address ["address", "amount", "place"] (winnersScVal sdk)
        (readWinner sdk) ∧
      Faithful sdk Participant.address ["address", "amount_compensation"] (participantsScVal sdk)
        (readParticipant sdk) ∧
      ComparesSplit sdk Winner.address (releaseRewardHostFunction sdk) ∧
      ComparesSplit sdk Winner.address (resolveDisputeHostFunction sdk) ∧
      ComparesSplit sdk Participant.address (releaseCompensationHostFunction sdk) := by
  refine ⟨winnersScVal_faithful, participantsScVal_faithful, ?_, ?_, ?_⟩
  · exact winnersScVal_faithful.comparesSplit fun _ _ _ _ _ hhf =>
      (payWinnersHostFunction_eq_ok.mp hhf).2.2
  · exact winnersScVal_faithful.comparesSplit fun _ _ _ _ _ hhf =>
      (payWinnersHostFunction_eq_ok.mp hhf).2.2
  · exact participantsScVal_faithful.comparesSplit fun _ _ _ _ _ hhf =>
      (releaseCompensationHostFunction_eq_ok.mp hhf).2

namespace Sample

/-- A table, as the function it stands for. -/
def tabulated {α β : Type} [DecidableEq α] (table : List (α × β)) (complaint : String) (a : α) :
    Except Message β :=
  match table.find? (·.1 = a) with
  | some e => .ok e.2
  | none => .error ⟨complaint, []⟩

theorem mem_of_tabulated {α β : Type} [DecidableEq α] {table : List (α × β)}
    {complaint : String} {a : α} {b : β} (h : tabulated table complaint a = .ok b) :
    (a, b) ∈ table := by
  unfold tabulated at h
  cases hfind : table.find? (·.1 = a) with
  | none =>
      rw [hfind] at h
      cases h
  | some e =>
      rw [hfind] at h
      obtain rfl := Except.ok.inj h
      have hkey : e.1 = a := by simpa using List.find?_some hfind
      rw [← hkey]
      exact List.mem_of_find?_eq_some hfind

def judge : GoString := Service.bytes "GDCYCXUVREFDIJGGVCLSFQLMB7GQLX7MNLBMIAXDVVWPRUA66HOVMR5L"

def judgeKey : Bytes 32 where
  val := [197, 129, 94, 149, 137, 10, 52, 36, 198, 168, 151, 34, 193, 108, 15, 205, 5, 223, 236,
    106, 194, 196, 2, 227, 173, 108, 248, 208, 30, 241, 221, 86]
  length_eq := rfl

def winner : GoString := Service.bytes "GBXNBZFHSILK4HNBOVGANXADKY6FGJYH2R253PBPT4QF3CXEFJXBU27X"

def winnerKey : Bytes 32 where
  val := [110, 208, 228, 167, 146, 22, 174, 29, 161, 117, 76, 6, 220, 3, 86, 60, 83, 39, 7, 212,
    117, 221, 188, 47, 159, 32, 93, 138, 228, 42, 110, 26]
  length_eq := rfl

def contract : GoString := Service.bytes "CAD5IOA2FFSUTRIHEK6YQ2BPO2JVDPXYRXBVMPBBWFQEWRWKFRG36TQH"

def contractID : Bytes 32 where
  val := [7, 212, 56, 26, 41, 101, 73, 197, 7, 34, 189, 136, 104, 47, 118, 147, 81, 190, 248, 141,
    195, 86, 60, 33, 177, 96, 75, 70, 202, 44, 77, 191]
  length_eq := rfl

def eventID : EventID := ⟨[0, 1, 2, 3, 4, 5, 6, 7, 8, 9, 10, 11, 12, 13, 14, 15], rfl⟩

/-- A winner with an account and one that is a contract. -/
def winners (second : Int64) : List Winner := [⟨1, 70, winner⟩, ⟨2, second, contract⟩]

/-- The call of `release_reward` for these winners. -/
def call (second : Int64) : HostFunction :=
  invokeContractHF (.contract (some contractID)) "release_reward"
    [.address (some (.account (some judgeKey))), eventID.scVal,
      scVec [
        scMap [(scSymbol "address", .address (some (.account (some winnerKey)))),
          (scSymbol "amount", encodeI128 70), (scSymbol "place", scU32 1)],
        scMap [(scSymbol "address", .address (some (.contract (some contractID)))),
          (scSymbol "amount", encodeI128 second), (scSymbol "place", scU32 2)]]]

/-- The base 64 of the call up to the high word of the second amount. -/
def callStart : String :=
  "AAAAAAAAAAEH1DgaKWVJxQcivYhoL3aTUb74jcNWPCGxYEtGyixNvwAAAA5yZWxlYXNlX3Jld2FyZAAAAAAAAwAA" ++
  "ABIAAAAAAAAAAMWBXpWJCjQkxqiXIsFsD80F3+xqwsQC461s+NAe8d1WAAAADQAAABAAAQIDBAUGBwgJCgsMDQ4P" ++
  "AAAAEAAAAAEAAAACAAAAEQAAAAEAAAADAAAADwAAAAdhZGRyZXNzAAAAABIAAAAAAAAAAG7Q5KeSFq4doXVMBtwD" ++
  "VjxTJwfUdd28L58gXYrkKm4aAAAADwAAAAZhbW91bnQAAAAAAAoAAAAAAAAAAAAAAAAAAABGAAAADwAAAAVwbGFj" ++
  "ZQAAAAAAAAMAAAABAAAAEQAAAAEAAAADAAAADwAAAAdhZGRyZXNzAAAAABIAAAABB9Q4GillScUHIr2IaC92k1G+" ++
  "+I3DVjwhsWBLRsosTb8AAAAPAAAABmFtb3VudAAAAAAA"

def thirty : GoString :=
  Service.bytes (callStart ++ "CgAAAAAAAAAAAAAAAAAAAB4AAAAPAAAABXBsYWNlAAAAAAAAAwAAAAI=")

def minusThirty : GoString :=
  Service.bytes (callStart ++ "Cv///////////////////+IAAAAPAAAABXBsYWNlAAAAAAAAAwAAAAI=")

def accounts : List (GoString × Bytes 32) := [(judge, judgeKey), (winner, winnerKey)]

def contracts : List (GoString × GoString) := [(contract, contractID.val)]

def calls : List (HostFunction × GoString) := [(call 30, thirty), (call (-30), minusThirty)]

/-- The SDK on the strkeys and the calls above. -/
def stellarSdk : Sdk where
  addressToAccountID := tabulated accounts "invalid version byte"
  accountAddress id := ((accounts.find? (·.2 = id)).map Prod.fst).getD []
  decodeContract := tabulated contracts "invalid version byte"
  encodeContract := tabulated (contracts.map Prod.swap) "invalid"
  marshalBase64 := tabulated calls "invalid"
  unmarshalBase64 := tabulated (calls.map Prod.swap) "invalid"
  account_address h :=
    of_decide_eq_true (List.all_eq_true.mp (show accounts.all (fun e => decide
      (((accounts.find? (·.2 = e.2)).map Prod.fst).getD [] = e.1)) = true by decide +kernel) _
      (mem_of_tabulated h))
  contract_encode h _ :=
    of_decide_eq_true (List.all_eq_true.mp (show contracts.all (fun e => decide
      (tabulated (contracts.map Prod.swap) "invalid" e.2 = .ok e.1)) = true by decide +kernel) _
      (mem_of_tabulated h))
  unmarshal_marshal h :=
    of_decide_eq_true (List.all_eq_true.mp (show calls.all (fun e => decide
      (tabulated (calls.map Prod.swap) "invalid" e.2 = .ok e.1)) = true by decide +kernel) _
      (mem_of_tabulated h))

end Sample

/-- Thirty for the second winner and minus thirty have two texts, and both amounts are read back. -/
theorem arguments_faithful_sample :
    (releaseRewardHostFunction Sample.stellarSdk (.contract (some Sample.contractID)) Sample.judge
        Sample.eventID (Sample.winners 30) >>= Sample.stellarSdk.marshalBase64)
          = .ok Sample.thirty ∧
      (releaseRewardHostFunction Sample.stellarSdk (.contract (some Sample.contractID))
        Sample.judge Sample.eventID (Sample.winners (-30)) >>= Sample.stellarSdk.marshalBase64)
          = .ok Sample.minusThirty ∧
      Sample.thirty ≠ Sample.minusThirty ∧
      ∃ items, winnersScVal Sample.stellarSdk (Sample.winners (-30)) = .ok (.vec items) ∧
        items.map (readWinner Sample.stellarSdk) = (Sample.winners (-30)).map some := by
  obtain ⟨hwinners, -, hrelease, -, -⟩ := arguments_faithful Sample.stellarSdk
  have hjudge : Sample.stellarSdk.Valid Sample.judge := .inl ⟨Sample.judgeKey, by decide +kernel⟩
  have hvalid : ∀ second, ∀ w ∈ Sample.winners second, Sample.stellarSdk.Valid w.address := by
    intro second
    refine List.forall_mem_cons.mpr ⟨.inl ⟨Sample.winnerKey, ?_⟩,
      List.forall_mem_cons.mpr ⟨.inr ⟨Sample.contractID.val, ?_, rfl⟩, fun w hw => ?_⟩⟩
    · show Sample.stellarSdk.addressToAccountID Sample.winner = .ok Sample.winnerKey
      decide +kernel
    · show Sample.stellarSdk.decodeContract Sample.contract = .ok Sample.contractID.val
      decide +kernel
    · exact absurd hw List.not_mem_nil
  have hthirty : (releaseRewardHostFunction Sample.stellarSdk (.contract (some Sample.contractID))
      Sample.judge Sample.eventID (Sample.winners 30) >>= Sample.stellarSdk.marshalBase64)
        = .ok Sample.thirty := by decide +kernel
  have hminus : (releaseRewardHostFunction Sample.stellarSdk (.contract (some Sample.contractID))
      Sample.judge Sample.eventID (Sample.winners (-30)) >>= Sample.stellarSdk.marshalBase64)
        = .ok Sample.minusThirty := by decide +kernel
  refine ⟨hthirty, hminus, ?_, ?_⟩
  · intro heq
    have hsame := (hrelease _ _ _ _ _ _ _ _ _ _ hjudge hjudge (hvalid 30) (hvalid (-30)) hthirty
      hminus).mp heq
    exact absurd hsame.2.2.2 (by decide +kernel)
  · obtain ⟨items, hencode, -, -, hread⟩ := hwinners.vector _ (hvalid (-30))
    exact ⟨items, hencode, hread⟩

end Soroban
