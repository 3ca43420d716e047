/-
# The arguments of a contract call

`wallet.go`, `address.go` and `lifecycle.go` turn the numbers, addresses and payout lists of the
service into Soroban values.  A `#[contracttype]` struct is a map whose keys are its field names in
sorted order, and an address is tried as an account before it is taken for a contract.  What the
functions call of the Stellar SDK, the two strkey codecs and the XDR marshalling, is a parameter.
-/
import Astrea.Amount

open Guard Service

namespace Soroban

/-! ## Values -/

/-- A Go array of bytes. -/
structure Bytes (n : ℕ) where
  val : GoString
  length_eq : val.length = n
  deriving DecidableEq

/-- `copy(b[:], raw)` into a zero array: what is missing stays zero, what is too much is left. -/
def Bytes.copy (n : ℕ) (raw : GoString) : Bytes n where
  val := (raw ++ List.replicate n 0).take n
  length_eq := by
    rw [List.length_take, List.length_append, List.length_replicate]
    omega

/-- A string of the length of the array is copied as it is. -/
theorem Bytes.copy_val {n : ℕ} {raw : GoString} (h : raw.length = n) :
    (Bytes.copy n raw).val = raw := by
  show (raw ++ List.replicate n 0).take n = raw
  rw [← h, List.take_left]

/-- Byte strings are equal when their bytes are. -/
theorem Bytes.ext {n : ℕ} {b b' : Bytes n} (h : b.val = b'.val) : b = b' := by
  cases b
  cases b'
  simp only at h
  subst h
  rfl

/-- `xdr.Int128Parts`. -/
structure Int128Parts where
  hi : Int64
  lo : UInt64
  deriving DecidableEq

/-- The number that the parts denote in two's complement. -/
def Int128Parts.toInt (p : Int128Parts) : ℤ := p.hi.toInt * 18446744073709551616 + p.lo.toNat

/-- `xdr.ScAddress`; a pointer may be nil.  Of the other kinds the name of the type and the
encoding of the rest are kept. -/
inductive ScAddress where
  | account (accountID : Option (Bytes 32))
  | contract (contractID : Option (Bytes 32))
  | other (type : String) (body : GoString)
  deriving DecidableEq

/-- `xdr.ScVal`. -/
inductive ScVal where
  | u32 (v : UInt32)
  | u64 (v : UInt64)
  | i128 (parts : Int128Parts)
  | bytes (b : GoString)
  | symbol (name : GoString)
  | vec (items : List ScVal)
  | map (entries : List (ScVal × ScVal))
  | address (a : Option ScAddress)
  | other (type : String) (body : GoString)

/-- The type of a value, as `%v` prints it. -/
def ScVal.typeName : ScVal → String
  | .u32 _ => "ScValTypeScvU32"
  | .u64 _ => "ScValTypeScvU64"
  | .i128 _ => "ScValTypeScvI128"
  | .bytes _ => "ScValTypeScvBytes"
  | .symbol _ => "ScValTypeScvSymbol"
  | .vec _ => "ScValTypeScvVec"
  | .map _ => "ScValTypeScvMap"
  | .address _ => "ScValTypeScvAddress"
  | .other type _ => type

mutual

/-- Whether two values are the same. -/
def ScVal.same : ScVal → ScVal → Bool
  | .u32 v, .u32 v' => v = v'
  | .u64 v, .u64 v' => v = v'
  | .i128 parts, .i128 parts' => parts = parts'
  | .bytes b, .bytes b' => b = b'
  | .symbol name, .symbol name' => name = name'
  | .vec items, .vec items' => sameItems items items'
  | .map entries, .map entries' => sameEntries entries entries'
  | .address a, .address a' => a = a'
  | .other type body, .other type' body' => type = type' ∧ body = body'
  | _, _ => false
termination_by structural a => a

def sameItems : List ScVal → List ScVal → Bool
  | [], [] => true
  | v :: items, v' :: items' => v.same v' && sameItems items items'
  | _, _ => false
termination_by structural a => a

def sameEntry : ScVal × ScVal → ScVal × ScVal → Bool
  | (k, v), (k', v') => k.same k' && v.same v'
termination_by structural a => a

def sameEntries : List (ScVal × ScVal) → List (ScVal × ScVal) → Bool
  | [], [] => true
  | e :: entries, e' :: entries' => sameEntry e e' && sameEntries entries entries'
  | _, _ => false
termination_by structural a => a

end

mutual

/-- The comparison of values decides equality. -/
theorem ScVal.same_iff (a b : ScVal) : a.same b = true ↔ a = b := by
  cases a with
  | vec items => cases b <;> simp [ScVal.same, sameItems_iff]
  | map entries => cases b <;> simp [ScVal.same, sameEntries_iff]
  | _ => cases b <;> simp [ScVal.same]
termination_by structural a

theorem sameItems_iff (as bs : List ScVal) : sameItems as bs = true ↔ as = bs := by
  cases as with
  | nil => cases bs <;> simp [sameItems]
  | cons a as => cases bs <;> simp [sameItems, ScVal.same_iff, sameItems_iff]
termination_by structural as

theorem sameEntry_iff (e e' : ScVal × ScVal) : sameEntry e e' = true ↔ e = e' := by
  obtain ⟨k, v⟩ := e
  obtain ⟨k', v'⟩ := e'
  simp [sameEntry, ScVal.same_iff]
termination_by structural e

theorem sameEntries_iff (as bs : List (ScVal × ScVal)) : sameEntries as bs = true ↔ as = bs := by
  cases as with
  | nil => cases bs <;> simp [sameEntries]
  | cons a as => cases bs <;> simp [sameEntries, sameEntry_iff, sameEntries_iff]
termination_by structural as

end

instance : DecidableEq ScVal := fun a b => decidable_of_iff _ (ScVal.same_iff a b)

/-- `xdr.HostFunction` of type `InvokeContract`, with its `InvokeContractArgs`. -/
structure HostFunction where
  contractAddress : ScAddress
  functionName : GoString
  args : List ScVal
  deriving DecidableEq

/-! ## The SDK -/

/-- What is called of the Stellar SDK.  A strkey that decodes is the one its bytes encode to, and a
host function is what its encoding unmarshals to. -/
structure Sdk where
  /-- `xdr.AddressToAccountId` -/
  addressToAccountID : GoString → Except Message (Bytes 32)
  /-- `AccountId.Address` -/
  accountAddress : Bytes 32 → GoString
  /-- `strkey.Decode(strkey.VersionByteContract, ...)` -/
  decodeContract : GoString → Except Message GoString
  /-- `strkey.Encode(strkey.VersionByteContract, ...)` -/
  encodeContract : GoString → Except Message GoString
  /-- `xdr.MarshalBase64` -/
  marshalBase64 : HostFunction → Except Message GoString
  /-- `xdr.SafeUnmarshalBase64` -/
  unmarshalBase64 : GoString → Except Message HostFunction
  account_address : ∀ {address id}, addressToAccountID address = .ok id →
    accountAddress id = address
  contract_encode : ∀ {address raw}, decodeContract address = .ok raw → raw.length = 32 →
    encodeContract raw = .ok address
  unmarshal_marshal : ∀ {hf text}, marshalBase64 hf = .ok text → unmarshalBase64 text = .ok hf

/-- A G-address or a C-address. -/
def Sdk.Valid (sdk : Sdk) (address : GoString) : Prop :=
  (∃ id, sdk.addressToAccountID address = .ok id) ∨
    ∃ raw, sdk.decodeContract address = .ok raw ∧ raw.length = 32

/-- `fmt.Errorf(format + "%w", args..., err)` when `err` is not nil. -/
def wrapErr {α : Type} (format : String) (args : List Arg) : Except Message α → Except Message α
  | .ok a => .ok a
  | .error err => .error (.wrap format args err)

/-- A wrapped error is still an error, and a result the same result. -/
theorem wrapErr_eq_ok {α : Type} {format : String} {args : List Arg} {x : Except Message α}
    {a : α} : wrapErr format args x = .ok a ↔ x = .ok a := by
  cases x with
  | ok b => rfl
  | error err => exact iff_of_false (fun h => by cases h) (fun h => by cases h)

/-! ## Numbers -/

def encodeI128 (v : Int64) : ScVal :=
  let hi : Int64 := if v < 0 then -1 else 0
  .i128 ⟨hi, v.toUInt64⟩

def decodeI128ToInt64 : ScVal → Except Message Int64
  | .i128 parts => do
      ensure (parts.hi = 0) ⟨"escrow: i128 value does not fit in int64 (hi=%d lo=%d)",
        [.int parts.hi.toInt, .int parts.lo.toNat]⟩
      ensure (parts.lo ≤ 9223372036854775807)
        ⟨"escrow: i128 value does not fit in int64 (lo=%d)", [.int parts.lo.toNat]⟩
      return parts.lo.toInt64
  | v => .error ⟨"escrow: expected an I128 ScVal, got %v", [.text v.typeName]⟩

/-! ## Addresses -/

section Addresses

variable (sdk : Sdk)

def contractAddress (contractID : GoString) : Except Message ScAddress := do
  let raw ← wrapErr "escrow: decoding contract address %q: " [.str contractID]
    (sdk.decodeContract contractID)
  return .contract (some (.copy 32 raw))

def encodeAddress (address : GoString) : Except Message ScVal :=
  match sdk.addressToAccountID address with
  | .ok accountID => .ok (.address (some (.account (some accountID))))
  | .error _ => do
      let scAddr ← wrapErr
        "escrow: %q is neither a valid G-address (account) nor a valid C-address (contract): "
        [.str address] (contractAddress sdk address)
      return .address (some scAddr)

def decodeAddressToString : ScVal → Except Message GoString
  | .address (some (.account none)) => .error ⟨"escrow: address value has no account id", []⟩
  | .address (some (.account (some id))) => .ok (sdk.accountAddress id)
  | .address (some (.contract none)) => .error ⟨"escrow: address value has no contract id", []⟩
  | .address (some (.contract (some id))) => sdk.encodeContract id.val
  | .address (some (.other type _)) =>
      .error ⟨"escrow: unsupported address type %v", [.text type]⟩
  | sv => .error ⟨"escrow: expected an Address value, got %v", [.text sv.typeName]⟩

end Addresses

/-! ## Structs and lists -/

/-- One payout line of `release_reward`. -/
structure Winner where
  place : UInt32
  amount : Int64
  address : GoString
  deriving DecidableEq

/-- One payout line of `release_compensation`. -/
structure Participant where
  address : GoString
  amountCompensation : Int64
  deriving DecidableEq

def scSymbol (name : String) : ScVal := .symbol (Service.bytes name)

def scU32 (v : UInt32) : ScVal := .u32 v

def scMap (entries : List (ScVal × ScVal)) : ScVal := .map entries

def scVec (vals : List ScVal) : ScVal := .vec vals

section Structs

variable (sdk : Sdk)

def winnerScVal (w : Winner) : Except Message ScVal := do
  let addrArg ← wrapErr "escrow: encoding winner address: " [] (encodeAddress sdk w.address)
  return scMap [(scSymbol "address", addrArg), (scSymbol "amount", encodeI128 w.amount),
    (scSymbol "place", scU32 w.place)]

def participantScVal (p : Participant) : Except Message ScVal := do
  let addrArg ← wrapErr "escrow: encoding participant address: " [] (encodeAddress sdk p.address)
  return scMap [(scSymbol "address", addrArg),
    (scSymbol "amount_compensation", encodeI128 p.amountCompensation)]

/-- The elements of a list from the `i`-th on, one after the other. -/
def scVals {α : Type} (format : String) (one : α → Except Message ScVal) :
    ℕ → List α → Except Message (List ScVal)
  | _, [] => .ok []
  | i, a :: as => do
      let v ← wrapErr format [.int i] (one a)
      let vals ← scVals format one (i + 1) as
      return v :: vals

def winnersScVal (winners : List Winner) : Except Message ScVal := do
  let vec ← scVals "escrow: encoding winner %d: " (winnerScVal sdk) 0 winners
  return scVec vec

def participantsScVal (participants : List Participant) : Except Message ScVal := do
  let vec ← scVals "escrow: encoding participant %d: " (participantScVal sdk) 0 participants
  return scVec vec

end Structs

/-! ## Host functions -/

/-- The identifier of an event. -/
abbrev EventID : Type := Bytes 16

def EventID.scVal (id : EventID) : ScVal := .bytes id.val

def invokeContractHF (contract : ScAddress) (fn : String) (args : List ScVal) : HostFunction where
  contractAddress := contract
  functionName := Service.bytes fn
  args := args

/-- The winners that fit into one call. -/
def maxWinners : ℕ := 25

section HostFunctions

variable (sdk : Sdk)

/-- A call of `fn` in which `signer` pays winners, and its complaints about an empty list and about
the signer's address. -/
def payWinnersHostFunction (fn noWinner encodingSigner : String) (contract : ScAddress)
    (signer : GoString) (eventID : EventID) (winners : List Winner) :
    Except Message HostFunction := do
  ensure (winners ≠ []) ⟨noWinner, []⟩
  ensure (winners.length ≤ maxWinners)
    ⟨"escrow: %d winners exceeds the contract's MAX_WINNERS (%d)",
      [.int winners.length, .int maxWinners]⟩
  let signerArg ← wrapErr encodingSigner [] (encodeAddress sdk signer)
  let winnersArg ← winnersScVal sdk winners
  return invokeContractHF contract fn [signerArg, eventID.scVal, winnersArg]

def releaseRewardHostFunction (contract : ScAddress) (judge : GoString) (eventID : EventID)
    (winners : List Winner) : Except Message HostFunction :=
  payWinnersHostFunction sdk "release_reward"
    "escrow: release_reward requires at least one winner" "escrow: encoding judge address: "
    contract judge eventID winners

def resolveDisputeHostFunction (contract : ScAddress) (resolver : GoString) (eventID : EventID)
    (winners : List Winner) : Except Message HostFunction :=
  payWinnersHostFunction sdk "resolve_dispute"
    "escrow: resolve_dispute requires at least one winner" "escrow: encoding resolver address: "
    contract resolver eventID winners

def releaseCompensationHostFunction (contract : ScAddress) (admin : GoString) (eventID : EventID)
    (participants : List Participant) : Except Message HostFunction := do
  ensure (participants ≠ [])
    ⟨"escrow: release_compensation requires at least one participant", []⟩
  let adminArg ← wrapErr "escrow: encoding admin address: " [] (encodeAddress sdk admin)
  let participantsArg ← participantsScVal sdk participants
  return invokeContractHF contract "release_compensation"
    [adminArg, eventID.scVal, participantsArg]

end HostFunctions

end Soroban
