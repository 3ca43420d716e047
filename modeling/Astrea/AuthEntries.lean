/-
# Authorization entries

Some calls need a signature of a party that is not the source of the transaction.  The build
stamps the entries that the simulation asks for and lists those still to be signed; the party
signs each of them over its preimage; attaching the signed entries writes them back into the
envelope.  Here the envelope is modelled with its entries in the clear.  A Go value whose
credentials say address while their pointer is nil is an entry of `.address none`.
-/
import Astrea.Pipeline

open Guard Service

namespace Auth

/-! ## Entries -/

/-- A Soroban value: void, a vector of maps from symbols to byte strings, or another one. -/
inductive ScVal where
  | void
  | vec (maps : List (List (String × GoString)))
  | other (code : ℕ)
  deriving DecidableEq

structure AddressCredentials where
  address : Address
  nonce : Int64
  signatureExpirationLedger : UInt32
  signature : ScVal
  deriving DecidableEq

inductive Credentials where
  | sourceAccount
  | address (creds : Option AddressCredentials)
  deriving DecidableEq

/-- A `SorobanAuthorizationEntry`; the root invocation is known by its encoding. -/
structure Entry where
  credentials : Credentials
  rootInvocation : ℕ
  deriving DecidableEq

/-- The address credentials of an entry. -/
def Entry.address (e : Entry) : Option AddressCredentials :=
  match e.credentials with
  | .address (some creds) => some creds
  | _ => none

/-- The entry with other address credentials. -/
def Entry.withAddress (e : Entry) (creds : AddressCredentials) : Entry :=
  { e with credentials := .address (some creds) }

def authEntriesMatch (a b : Entry) : Bool :=
  match a.address, b.address with
  | some a, some b => a.nonce = b.nonce && a.address = b.address
  | _, _ => false

/-! ## Envelopes with their entries -/

inductive OperationBody where
  | invokeHostFunction (hostFunction : HostFunction) (auth : List Entry)
  | other (code : ℕ)
  deriving DecidableEq

structure Operation where
  sourceAccount : Option MuxedAccount
  body : OperationBody
  deriving DecidableEq

structure Transaction where
  sourceAccount : MuxedAccount
  seqNum : Int64
  fee : ℕ
  timeBounds : Option (ℤ × ℤ)
  operations : List Operation
  ext : ℕ
  deriving DecidableEq

inductive Envelope where
  | v0 (code : ℕ)
  | v1 (tx : Transaction) (signatures : List ℕ)
  | feeBump (code : ℕ)
  deriving DecidableEq

/-- A base64 text: one that does not decode, or the encoding of an envelope. -/
inductive EnvelopeXDR where
  | undecodable (complaint : String)
  | envelope (e : Envelope)
  deriving DecidableEq

/-- The envelope, and the host function and the entries of its one operation. -/
def decodeSingleOpInvokeHostFunction :
    EnvelopeXDR → Except Message (Envelope × HostFunction × List Entry)
  | .undecodable complaint => .error (decodeComplaint complaint)
  | .envelope (.v1 tx signatures) =>
      match tx.operations with
      | [⟨_, .invokeHostFunction hostFunction auth⟩] =>
          .ok (.v1 tx signatures, hostFunction, auth)
      | [_] => .error ⟨"escrow: expected an InvokeHostFunction operation", []⟩
      | _ => .error ⟨"escrow: expected a single-operation v1 transaction envelope", []⟩
  | .envelope _ => .error ⟨"escrow: expected a single-operation v1 transaction envelope", []⟩

/-- The envelope after its operation's entries have been overwritten. -/
def Envelope.setAuth (auth : List Entry) : Envelope → Envelope
  | .v1 tx signatures =>
      match tx.operations with
      | [⟨source, .invokeHostFunction hostFunction _⟩] =>
          .v1 { tx with operations := [⟨source, .invokeHostFunction hostFunction auth⟩] } signatures
      | _ => .v1 tx signatures
  | e => e

/-- A transaction still to be signed, with the entries that need a signature of their own. -/
structure UnsignedTx where
  xdr : EnvelopeXDR
  simulatedReturn : Option ScVal
  pendingAuth : List Entry
  deriving DecidableEq

/-! ## Attaching -/

/-- The first pending entry that is not matched yet and matches, and the entries with it marked. -/
def matchPending (se : Entry) : List (Entry × Bool) → Option (Entry × List (Entry × Bool))
  | [] => none
  | (p, matched) :: pending =>
      if !matched && authEntriesMatch p se then some (p, (p, true) :: pending)
      else (matchPending se pending).map fun r => (r.1, (p, matched) :: r.2)

/-- The operation's entries with the first one that matches `p` overwritten by `se`. -/
def overwrite (p se : Entry) : List Entry → Option (List Entry)
  | [] => none
  | e :: auth =>
      if authEntriesMatch e p then some (se :: auth)
      else (overwrite p se auth).map fun auth => e :: auth

/-- The nonce of an address entry. -/
def Entry.nonceArg (e : Entry) : Arg := .int (e.address.elim 0 fun creds => creds.nonce.toInt)

/-- The signed entries one after the other. -/
def attachAll (pending : List (Entry × Bool)) (auth : List Entry) :
    List Entry → Except Message (List Entry)
  | [] => .ok auth
  | se :: signed => do
      ensure (se.address ≠ none)
        ⟨"escrow: AttachSignedAuth requires SOROBAN_CREDENTIALS_ADDRESS entries", []⟩
      let (p, pending) ← expect (matchPending se pending)
        ⟨"escrow: signed auth entry (nonce %d) does not match any pending entry", [se.nonceArg]⟩
      let auth ← expect (overwrite p se auth)
        ⟨"escrow: internal error: pending entry (nonce %d) not present in the transaction's auth list",
          [p.nonceArg]⟩
      attachAll pending auth signed

def attachSignedAuth (tx : UnsignedTx) (signed : List Entry) : Except Message UnsignedTx := do
  ensure (signed.length = tx.pendingAuth.length)
    ⟨"escrow: AttachSignedAuth got %d signed entries, want exactly %d (one per pending entry)",
      [.int signed.length, .int tx.pendingAuth.length]⟩
  let (envelope, _, auth) ← decodeSingleOpInvokeHostFunction tx.xdr
  let auth ← attachAll (tx.pendingAuth.map fun p => (p, false)) auth signed
  return ⟨.envelope (envelope.setAuth auth), tx.simulatedReturn, []⟩

/-! ## Signing -/

/-- What a signature of an authorization covers. -/
structure Preimage where
  networkId : BitVec 256
  nonce : Int64
  signatureExpirationLedger : UInt32
  invocation : ℕ
  deriving DecidableEq

/-- Ed25519 keys, of which the signatures have 64 bytes and verify, and the hashes of a network's
passphrase and of the encoding of a preimage. -/
structure Scheme where
  Secret : Type
  publicKey : Secret → BitVec 256
  sign : Secret → BitVec 256 → GoString
  verify : BitVec 256 → BitVec 256 → GoString → Bool
  networkID : String → BitVec 256
  hash : Preimage → BitVec 256
  length_sign : ∀ secret message, (sign secret message).length = 64
  verify_sign : ∀ secret message, verify (publicKey secret) message (sign secret message) = true

/-- The 32 bytes of a public key. -/
def keyBytes (k : BitVec 256) : GoString :=
  (List.range 32).map fun i => UInt8.ofNat (k.toNat / 256 ^ (31 - i))

/-- The type of some credentials, as `%v` prints it. -/
def Credentials.typeName : Credentials → String
  | .sourceAccount => "SorobanCredentialsTypeSorobanCredentialsSourceAccount"
  | .address _ => "SorobanCredentialsTypeSorobanCredentialsAddress"

def authPreimageHash (sch : Scheme) (entry : Entry) (networkPassphrase : String) :
    Except Message (BitVec 256) :=
  match entry.address with
  | none =>
      .error ⟨"escrow: authPreimageHash requires a SOROBAN_CREDENTIALS_ADDRESS entry, got %v",
        [.text entry.credentials.typeName]⟩
  | some creds =>
      .ok (sch.hash ⟨sch.networkID networkPassphrase, creds.nonce,
        creds.signatureExpirationLedger, entry.rootInvocation⟩)

def accountEd25519SignatureScVal (publicKey signature : GoString) : Except Message ScVal := do
  ensure (publicKey.length = 32)
    ⟨"escrow: expected a 32-byte ed25519 public key, got %d bytes", [.int publicKey.length]⟩
  ensure (signature.length = 64)
    ⟨"escrow: expected a 64-byte ed25519 signature, got %d bytes", [.int signature.length]⟩
  return .vec [[("public_key", publicKey), ("signature", signature)]]

def signAuthEntry (sch : Scheme) (entry : Entry) (signer : sch.Secret)
    (networkPassphrase : String) : Except Message Entry := do
  let creds ← expect entry.address
    ⟨"escrow: SignAuthEntry requires a SOROBAN_CREDENTIALS_ADDRESS entry, got %v",
      [.text entry.credentials.typeName]⟩
  let hash ← authPreimageHash sch entry networkPassphrase
  let sigVal ← accountEd25519SignatureScVal (keyBytes (sch.publicKey signer))
    (sch.sign signer hash)
  return entry.withAddress { creds with signature := sigVal }

/-! ## Building -/

/-- One result of a simulation; a text that does not decode has a complaint. -/
structure SimulateResult where
  authXDR : Option (List (Except String Entry))
  returnValueXDR : Option (Except String ScVal)

structure SimulateResponse where
  error : String
  transactionDataXDR : Except String ℕ
  minResourceFee : ℕ
  results : List SimulateResult
  latestLedger : UInt32

/-- What the calls of a build are answered, in their order, and what the clock shows. -/
structure Rpc where
  loadAccount : Except Message Int64
  simulateTransaction : Except Message SimulateResponse
  reloadAccount : Except Message Int64
  now : Time
  later : Time

def authExpirationLedgers : UInt32 := 100

/-- `service.buildTx`, with the entries in the clear. -/
def buildTx (sequence : Int64) (sourceAddress : Address) (hf : HostFunction) (auth : List Entry)
    (resources resourceFee : ℕ) (now timeout : Time) : Option Transaction :=
  match sourceAddress with
  | .contract _ => none
  | .account key => some {
      sourceAccount := .ed25519 key
      seqNum := sequence + 1
      fee := minBaseFee + resourceFee
      timeBounds := some (0, now / second + timeout / second)
      operations := [⟨some (.ed25519 key), .invokeHostFunction hf auth⟩]
      ext := resources }

/-- The error with a text before it. -/
def wrapping {α : Type} (format : String) : Except Message α → Except Message α
  | .ok a => .ok a
  | .error err => .error (.wrap format [] err)

/-- The value of a text, or the decoder's complaint with a text before it. -/
def decoding {α : Type} (format : String) : Except String α → Except Message α
  | .ok a => .ok a
  | .error complaint => .error (.wrap format [] ⟨"%s", [.text complaint]⟩)

def decodeEntries : List (Except String Entry) → Except Message (List Entry)
  | [] => .ok []
  | a :: rest => do
      let entry ← decoding "escrow: decoding simulated auth entry: " a
      let auth ← decodeEntries rest
      return entry :: auth

/-- The entries of the first result. -/
def SimulateResponse.auth (resp : SimulateResponse) : Except Message (List Entry) :=
  match resp.results with
  | [] => .ok []
  | res :: _ => decodeEntries (res.authXDR.getD [])

/-- The return value of the first result, if it has one. -/
def SimulateResponse.returnVal (resp : SimulateResponse) : Except Message (Option ScVal) :=
  match resp.results with
  | [] => .ok none
  | res :: _ =>
      match res.returnValueXDR with
      | none => .ok none
      | some x => do
          let v ← decoding "escrow: decoding simulated return value: " x
          return some v

/-- The addition wraps. -/
def stamp (latestLedger : UInt32) (entry : Entry) : Entry :=
  match entry.address with
  | none => entry
  | some creds => entry.withAddress
      { creds with signatureExpirationLedger := latestLedger + authExpirationLedgers }

/-- The entries with the address entries stamped, and the pending ones. -/
def stampAll (latestLedger : UInt32) : List Entry → List Entry × List Entry
  | [] => ([], [])
  | entry :: auth =>
      let (auth, pendingAuth) := stampAll latestLedger auth
      if entry.address = none then (entry :: auth, pendingAuth)
      else (stamp latestLedger entry :: auth, stamp latestLedger entry :: pendingAuth)

def buildUnsigned (rpc : Rpc) (sourceAddress : Address) (hf : HostFunction) (cfg : Config) :
    Except Message UnsignedTx := do
  let cfg := cfg.withDefaults
  let sequence ← wrapping "escrow: loading source account: " rpc.loadAccount
  let _simTx ← expect (buildTx sequence sourceAddress hf [] 0 0 rpc.now cfg.txTimeout)
    ⟨"escrow: building simulation transaction", []⟩
  let simResp ← wrapping "escrow: calling simulateTransaction: " rpc.simulateTransaction
  ensure (simResp.error = "") ⟨"escrow: simulation failed: %s", [.text simResp.error]⟩
  let sorobanData ← decoding "escrow: decoding simulated transaction data: "
    simResp.transactionDataXDR
  let auth ← simResp.auth
  let returnVal ← simResp.returnVal
  let (auth, pendingAuth) := stampAll simResp.latestLedger auth
  -- the sequence number is read again, for the transaction that gets signed
  let sequence ← wrapping "escrow: reloading source account: " rpc.reloadAccount
  let finalTx ← expect (buildTx sequence sourceAddress hf auth sorobanData simResp.minResourceFee
    rpc.later cfg.txTimeout) ⟨"escrow: building final transaction", []⟩
  return ⟨.envelope (.v1 finalTx []), returnVal, pendingAuth⟩

end Auth
