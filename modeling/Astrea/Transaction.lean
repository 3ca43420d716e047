/-
# Transactions

What the service builds, a wallet signs and the network applies.  An XDR encoding stands
for the value it encodes, since the encoding is injective, and a transaction stands for
its hash.
-/
import Astrea.EscrowContract

namespace Service

/-- A wallet address: a well-formed strkey names exactly one ledger address. -/
abbrev Address : Type := Escrow.Address

/-- A host function: a call of the deployed escrow contract, or anything else. -/
inductive HostFunction where
  | invokeEscrow (call : Escrow.Call)
  | other (code : ℕ)
  deriving DecidableEq

/-- The source account of a transaction, plain or multiplexed. -/
inductive MuxedAccount where
  | ed25519 (key : BitVec 256)
  | muxedEd25519 (id : UInt64) (key : BitVec 256)
  deriving DecidableEq

/-- The body of an operation. -/
inductive OperationBody where
  | invokeHostFunction (hostFunction : HostFunction) (auth : List ℕ)
  | other (code : ℕ)
  deriving DecidableEq

/-- An operation, with its own source account if it names one. -/
structure Operation where
  sourceAccount : Option MuxedAccount
  body : OperationBody
  deriving DecidableEq

/-- A transaction; `ext` is the rest of its content, the memo and the Soroban resources. -/
structure Transaction where
  sourceAccount : MuxedAccount
  seqNum : Int64
  fee : ℕ
  timeBounds : Option (ℤ × ℤ)
  operations : List Operation
  ext : ℕ
  deriving DecidableEq

/-- A transaction is identified by its hash. -/
abbrev TxHash : Type := Transaction

/-- A transaction envelope with its signatures. -/
inductive Envelope where
  | v0 (code : ℕ)
  | v1 (tx : Transaction) (signatures : List ℕ)
  | feeBump (code : ℕ)
  deriving DecidableEq

/-- The text a client sends as a signed transaction: nothing, a text that does not decode
(with the decoder's complaint), or the encoding of an envelope. -/
inductive SignedXDR where
  | empty
  | undecodable (complaint : String)
  | envelope (e : Envelope)
  deriving DecidableEq

/-- The account whose sequence number a transaction of this source uses. -/
def MuxedAccount.key : MuxedAccount → BitVec 256
  | .ed25519 key => key
  | .muxedEd25519 _ key => key

/-- The host function of a transaction with one operation that invokes one. -/
def Transaction.hostFunction (tx : Transaction) : Option HostFunction :=
  match tx.operations with
  | [⟨_, .invokeHostFunction hostFunction _⟩] => some hostFunction
  | _ => none

end Service
