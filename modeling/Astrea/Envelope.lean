/-
# Signed envelopes

The guard of every `/submit` endpoint, `verifySignedEnvelope`, with the lemma that lists
what it checks.
-/
import Astrea.Amount

open Guard

namespace Service

/-- An account's address text: a `G` address names the account, an `M` address an account
and a number. -/
inductive SourceAddress where
  | plain (a : Address)
  | muxed (id : UInt64) (key : BitVec 256)
  deriving DecidableEq

/-- An address text as an argument of a format. -/
def SourceAddress.arg : SourceAddress → Arg
  | .plain a => .address a
  | .muxed id key => .muxedAddress id key

/-- `MuxedAccount.GetAddress`. -/
def MuxedAccount.getAddress : MuxedAccount → SourceAddress
  | .ed25519 key => .plain (.account key)
  | .muxedEd25519 id key => .muxed id key

/-- The text before a decoder's complaint. -/
def decodeComplaint (complaint : String) : Message :=
  .wrap "escrow: decoding transaction envelope: " [] ⟨"%s", [.text complaint]⟩

/-- Decode a V1 envelope with exactly one operation, which invokes a host function. -/
def decodeSingleOpInvokeHostFunction :
    SignedXDR → Except Message (Transaction × List ℕ × HostFunction)
  | .empty => .error (decodeComplaint "EOF")
  | .undecodable complaint => .error (decodeComplaint complaint)
  | .envelope (.v1 tx signatures) =>
      match tx.operations with
      | [⟨_, .invokeHostFunction hostFunction _⟩] => .ok (tx, signatures, hostFunction)
      | [_] => .error ⟨"escrow: expected an InvokeHostFunction operation", []⟩
      | _ => .error ⟨"escrow: expected a single-operation v1 transaction envelope", []⟩
  | .envelope _ => .error ⟨"escrow: expected a single-operation v1 transaction envelope", []⟩

/-- The guard of every `/submit` endpoint: the envelope decodes, is signed, comes from the
account the build was made for and carries the host function the build persisted. -/
def verifySignedEnvelope (signedXDR : SignedXDR) (wantSourceAccount : Address)
    (wantHostFunctionXDR : HostFunction) : Except Message Transaction := do
  let (tx, signatures, hostFunction) ← decodeSingleOpInvokeHostFunction signedXDR
  ensure (signatures ≠ []) ⟨"escrow: signed envelope has no signatures", []⟩
  ensure (tx.sourceAccount.getAddress = .plain wantSourceAccount)
    ⟨"escrow: envelope source account %s does not match the wallet that built this operation",
      [tx.sourceAccount.getAddress.arg]⟩
  ensure (hostFunction = wantHostFunctionXDR)
    ⟨"escrow: signed host function does not match the one /build produced", []⟩
  return tx

theorem decodeSingleOpInvokeHostFunction_eq_ok {x : SignedXDR} {tx : Transaction}
    {signatures : List ℕ} {hostFunction : HostFunction} :
    decodeSingleOpInvokeHostFunction x = .ok (tx, signatures, hostFunction) ↔
      x = .envelope (.v1 tx signatures) ∧ tx.hostFunction = some hostFunction := by
  constructor
  · intro h
    unfold decodeSingleOpInvokeHostFunction at h
    split at h
    · exact nomatch h
    · exact nomatch h
    · split at h
      · rename_i tx' signatures' _ source hf auth hops
        obtain ⟨rfl, rfl, rfl⟩ := by simpa using h
        exact ⟨rfl, by rw [Transaction.hostFunction, hops]⟩
      · exact nomatch h
      · exact nomatch h
    · exact nomatch h
  · rintro ⟨rfl, hhf⟩
    unfold Transaction.hostFunction at hhf
    split at hhf
    · rename_i source hf auth hops
      obtain rfl := Option.some_inj.mp hhf
      simp only [decodeSingleOpInvokeHostFunction, hops]
    · exact nomatch hhf

/-- What an accepted envelope is. -/
theorem verifySignedEnvelope_eq_ok {x : SignedXDR} {source : Address} {hf : HostFunction}
    {tx : Transaction} :
    verifySignedEnvelope x source hf = .ok tx ↔
      ∃ signatures, signatures ≠ [] ∧ x = .envelope (.v1 tx signatures) ∧
        tx.sourceAccount.getAddress = .plain source ∧ tx.hostFunction = some hf := by
  simp only [verifySignedEnvelope, bind_eq_ok, Prod.exists, ensure_eq_ok, exists_const,
    pure_eq_ok, decodeSingleOpInvokeHostFunction_eq_ok]
  constructor
  · rintro ⟨tx', signatures, hf', ⟨rfl, hhf⟩, hsig, hsource, rfl, rfl⟩
    exact ⟨signatures, hsig, rfl, hsource, hhf⟩
  · rintro ⟨signatures, hsig, rfl, hsource, hhf⟩
    exact ⟨tx, signatures, hf, ⟨rfl, hhf⟩, hsig, hsource, rfl, rfl⟩

end Service
