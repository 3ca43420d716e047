/-
# Two signatures

From the build to the fully signed envelope.  The entries a build lists as pending are the
stamped address entries of its envelope; each of them is signed by the key of its address; and
attaching the signed entries, in whatever order, gives one envelope in which every address entry
carries a signature of its own preimage.  It expires exactly 100 ledgers after the simulation,
unless that number does not fit 32 bits (`two_signatures`).
-/
import Astrea.AttachAuth

open Guard Service KeyedReplace

namespace Auth

/-! ## What a build returns -/

theorem address_withAddress (e : Entry) (creds : AddressCredentials) :
    (e.withAddress creds).address = some creds := rfl

theorem address_stamp (latestLedger : UInt32) (e : Entry) :
    (stamp latestLedger e).address = e.address.map fun creds =>
      { creds with signatureExpirationLedger := latestLedger + authExpirationLedgers } := by
  unfold stamp
  cases h : e.address with
  | none => exact h
  | some creds => rfl

/-- An expiration does not change the key. -/
theorem key_stamp (latestLedger : UInt32) (e : Entry) : key (stamp latestLedger e) = key e := by
  rw [key, address_stamp, Option.map_map]
  rfl

/-- The pending entries are the address entries of the stamped list. -/
theorem stampAll_eq (latestLedger : UInt32) (auth : List Entry) :
    stampAll latestLedger auth = (auth.map (stamp latestLedger),
      (auth.map (stamp latestLedger)).filter fun e => e.address.isSome) := by
  induction auth with
  | nil => rfl
  | cons e auth ih =>
      rw [stampAll, ih, List.map_cons]
      cases h : e.address with
      | none =>
          have hstamp : stamp latestLedger e = e := by rw [stamp, h]
          dsimp only
          rw [if_pos rfl, hstamp, List.filter_cons_of_neg (by simp [h])]
      | some creds =>
          dsimp only
          rw [if_neg (Option.some_ne_none _), List.filter_cons_of_pos (by rw [address_stamp, h]; rfl)]

/-- The envelope of a build has the stamped entries, and those of addresses are pending. -/
theorem buildUnsigned_eq_ok {rpc : Rpc} {sourceAddress : Address} {hf : HostFunction} {cfg : Config}
    {tx : UnsignedTx} {resp : SimulateResponse} {auth : List Entry}
    (hresp : rpc.simulateTransaction = .ok resp) (hauth : resp.auth = .ok auth)
    (h : buildUnsigned rpc sourceAddress hf cfg = .ok tx) :
    ∃ e, tx.xdr = .envelope e ∧ e.op = some (hf, auth.map (stamp resp.latestLedger)) ∧
      tx.pendingAuth
        = (auth.map (stamp resp.latestLedger)).filter fun e => e.address.isSome := by
  simp only [buildUnsigned, bind_eq_ok, expect_eq_ok, ensure_eq_ok, hresp, wrapping,
    stampAll_eq, pure_eq_ok, Except.ok.injEq] at h
  obtain ⟨sequence, -, simTx, -, _, rfl, -, -, sorobanData, -, auth', hauth', returnVal, -,
    sequence', -, finalTx, hfinal, rfl⟩ := h
  cases hauth.symm.trans hauth'
  refine ⟨_, rfl, ?_, rfl⟩
  cases sourceAddress with
  | contract hash => cases hfinal
  | account key =>
      cases hfinal
      rfl

/-! ## Signing every pending entry -/

section Signing

variable (sch : Scheme) (networkPassphrase : String) (signer : Address → sch.Secret)

/-- The entry with the signature of its address's key, when it is an address entry. -/
def signWith (e : Entry) : Entry :=
  match e.address with
  | none => e
  | some creds => e.withAddress { creds with
      signature := .vec [[("public_key", keyBytes (sch.publicKey (signer creds.address))),
        ("signature", sch.sign (signer creds.address) (sch.hash
          ⟨sch.networkID networkPassphrase, creds.nonce, creds.signatureExpirationLedger,
            e.rootInvocation⟩))]] }

/-- Each entry is signed by the key of its address. -/
def SignedBy (pending signed : List Entry) : Prop :=
  List.Forall₂ (fun p s => ∃ creds, p.address = some creds ∧
    signAuthEntry sch p (signer creds.address) networkPassphrase = .ok s) pending signed

/-- The entry carries a signature of its own preimage by the key of its address. -/
def Verifies (e : Entry) : Prop :=
  ∃ creds publicKey signature hash, e.address = some creds ∧ creds.address = .account publicKey ∧
    creds.signature = .vec [[("public_key", keyBytes publicKey), ("signature", signature)]] ∧
    authPreimageHash sch e networkPassphrase = .ok hash ∧
    sch.verify publicKey hash signature = true

variable {sch networkPassphrase signer}

/-- Nor does a signature. -/
theorem key_signWith (e : Entry) : key (signWith sch networkPassphrase signer e) = key e := by
  unfold signWith key
  split
  · rfl
  · rename_i creds h
    rw [address_withAddress, h]
    rfl

theorem address_signWith {e : Entry} {creds : AddressCredentials} (h : e.address = some creds) :
    (signWith sch networkPassphrase signer e).address = some { creds with
      signature := .vec [[("public_key", keyBytes (sch.publicKey (signer creds.address))),
        ("signature", sch.sign (signer creds.address) (sch.hash
          ⟨sch.networkID networkPassphrase, creds.nonce, creds.signatureExpirationLedger,
            e.rootInvocation⟩))]] } := by
  rw [signWith, h]
  rfl

/-- Nor does it change the invocation. -/
theorem rootInvocation_signWith (e : Entry) :
    (signWith sch networkPassphrase signer e).rootInvocation = e.rootInvocation := by
  unfold signWith
  split <;> rfl

/-- Signing an address entry succeeds. -/
theorem signAuthEntry_eq {e : Entry} {creds : AddressCredentials} (h : e.address = some creds) :
    signAuthEntry sch e (signer creds.address) networkPassphrase
      = .ok (signWith sch networkPassphrase signer e) := by
  have hkey : ∀ k : BitVec 256, (keyBytes k).length = 32 := fun k => by
    rw [keyBytes, List.length_map, List.length_range]
  simp only [signAuthEntry, bind_eq_ok, expect_eq_ok, pure_eq_ok, authPreimageHash,
    accountEd25519SignatureScVal, ensure_eq_ok, h, Option.some_inj, exists_eq_left', Except.ok.injEq,
    hkey, sch.length_sign, exists_const, true_and, signWith]

/-- All pending entries can be signed. -/
theorem signedBy_map {pending : List Entry} (h : ∀ e ∈ pending, e.address ≠ none) :
    SignedBy sch networkPassphrase signer pending
      (pending.map (signWith sch networkPassphrase signer)) := by
  rw [SignedBy, List.forall₂_map_right_iff, List.forall₂_same]
  intro e he
  obtain ⟨creds, hcreds⟩ := Option.ne_none_iff_exists'.mp (h e he)
  exact ⟨creds, hcreds, signAuthEntry_eq hcreds⟩

/-- A signed entry verifies. -/
theorem verifies_signWith {e : Entry} {creds : AddressCredentials} (h : e.address = some creds)
    (hsigner : creds.address = .account (sch.publicKey (signer creds.address))) :
    Verifies sch networkPassphrase (signWith sch networkPassphrase signer e) := by
  refine ⟨_, _, _, _, address_signWith h, hsigner, rfl, ?_, sch.verify_sign _ _⟩
  rw [authPreimageHash, address_signWith h, rootInvocation_signWith]

/-! ## Attaching what was signed -/

/-- The keys of the address entries. -/
theorem map_key_filter (l : List Entry) :
    (l.filter fun e => e.address.isSome).map key = (l.filterMap key).map some := by
  induction l with
  | nil => rfl
  | cons e l ih =>
      cases h : e.address with
      | none =>
          rw [List.filter_cons_of_neg (by simp [h]),
            List.filterMap_cons_none (key_eq_none.mpr h), ih]
      | some creds =>
          have hkey : key e = some (creds.nonce, creds.address) := by
            rw [key, h]
            rfl
          rw [List.filter_cons_of_pos (by simp [h]), List.filterMap_cons_some hkey, List.map_cons,
            List.map_cons, ih, hkey]

/-- The signed entries replace the pending ones, in whatever order they come. -/
theorem replaceAll_signWith {auth signed : List Entry} (hdistinct : (auth.filterMap key).Nodup)
    (hsigned : signed.Perm ((auth.filter fun e => e.address.isSome).map
      (signWith sch networkPassphrase signer))) :
    replaceAll key auth signed = auth.map (signWith sch networkPassphrase signer) := by
  have hkeys : (signed.map key).Perm ((auth.filterMap key).map some) := by
    rw [← map_key_filter]
    refine (hsigned.map key).trans (List.Perm.of_eq ?_)
    rw [List.map_map]
    exact List.map_congr_left fun e _ => key_signWith e
  have hnone : ∀ s ∈ signed, key s ≠ none := by
    intro s hs
    obtain ⟨k, -, hk⟩ := List.mem_map.mp (hkeys.mem_iff.mp (List.mem_map_of_mem hs))
    rw [← hk]
    exact Option.some_ne_none k
  have hnodup : (signed.map key).Nodup :=
    hkeys.nodup_iff.mpr (hdistinct.map (Option.some_injective _))
  have hpairwise : auth.Pairwise fun a b => key a = key b → ∀ s ∈ signed, key a ≠ key s := by
    refine (List.pairwise_filterMap.mp hdistinct).imp fun {a b} hne hab s hs has => ?_
    obtain ⟨k, hk⟩ := Option.ne_none_iff_exists'.mp (hnone s hs)
    exact hne k (has.trans hk) k (hab.symm.trans (has.trans hk)) rfl
  rw [replaceAll_of_nodup hnodup hpairwise]
  refine List.map_congr_left fun e he => ?_
  cases haddress : e.address with
  | none =>
      have hfind : (signed.find? fun s => key s = key e) = none := by
        rw [List.find?_eq_none]
        intro s hs heq
        rw [key_eq_none.mpr haddress, decide_eq_true_eq] at heq
        exact hnone s hs heq
      rw [hfind, Option.getD_none, signWith, haddress]
  | some creds =>
      have hmem : signWith sch networkPassphrase signer e ∈ signed :=
        hsigned.mem_iff.mpr (List.mem_map_of_mem (List.mem_filter.mpr ⟨he, by rw [haddress]; rfl⟩))
      cases hfind : signed.find? fun s => key s = key e with
      | none =>
          exact absurd (decide_eq_true (key_signWith e)) (List.find?_eq_none.mp hfind _ hmem)
      | some s =>
          have hkey : key s = key e := by simpa using List.find?_some hfind
          exact (List.inj_on_of_nodup_map hnodup) (List.mem_of_find?_eq_some hfind) hmem
            (hkey.trans (key_signWith e).symm)

/-- Attaching the signed entries of a build succeeds. -/
theorem attach_signWith {tx : UnsignedTx} {e : Envelope} {hf : HostFunction}
    {auth signed : List Entry} (hxdr : tx.xdr = .envelope e) (hop : e.op = some (hf, auth))
    (hpending : tx.pendingAuth = auth.filter fun e => e.address.isSome)
    (hdistinct : (auth.filterMap key).Nodup)
    (hsigned : signed.Perm (tx.pendingAuth.map (signWith sch networkPassphrase signer))) :
    attachSignedAuth tx signed = .ok ⟨.envelope (e.setAuth (auth.map
      (signWith sch networkPassphrase signer))), tx.simulatedReturn, []⟩ := by
  have hkeys : (signed.map key).Perm (tx.pendingAuth.map key) := by
    refine (hsigned.map key).trans (List.Perm.of_eq ?_)
    rw [List.map_map]
    exact List.map_congr_left fun e _ => key_signWith e
  have hkey : ∀ s ∈ signed, ∃ p ∈ auth, p.address ≠ none ∧ key p = key s := by
    intro s hs
    obtain ⟨p, hp, heq⟩ := List.mem_map.mp (hkeys.mem_iff.mp (List.mem_map_of_mem hs))
    rw [hpending, List.mem_filter] at hp
    exact ⟨p, hp.1, Option.isSome_iff_ne_none.mp hp.2, heq⟩
  refine attachSignedAuth_eq_ok.mpr ⟨e, hf, auth, hxdr, hop, ⟨fun s hs => ?_, hkeys, fun s hs => ?_⟩,
    ?_⟩
  · obtain ⟨p, -, hp, heq⟩ := hkey s hs
    rw [← heq, Ne, key_eq_none]
    exact hp
  · obtain ⟨p, hp, -, heq⟩ := hkey s hs
    exact heq ▸ List.mem_map_of_mem hp
  · rw [hpending] at hsigned
    rw [replaceAll_signWith hdistinct hsigned]

/-! ## The whole path -/

variable (sch networkPassphrase) in
/-- What an entry of the simulation has become: itself, or the same authorization, signed and to
expire 100 ledgers after the simulation. -/
structure Completed (latestLedger : UInt32) (before after : Entry) : Prop where
  sourceAccount : before.address = none → after = before
  address : ∀ creds, before.address = some creds → ∃ creds', after.address = some creds' ∧
    creds'.nonce = creds.nonce ∧ creds'.address = creds.address ∧
    after.rootInvocation = before.rootInvocation ∧ Verifies sch networkPassphrase after ∧
    creds'.signatureExpirationLedger.toNat = latestLedger.toNat + 100

variable (sch networkPassphrase signer) in
/-- The pending entries can be signed, attaching them in any order gives one transaction, and in
its envelope only the entries have changed, each of them as promised. -/
def Completes (hf : HostFunction) (latestLedger : UInt32) (auth : List Entry) (tx : UnsignedTx) :
    Prop :=
  ∃ all tx' e auth', SignedBy sch networkPassphrase signer tx.pendingAuth all ∧
    (∀ signed : List Entry, signed.Perm all → attachSignedAuth tx signed = .ok tx') ∧
    tx.xdr = .envelope e ∧ tx'.xdr = .envelope (e.setAuth auth') ∧
    (e.setAuth auth').op = some (hf, auth') ∧
    List.Forall₂ (Completed sch networkPassphrase latestLedger) auth auth'

/-- Every entry is completed by one. -/
theorem exists_completed {latestLedger : UInt32} {auth auth' : List Entry} {before : Entry}
    (h : List.Forall₂ (Completed sch networkPassphrase latestLedger) auth auth')
    (hmem : before ∈ auth) : ∃ after, Completed sch networkPassphrase latestLedger before after := by
  induction h with
  | nil => cases hmem
  | cons hfirst _ ih =>
      rcases List.mem_cons.mp hmem with rfl | hmem
      · exact ⟨_, hfirst⟩
      · exact ih hmem

/-- A stamped and signed entry is what was promised, when the expiration fits. -/
theorem completed_signWith {latestLedger : UInt32} {before : Entry}
    (hfits : before.address = none ∨ latestLedger.toNat + 100 < 2 ^ 32)
    (hsigner : ∀ creds, before.address = some creds →
      creds.address = .account (sch.publicKey (signer creds.address))) :
    Completed sch networkPassphrase latestLedger before
      (signWith sch networkPassphrase signer (stamp latestLedger before)) := by
  constructor
  · intro h
    have hstamp : stamp latestLedger before = before := by rw [stamp, h]
    rw [hstamp, signWith, h]
  · intro creds h
    have hstamped : (stamp latestLedger before).address = some { creds with
        signatureExpirationLedger := latestLedger + authExpirationLedgers } := by
      rw [address_stamp, h]
      rfl
    have hroot : (stamp latestLedger before).rootInvocation = before.rootInvocation := by
      rw [stamp, h]
      rfl
    have hverifies : Verifies sch networkPassphrase
        (signWith sch networkPassphrase signer (stamp latestLedger before)) :=
      verifies_signWith hstamped (hsigner creds h)
    have hfits := hfits.resolve_left (by rw [h]; exact Option.some_ne_none creds)
    refine ⟨_, address_signWith hstamped, rfl, rfl, ?_, hverifies, ?_⟩
    · rw [rootInvocation_signWith]
      exact hroot
    · rw [UInt32.toNat_add, show authExpirationLedgers.toNat = 100 from rfl,
        Nat.mod_eq_of_lt hfits]

/-- The path from a build to the fully signed envelope completes exactly when the expiration fits
32 bits or no entry needs one. -/
theorem two_signatures {rpc : Rpc} {sourceAddress : Address} {hf : HostFunction} {cfg : Config}
    {tx : UnsignedTx} {resp : SimulateResponse} {auth : List Entry}
    (hresp : rpc.simulateTransaction = .ok resp) (hauth : resp.auth = .ok auth)
    (hbuild : buildUnsigned rpc sourceAddress hf cfg = .ok tx)
    (hdistinct : (auth.filterMap key).Nodup)
    (hsigner : ∀ e ∈ auth, ∀ creds, e.address = some creds →
      creds.address = .account (sch.publicKey (signer creds.address))) :
    Completes sch networkPassphrase signer hf resp.latestLedger auth tx ↔
      (∀ e ∈ auth, e.address = none) ∨ resp.latestLedger.toNat + 100 < 2 ^ 32 := by
  obtain ⟨e, hxdr, hop, hpending⟩ := buildUnsigned_eq_ok hresp hauth hbuild
  constructor
  · rintro ⟨all, tx', e', auth', -, -, -, -, -, hcompleted⟩
    by_cases hnone : ∀ e ∈ auth, e.address = none
    · exact .inl hnone
    · simp only [not_forall, exists_prop] at hnone
      obtain ⟨before, hmem, haddress⟩ := hnone
      obtain ⟨creds, hcreds⟩ := Option.ne_none_iff_exists'.mp haddress
      obtain ⟨after, hafter⟩ := exists_completed hcompleted hmem
      obtain ⟨creds', -, -, -, -, -, hledger⟩ := hafter.address creds hcreds
      exact .inr (hledger ▸ creds'.signatureExpirationLedger.toNat_lt)
  · intro hfits
    have hkeys : ((auth.map (stamp resp.latestLedger)).filterMap key).Nodup := by
      rw [List.filterMap_map]
      have hcomp : key ∘ stamp resp.latestLedger = key := funext (key_stamp resp.latestLedger)
      rwa [hcomp]
    have haddresses : ∀ p ∈ tx.pendingAuth, p.address ≠ none := by
      intro p hp
      rw [hpending, List.mem_filter] at hp
      exact Option.isSome_iff_ne_none.mp hp.2
    refine ⟨_, _, e, _, signedBy_map haddresses, fun signed hsigned =>
      attach_signWith hxdr hop hpending hkeys hsigned, hxdr, rfl, Envelope.op_setAuth hop _, ?_⟩
    rw [List.map_map, List.forall₂_map_right_iff, List.forall₂_same]
    intro before hmem
    exact completed_signWith (hfits.imp_left fun h => h before hmem) (hsigner before hmem)

end Signing

/-! ## A build with two accounts to sign -/

/-- A scheme in which a signature is the key and the message. -/
def plainScheme : Scheme where
  Secret := BitVec 256
  publicKey := id
  sign secret message := keyBytes secret ++ keyBytes message
  verify publicKey message signature := signature = keyBytes publicKey ++ keyBytes message
  networkID _ := 1
  hash preimage := BitVec.ofNat 256 preimage.signatureExpirationLedger.toNat
  length_sign secret message := by
    rw [List.length_append, keyBytes, keyBytes, List.length_map, List.length_map, List.length_range]
  verify_sign secret message := decide_eq_true rfl

/-- The key of an address. -/
def plainSigner : Address → BitVec 256
  | .account key => key
  | .contract hash => hash

/-- What a simulation at a ledger asks for: an entry of the source account between entries of two
other accounts. -/
def twoAccounts : List Entry :=
  [⟨.address (some ⟨.account 1, 7, 0, .void⟩), 4⟩, ⟨.sourceAccount, 5⟩,
    ⟨.address (some ⟨.account 3, 8, 0, .void⟩), 6⟩]

def twoEntries (latestLedger : UInt32) : Rpc where
  loadAccount := .ok 1
  simulateTransaction := .ok ⟨"", .ok 0, 0, [⟨some (twoAccounts.map .ok), none⟩], latestLedger⟩
  reloadAccount := .ok 1
  now := 0
  later := 0

/-- What is built from it. -/
def twoUnsigned (latestLedger : UInt32) : UnsignedTx where
  xdr := .envelope (.v1 ⟨.ed25519 2, 2, 100, some (0, 60),
    [⟨some (.ed25519 2), .invokeHostFunction (.other 0) (twoAccounts.map (stamp latestLedger))⟩],
      0⟩ [])
  simulatedReturn := none
  pendingAuth := (twoAccounts.map (stamp latestLedger)).filter fun e => e.address.isSome

theorem buildUnsigned_twoEntries (latestLedger : UInt32) :
    buildUnsigned (twoEntries latestLedger) (.account 2) (.other 0) ⟨0, 0, 0, 0⟩
      = .ok (twoUnsigned latestLedger) := rfl

/-- At an ordinary ledger the path completes, also when the second signature is attached first. -/
theorem two_signatures_ordinary :
    Completes plainScheme "" plainSigner (.other 0) 12345 twoAccounts (twoUnsigned 12345) ∧
      ∃ s₁ s₂ tx', SignedBy plainScheme "" plainSigner (twoUnsigned 12345).pendingAuth [s₁, s₂] ∧
        attachSignedAuth (twoUnsigned 12345) [s₁, s₂] = .ok tx' ∧
        attachSignedAuth (twoUnsigned 12345) [s₂, s₁] = .ok tx' := by
  have hresp : (twoEntries 12345).simulateTransaction = .ok _ := rfl
  have hcompletes : Completes plainScheme "" plainSigner (.other 0) 12345 twoAccounts
      (twoUnsigned 12345) := by
    refine (two_signatures hresp rfl (buildUnsigned_twoEntries 12345) (by decide)
      fun e he creds hcreds => ?_).mpr (.inr (by decide))
    rcases List.mem_cons.mp he with rfl | he
    · cases hcreds
      rfl
    · rcases List.mem_pair.mp he with rfl | rfl
      · cases hcreds
      · cases hcreds
        rfl
  refine ⟨hcompletes, ?_⟩
  obtain ⟨all, tx', -, -, hsigned, hattach, -⟩ := hcompletes
  obtain ⟨s₁, s₂, rfl⟩ := List.length_eq_two.mp (show all.length = 2 from hsigned.length_eq.symm)
  exact ⟨s₁, s₂, tx', hsigned, hattach _ (List.Perm.refl _), hattach _ (List.Perm.swap s₁ s₂ [])⟩

/-- At the last ledger the expiration wraps. -/
theorem two_signatures_last :
    buildUnsigned (twoEntries 4294967295) (.account 2) (.other 0) ⟨0, 0, 0, 0⟩
        = .ok (twoUnsigned 4294967295) ∧
      ¬ Completes plainScheme "" plainSigner (.other 0) 4294967295 twoAccounts
        (twoUnsigned 4294967295) := by
  refine ⟨buildUnsigned_twoEntries _, ?_⟩
  rintro ⟨all, tx', e, auth', -, -, -, -, -, hcompleted⟩
  obtain ⟨after, hafter⟩ := exists_completed hcompleted List.mem_cons_self
  obtain ⟨creds', -, -, -, -, -, hledger⟩ := hafter.address _ rfl
  have hlt := creds'.signatureExpirationLedger.toNat_lt
  rw [hledger] at hlt
  exact absurd hlt (by decide)

end Auth
