/-
# Attaching signed entries

What `attachSignedAuth` accepts and what it returns (`attachSignedAuth_eq_ok`).  It pairs entries
by nonce and address alone and writes over the first entry of that pair, so the result is fully
signed exactly when that first entry is the pending one and the supplied entry signs it, and
none of the supplied entries is overwritten (`attach_fullySigned`).
-/
import Astrea.AuthEntries
import Astrea.KeyedReplace

open Guard Service KeyedReplace

namespace Auth

/-! ## Matching -/

/-- What identifies the authorization of an address entry. -/
def key (e : Entry) : Option (Int64 × Address) :=
  e.address.map fun creds => (creds.nonce, creds.address)

theorem key_eq_none {e : Entry} : key e = none ↔ e.address = none := Option.map_eq_none_iff

/-- Entries match when they have the same key, and one at all. -/
theorem authEntriesMatch_iff {a b : Entry} :
    authEntriesMatch a b = true ↔ key a = key b ∧ key b ≠ none := by
  unfold authEntriesMatch key
  cases a.address with
  | none =>
      refine ⟨nofun, fun h => ?_⟩
      rw [← h.1] at h
      exact absurd rfl h.2
  | some x =>
      cases b.address with
      | none => exact ⟨nofun, fun h => absurd rfl h.2⟩
      | some y => simp

/-- The pending entries that are not matched yet. -/
def unmatched (pending : List (Entry × Bool)) : List Entry :=
  (pending.filter fun p => !p.2).map Prod.fst

theorem unmatched_cons (p : Entry) (matched : Bool) (pending : List (Entry × Bool)) :
    unmatched ((p, matched) :: pending)
      = if matched = true then unmatched pending else p :: unmatched pending := by
  cases matched <;> rfl

/-- A match takes a pending entry with the key of the signed one. -/
theorem matchPending_eq_some {se p : Entry} {pending pending' : List (Entry × Bool)}
    (h : matchPending se pending = some (p, pending')) :
    key p = key se ∧ (unmatched pending).Perm (p :: unmatched pending') := by
  induction pending generalizing pending' with
  | nil => cases h
  | cons q pending ih =>
      obtain ⟨q, matched⟩ := q
      rw [matchPending] at h
      split at h
      · rename_i hmatch
        rw [Bool.and_eq_true, Bool.not_eq_true', authEntriesMatch_iff] at hmatch
        obtain ⟨rfl, hkey, -⟩ := hmatch
        cases h
        exact ⟨hkey, List.Perm.refl _⟩
      · obtain ⟨⟨p', pending''⟩, hrest, heq⟩ := Option.map_eq_some_iff.mp h
        cases heq
        obtain ⟨hkey, hperm⟩ := ih hrest
        refine ⟨hkey, ?_⟩
        rw [unmatched_cons, unmatched_cons]
        split
        · exact hperm
        · exact (hperm.cons q).trans (List.Perm.swap _ _ _)

/-- There is a match as long as an unmatched entry has the key. -/
theorem matchPending_isSome {se : Entry} (hse : key se ≠ none) (pending : List (Entry × Bool)) :
    (matchPending se pending).isSome = true ↔ key se ∈ (unmatched pending).map key := by
  induction pending with
  | nil => exact ⟨nofun, nofun⟩
  | cons q pending ih =>
      obtain ⟨q, matched⟩ := q
      rw [matchPending, unmatched_cons]
      split
      · rename_i hmatch
        rw [Bool.and_eq_true, Bool.not_eq_true', authEntriesMatch_iff] at hmatch
        obtain ⟨rfl, hkey, -⟩ := hmatch
        rw [if_neg Bool.false_ne_true, List.map_cons, hkey]
        exact ⟨fun _ => List.mem_cons_self, fun _ => rfl⟩
      · rename_i hno
        rw [Option.isSome_map, ih]
        cases matched with
        | true => rw [if_pos rfl]
        | false =>
            have hkey : key se ≠ key q := fun h =>
              hno (authEntriesMatch_iff.mpr ⟨h.symm, hse⟩)
            rw [if_neg Bool.false_ne_true, List.map_cons, List.mem_cons, or_iff_right hkey]

/-- The first entry of the key is written over. -/
theorem overwrite_eq {p se : Entry} (hp : key p ≠ none) (hse : key se = key p) (auth : List Entry) :
    overwrite p se auth = if key p ∈ auth.map key then some (replaceFirst key se auth) else none := by
  induction auth with
  | nil => rfl
  | cons e auth ih =>
      rw [overwrite, replaceFirst]
      by_cases h : key e = key p
      · have hmem : key p ∈ (e :: auth).map key := h ▸ List.mem_cons_self
        rw [if_pos (authEntriesMatch_iff.mpr ⟨h, hp⟩), if_pos hmem, if_pos (h.trans hse.symm)]
      · have hmem : key p ∈ (e :: auth).map key ↔ key p ∈ auth.map key := by
          rw [List.map_cons, List.mem_cons, or_iff_right (Ne.symm h)]
        have hother : ¬ key e = key se := fun heq => h (heq.trans hse)
        rw [if_neg fun hmatch => h (authEntriesMatch_iff.mp hmatch).1, ih, if_neg hother]
        simp only [hmem]
        split <;> rfl

/-- What attaching accepts, and what it makes of the operation's entries. -/
theorem attachAll_eq_ok {pending : List (Entry × Bool)} {auth signed auth' : List Entry} :
    attachAll pending auth signed = .ok auth' ↔
      (∀ s ∈ signed, key s ≠ none) ∧ (signed.map key).Subperm ((unmatched pending).map key) ∧
        (∀ s ∈ signed, key s ∈ auth.map key) ∧ auth' = replaceAll key auth signed := by
  induction signed generalizing pending auth with
  | nil =>
      rw [attachAll, Except.ok.injEq]
      exact ⟨fun h => ⟨nofun, List.nil_subperm, nofun, h.symm⟩, fun h => h.2.2.2.symm⟩
  | cons se signed ih =>
      simp only [attachAll, bind_eq_ok, ensure_eq_ok, expect_eq_ok, exists_const, Prod.exists, ih,
        List.forall_mem_cons, List.map_cons, ne_eq, ← key_eq_none]
      constructor
      · rintro ⟨hse, p, pending', hmatch, auth₁, hover, hkeys, hsub, hin, rfl⟩
        obtain ⟨hkey, hperm⟩ := matchPending_eq_some hmatch
        rw [overwrite_eq (hkey ▸ hse) hkey.symm, Option.ite_none_right_eq_some,
          Option.some_inj] at hover
        obtain ⟨hmem, rfl⟩ := hover
        rw [map_replaceFirst] at hin
        refine ⟨⟨hse, hkeys⟩, ?_, ⟨hkey ▸ hmem, hin⟩, rfl⟩
        rw [(hperm.map key).subperm_left, List.map_cons, hkey, List.subperm_cons]
        exact hsub
      · rintro ⟨⟨hse, hkeys⟩, hsub, ⟨hmem, hin⟩, rfl⟩
        obtain ⟨⟨p, pending'⟩, hmatch⟩ := Option.isSome_iff_exists.mp
          ((matchPending_isSome hse pending).mpr (hsub.subset List.mem_cons_self))
        obtain ⟨hkey, hperm⟩ := matchPending_eq_some hmatch
        refine ⟨hse, p, pending', hmatch, replaceFirst key se auth, ?_, hkeys, ?_, ?_, rfl⟩
        · rw [overwrite_eq (hkey ▸ hse) hkey.symm, if_pos (hkey ▸ hmem)]
        · rw [(hperm.map key).subperm_left, List.map_cons, hkey, List.subperm_cons] at hsub
          exact hsub
        · rw [map_replaceFirst]
          exact hin

/-! ## The envelope -/

/-- The host function and the entries of a V1 envelope with one operation that invokes one. -/
def Envelope.op : Envelope → Option (HostFunction × List Entry)
  | .v1 tx _ =>
      match tx.operations with
      | [⟨_, .invokeHostFunction hostFunction auth⟩] => some (hostFunction, auth)
      | _ => none
  | _ => none

/-- What is decoded is an envelope with such an operation. -/
theorem decodeSingleOpInvokeHostFunction_eq_ok {x : EnvelopeXDR} {e : Envelope}
    {hf : HostFunction} {auth : List Entry} :
    decodeSingleOpInvokeHostFunction x = .ok (e, hf, auth) ↔
      x = .envelope e ∧ e.op = some (hf, auth) := by
  constructor
  · intro h
    unfold decodeSingleOpInvokeHostFunction at h
    split at h
    · cases h
    · split at h
      · rename_i hops
        cases h
        exact ⟨rfl, by rw [Envelope.op, hops]⟩
      · cases h
      · cases h
    · cases h
  · rintro ⟨rfl, hop⟩
    unfold Envelope.op at hop
    split at hop
    · split at hop
      · rename_i hops
        cases hop
        simp only [decodeSingleOpInvokeHostFunction, hops]
      · cases hop
    · cases hop

/-- Overwriting the entries leaves the host function. -/
theorem Envelope.op_setAuth {e : Envelope} {hf : HostFunction} {auth : List Entry}
    (h : e.op = some (hf, auth)) (auth' : List Entry) : (e.setAuth auth').op = some (hf, auth') := by
  unfold Envelope.op at h
  split at h
  · split at h
    · rename_i hops
      cases h
      simp only [Envelope.setAuth, hops, Envelope.op]
    · cases h
  · cases h

/-- Every supplied entry is an address entry, and the pairs of nonce and address are those of the
pending entries, all of which the operation has. -/
structure Accepted (auth pending signed : List Entry) : Prop where
  address : ∀ s ∈ signed, key s ≠ none
  paired : (signed.map key).Perm (pending.map key)
  present : ∀ s ∈ signed, key s ∈ auth.map key

/-- What `attachSignedAuth` returns, and when. -/
theorem attachSignedAuth_eq_ok {tx tx' : UnsignedTx} {signed : List Entry} :
    attachSignedAuth tx signed = .ok tx' ↔
      ∃ e hf auth, tx.xdr = .envelope e ∧ e.op = some (hf, auth) ∧
        Accepted auth tx.pendingAuth signed ∧
        tx' = ⟨.envelope (e.setAuth (replaceAll key auth signed)), tx.simulatedReturn, []⟩ := by
  have hall : unmatched (tx.pendingAuth.map fun p => (p, false)) = tx.pendingAuth := by
    rw [unmatched, List.filter_eq_self.mpr, List.map_map]
    · exact List.map_id _
    · intro p hp
      obtain ⟨q, -, rfl⟩ := List.mem_map.mp hp
      rfl
  simp only [attachSignedAuth, bind_eq_ok, ensure_eq_ok, exists_const, Prod.exists,
    decodeSingleOpInvokeHostFunction_eq_ok, pure_eq_ok, attachAll_eq_ok, hall]
  constructor
  · rintro ⟨hlength, e, hf, auth, ⟨hxdr, hop⟩, auth', ⟨hkeys, hsub, hin, rfl⟩, rfl⟩
    refine ⟨e, hf, auth, hxdr, hop, ⟨hkeys, hsub.perm_of_length_le ?_, hin⟩, rfl⟩
    rw [List.length_map, List.length_map, hlength]
  · rintro ⟨e, hf, auth, hxdr, hop, ⟨hkeys, hperm, hin⟩, rfl⟩
    have hlength := hperm.length_eq
    rw [List.length_map, List.length_map] at hlength
    exact ⟨hlength, e, hf, auth, ⟨hxdr, hop⟩, _, ⟨hkeys, hperm.subperm, hin, rfl⟩, rfl⟩

/-! ## What attaching promises -/

/-- `s` has a signature, and the nonce, address, expiration and invocation of `p`. -/
def Signs (s p : Entry) : Prop :=
  ∃ creds pending, s.address = some creds ∧ p.address = some pending ∧ creds.signature ≠ .void ∧
    creds.nonce = pending.nonce ∧ creds.address = pending.address ∧
    creds.signatureExpirationLedger = pending.signatureExpirationLedger ∧
    s.rootInvocation = p.rootInvocation

/-- Each pending entry of the operation is replaced in its place by a supplied entry that signs
it, the other entries stay, and each pending and each supplied entry is used exactly once. -/
def Replaced (pending signed auth auth' : List Entry) : Prop :=
  ∃ old new, InPlaces (· ∈ pending) auth old new auth' ∧ old.Perm pending ∧ new.Perm signed ∧
    List.Forall₂ Signs new old

/-- The pending entries of the envelope's operation are replaced by the supplied ones, and
nothing else is changed. -/
structure FullySigned (tx : UnsignedTx) (signed : List Entry) (tx' : UnsignedTx) : Prop where
  envelope : ∃ e hf auth auth', tx.xdr = .envelope e ∧ e.op = some (hf, auth) ∧
    tx'.xdr = .envelope (e.setAuth auth') ∧ Replaced tx.pendingAuth signed auth auth'
  simulatedReturn : tx'.simulatedReturn = tx.simulatedReturn
  pendingAuth : tx'.pendingAuth = []

/-- The entry has a signature. -/
def IsSigned (e : Entry) : Prop := ∀ creds, e.address = some creds → creds.signature ≠ .void

/-- The pending entries stand in the operation, as often as they are pending; the first entry of
each supplied nonce and address is one of them, and the last supplied one of these signs it; and
where a nonce and address are pending more than once, the supplied entries before the last are
the pending ones behind the first, which have signatures. -/
structure WellSupplied (auth pending signed : List Entry) : Prop where
  stands : (auth.filter fun e => e ∈ pending).Perm pending
  signs : ∀ k s e, lastOf key signed k = some s → firstOf key auth k = some e →
    e ∈ pending ∧ Signs s e
  kept : ∀ s ∈ signed,
    behindFirst key signed.reverse s ≤ behindFirst key (auth.filter fun e => e ∈ pending) s
  isSigned : ∀ e ∈ pending, 0 < behindFirst key (auth.filter fun e => e ∈ pending) e → IsSigned e

/-- If the supplied entries are accepted, they are well supplied. -/
def HoldsWhen (tx : UnsignedTx) (signed : List Entry) : Prop :=
  ∀ e hf auth, tx.xdr = .envelope e → e.op = some (hf, auth) →
    Accepted auth tx.pendingAuth signed → WellSupplied auth tx.pendingAuth signed

/-- An address entry signs itself exactly when it has a signature. -/
theorem signs_self_iff {e : Entry} (he : key e ≠ none) : Signs e e ↔ IsSigned e := by
  rw [Ne, key_eq_none] at he
  obtain ⟨creds, hcreds⟩ := Option.ne_none_iff_exists'.mp he
  constructor
  · rintro ⟨creds', -, h, -, hvoid, -⟩ creds₂ h₂
    cases h.symm.trans h₂
    exact hvoid
  · intro h
    exact ⟨creds, creds, hcreds, hcreds, h creds hcreds, rfl, rfl, rfl, rfl⟩

section Attached

variable {auth pending signed : List Entry}

/-- Well supplied entries replace the pending ones. -/
theorem WellSupplied.replaced (h : WellSupplied auth pending signed)
    (haccepted : Accepted auth pending signed) :
    Replaced pending signed auth (replaceAll key auth signed) := by
  have hfirst : ∀ s ∈ signed, ∀ e, firstOf key auth (key s) = some e → e ∈ pending := by
    intro s hs e he
    obtain ⟨t, ht⟩ := Option.ne_none_iff_exists'.mp (lastOf_ne_none key hs)
    exact (h.signs (key s) t e ht he).1
  have hkeys : ((auth.filter fun e => e ∈ pending).map key).Perm (signed.map key) :=
    (h.stands.map key).trans haccepted.paired.symm
  have hlength : (auth.filter fun e => e ∈ pending).length = signed.length := by
    rw [← List.length_map key, hkeys.length_eq, List.length_map]
  refine ⟨_, _, inPlaces_replaceAll hfirst, h.stands, ?_, ?_⟩
  · refine (perm_replaceAll hlength fun s hs => ?_).mpr h.kept
    exact hkeys.mem_iff.mpr (List.mem_map_of_mem hs)
  · refine forall₂_replaceAll.mpr ⟨fun k s e hs he => ?_, fun e he hstays => ?_⟩
    · -- the first of them is the first of all
      have hmem := (List.mem_filter.mp (List.mem_of_find?_eq_some he)).1
      obtain ⟨e', he'⟩ := exists_firstOf key hmem
      rw [key_of_firstOf he] at he'
      obtain ⟨hpending, hsigns⟩ := h.signs k s e' hs he'
      cases he.symm.trans (firstOf_filter (p := (· ∈ pending)) he' hpending)
      exact hsigns
    · obtain ⟨s, hs, hkey⟩ := List.mem_map.mp (hkeys.mem_iff.mp (List.mem_map_of_mem he))
      have hbehind := hstays.resolve_right (hkey ▸ lastOf_ne_none key hs)
      rw [signs_self_iff (hkey ▸ haccepted.address s hs)]
      exact h.isSigned e (h.stands.mem_iff.mp he) hbehind

/-- Only well supplied entries do. -/
theorem Replaced.wellSupplied (h : Replaced pending signed auth (replaceAll key auth signed))
    (haccepted : Accepted auth pending signed) : WellSupplied auth pending signed := by
  obtain ⟨old, new, hin, hold, hnew, hsigns⟩ := h
  have hfirst : ∀ s ∈ signed, ∀ e, firstOf key auth (key s) = some e → e ∈ pending :=
    fun s hs e he => hin.first (fun t ht => hnew.mem_iff.mpr ht) hs he
  obtain rfl := hin.old_eq
  obtain rfl := hin.unique (inPlaces_replaceAll hfirst)
  have hkeys : ((auth.filter fun e => e ∈ pending).map key).Perm (signed.map key) := by
    rw [← map_replaceAll _ signed]
    exact hnew.map key
  have hlength : (auth.filter fun e => e ∈ pending).length = signed.length := by
    rw [← List.length_map key, hkeys.length_eq, List.length_map]
  obtain ⟨hlast, hself⟩ := forall₂_replaceAll.mp hsigns
  refine ⟨hold, fun k s e hs he => ?_, ?_, fun e he hbehind => ?_⟩
  · have hpending := hfirst s (mem_of_lastOf hs) e (by rw [key_of_lastOf hs, he])
    exact ⟨hpending, hlast k s e hs (firstOf_filter (p := (· ∈ pending)) he hpending)⟩
  · refine (perm_replaceAll hlength fun s hs => ?_).mp hnew
    exact hkeys.mem_iff.mpr (List.mem_map_of_mem hs)
  · have hmem := hold.mem_iff.mpr he
    obtain ⟨s, hs, hkey⟩ := List.mem_map.mp (hkeys.mem_iff.mp (List.mem_map_of_mem hmem))
    exact (signs_self_iff (hkey ▸ haccepted.address s hs)).mp (hself e hmem (.inl hbehind))

end Attached

/-- Attaching keeps its promise exactly when what it accepts is well supplied. -/
theorem attach_fullySigned (tx : UnsignedTx) (signed : List Entry) :
    (∀ tx', attachSignedAuth tx signed = .ok tx' → FullySigned tx signed tx') ↔
      HoldsWhen tx signed := by
  constructor
  · intro h e hf auth hxdr hop haccepted
    have hfull := h _ (attachSignedAuth_eq_ok.mpr ⟨e, hf, auth, hxdr, hop, haccepted, rfl⟩)
    obtain ⟨e', hf', auth₀, auth', hxdr', hop', hresult, hreplaced⟩ := hfull.envelope
    cases hxdr.symm.trans hxdr'
    cases hop.symm.trans hop'
    have hop₁ := Envelope.op_setAuth hop auth'
    rw [← EnvelopeXDR.envelope.inj hresult, Envelope.op_setAuth hop] at hop₁
    cases hop₁
    exact hreplaced.wellSupplied haccepted
  · intro h tx' hok
    obtain ⟨e, hf, auth, hxdr, hop, haccepted, rfl⟩ := attachSignedAuth_eq_ok.mp hok
    exact ⟨⟨e, hf, auth, _, hxdr, hop, rfl, (h e hf auth hxdr hop haccepted).replaced haccepted⟩,
      rfl, rfl⟩

/-- An address entry of one account, with a given signature. -/
def oneEntry (signature : ScVal) : Entry :=
  ⟨.address (some ⟨.account 1, 7, 100, signature⟩), 0⟩

/-- A transaction with one pending entry. -/
def oneUnsigned : UnsignedTx where
  xdr := .envelope (.v1 ⟨.ed25519 2, 1, 100, none,
    [⟨none, .invokeHostFunction (.other 0) [oneEntry .void]⟩], 0⟩ [])
  simulatedReturn := none
  pendingAuth := [oneEntry .void]

/-- The pending entry itself, without a signature, is accepted. -/
theorem attach_unsigned :
    ¬ ∀ (tx : UnsignedTx) (signed : List Entry) (tx' : UnsignedTx),
      attachSignedAuth tx signed = .ok tx' → FullySigned tx signed tx' := by
  intro hall
  have hok : attachSignedAuth oneUnsigned [oneEntry .void]
      = .ok { oneUnsigned with pendingAuth := [] } := by
    decide +kernel
  obtain ⟨-, -, -, -, -, -, -, old, new, -, -, hnew, hsigns⟩ := (hall _ _ _ hok).envelope
  rw [List.perm_singleton.mp hnew] at hsigns
  cases hsigns with
  | cons hsign _ =>
      obtain ⟨creds, -, hcreds, -, hvoid, -⟩ := hsign
      cases hcreds
      exact hvoid rfl

end Auth
