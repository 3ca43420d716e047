/-
# A nonce signs in once

Any number of sign-ins and nonce requests take turns, call by call, at any clock readings.
A nonce is created once; whoever deletes its row is the only one to do so, and once the row
is gone nobody finds it again.  So the call that signs in with a nonce is the one that
consumed it (`nonce_single_use`), whatever happens between its lookup and its deletion.
-/
import Astrea.SessionObligations

open Interleave Interleave.Guarded

namespace WalletSession

variable {pf : Platform}

/-! ## Runs -/

abbrev SessionConfig : Type := Interleave.Config Site Op Op.Res (Except Failure Reply)

abbrev SessionLabel : Type := Interleave.Label Op Op.Res Request EnvEvent

/-- One step of the application and its clients. -/
abbrev SessionStep (pf : Platform) : SessionConfig → SessionLabel → SessionConfig → Prop :=
  Interleave.Step (serve pf) Site.perform Site.environment

abbrev SessionTransition : Type := Transition SessionConfig SessionLabel

/-- A run of the application from its launch. -/
abbrev SessionRun (pf : Platform) (tr : List SessionTransition) (c : SessionConfig) : Prop :=
  Run (SessionStep pf) (start launched) tr c

variable {tr : List SessionTransition} {c : SessionConfig}

/-- The invariant rule: a property of the world and the log is kept by every orderly call and
by every move of the environment. -/
theorem SessionRun.invariant {C : SessionTransition → Prop} {I : Site → Log → Prop}
    (hr : SessionRun pf tr c) (hC : ∀ t ∈ tr, C t) (h₀ : I launched [])
    (hcall : ∀ (c : SessionConfig) t op r s p, C ⟨c, .did t ⟨op, r⟩, c.advance t ⟨op, r⟩ s p⟩ →
      I c.world c.log → Orderly (historyOf t c.log) op → Performed c.world op r s →
      I s ((t, ⟨op, r⟩) :: c.log))
    (henv : ∀ (c : SessionConfig) event s, C ⟨c, .env event, c.moved s⟩ → I c.world c.log →
      Moved c.world event s → I s c.log) : I c.world c.log :=
  invariant_of_calls (serve_orderly pf) hr hC h₀
    (fun c t op _ r s p hcond _ hI hop hperf =>
      hcall c t op r s p hcond hI hop (perform_eq_some hperf))
    (fun c event s hcond _ hI hmove => henv c event s hcond hI (environment_eq_some hmove))

/-! ## The life of a nonce -/

/-- The nonce was issued with this row. -/
def IssuedAs (log : Log) (nonce : String) (row : NonceRow) : Prop :=
  ∃ t, (t, ⟨.authNonceCreate nonce row, .ok ()⟩) ∈ log

/-- The nonce was issued, and its row is gone. -/
def Spent (s : Site) (log : Log) (nonce : String) : Prop :=
  (∃ row, IssuedAs log nonce row) ∧ s.authNonces.lookup nonce = none

/-- The log agrees with the world: an id was drawn once, a nonce created once and by the call
that drew it, a row that is stored or was found is as it was created, and a nonce that some
call deleted, or failed to delete, is spent. -/
structure NoncesSound (s : Site) (log : Log) : Prop where
  drawn : ∀ t id, (t, ⟨.randomUUID, id⟩) ∈ log → id ∈ s.uuids
  drawnOnce : ∀ t t' id, (t, ⟨.randomUUID, id⟩) ∈ log → (t', ⟨.randomUUID, id⟩) ∈ log → t = t'
  created : ∀ t nonce row, (t, ⟨.authNonceCreate nonce row, .ok ()⟩) ∈ log →
    (t, ⟨.randomUUID, nonce⟩) ∈ log
  createdOnce : ∀ nonce row row', IssuedAs log nonce row → IssuedAs log nonce row' → row = row'
  stored : ∀ nonce row, s.authNonces.lookup nonce = some row → IssuedAs log nonce row
  found : ∀ t nonce row, (t, ⟨.authNonceFindUnique nonce, some row⟩) ∈ log →
    IssuedAs log nonce row
  spent : ∀ t nonce r, (t, ⟨.authNonceDelete nonce, r⟩) ∈ log → Spent s log nonce
  consumedOnce : ∀ t t' nonce, (t, ⟨.authNonceDelete nonce, .ok ()⟩) ∈ log →
    (t', ⟨.authNonceDelete nonce, .ok ()⟩) ∈ log → t = t'

theorem noncesSound_launched : NoncesSound launched [] where
  drawn := fun _ _ h => absurd h List.not_mem_nil
  drawnOnce := fun _ _ _ h => absurd h List.not_mem_nil
  created := fun _ _ _ h => absurd h List.not_mem_nil
  createdOnce := fun _ _ _ ⟨_, h⟩ => absurd h List.not_mem_nil
  stored := fun _ _ h => nomatch h
  found := fun _ _ _ h => absurd h List.not_mem_nil
  spent := fun _ _ _ h => absurd h List.not_mem_nil
  consumedOnce := fun _ _ _ h => absurd h List.not_mem_nil

section Step

variable {s s' : Site} {log : Log} {t : ℕ} {op : Op} {r : op.Res} {nonce : String}
  {row : NonceRow}

/-- What was issued stays issued. -/
theorem IssuedAs.cons (h : IssuedAs log nonce row) (e : ℕ × Done) :
    IssuedAs (e :: log) nonce row := by
  obtain ⟨t, hmem⟩ := h
  exact ⟨t, List.mem_cons_of_mem _ hmem⟩

/-- A nonce that is created now was not created before. -/
theorem NoncesSound.not_issued (h : NoncesSound s log)
    (hop : Orderly (historyOf t log) (.authNonceCreate nonce row)) (row' : NonceRow) :
    ¬ IssuedAs log nonce row' := by
  rintro ⟨t', hmem⟩
  -- only the call that drew the id creates it, and that call has not created anything yet
  obtain rfl := h.drawnOnce t' t nonce (h.created t' nonce row' hmem) (mem_historyOf.mp hop.1)
  exact hop.2 _ (mem_historyOf.mpr hmem) trivial

/-- What a call leaves of a spent nonce. -/
theorem Performed.spent (hp : Performed s op r s') (h : NoncesSound s log)
    (hop : Orderly (historyOf t log) op) (hs : Spent s log nonce) :
    Spent s' ((t, ⟨op, r⟩) :: log) nonce := by
  obtain ⟨⟨row, hissued⟩, hnone⟩ := hs
  refine ⟨⟨row, hissued.cons _⟩, ?_⟩
  cases hp with
  | pruned =>
      rw [Option.eq_none_iff_forall_ne_some] at hnone ⊢
      exact fun row' hrow' => hnone row' (KeyTable.lookup_filter_eq_some.mp hrow').1
  | @nonceCreated nonce' row' =>
      have hne : nonce ≠ nonce' := by
        rintro rfl
        exact h.not_issued hop row hissued
      rwa [AList.lookup_insert_ne hne]
  | @nonceDeleted nonce' =>
      rw [Option.eq_none_iff_forall_ne_some] at hnone ⊢
      exact fun row' hrow' => hnone row' (KeyTable.lookup_erase_eq_some.mp hrow').2
  | _ => exact hnone

/-- A deletion, successful or not, spends its nonce. -/
theorem Performed.deletes {r : Except Failure Unit} (hp : Performed s (.authNonceDelete nonce) r s')
    : s'.authNonces.lookup nonce = none := by
  cases hp with
  | nonceDeleted there => rw [AList.lookup_erase]
  | nonceMissing missing => exact missing

/-- What the table holds after a call it held before, or it was created by the call. -/
theorem Performed.stored (hp : Performed s op r s')
    (hrow : s'.authNonces.lookup nonce = some row) :
    s.authNonces.lookup nonce = some row ∨
      (⟨op, r⟩ : Done) = ⟨.authNonceCreate nonce row, .ok ()⟩ := by
  cases hp with
  | pruned => exact .inl (KeyTable.lookup_filter_eq_some.mp hrow).1
  | nonceCreated =>
      rcases KeyTable.lookup_insert_eq_some.mp hrow with ⟨rfl, rfl⟩ | ⟨-, hold⟩
      · exact .inr rfl
      · exact .inl hold
  | nonceDeleted => exact .inl (KeyTable.lookup_erase_eq_some.mp hrow).2
  | _ => exact .inl hrow

theorem Performed.uuids (hp : Performed s op r s') : ∀ id ∈ s.uuids, id ∈ s'.uuids := by
  cases hp <;> first | exact fun _ h => h | exact fun _ h => List.mem_cons_of_mem _ h

/-- A call keeps the log and the world in agreement. -/
theorem NoncesSound.step (h : NoncesSound s log) (hop : Orderly (historyOf t log) op)
    (hp : Performed s op r s') : NoncesSound s' ((t, ⟨op, r⟩) :: log) where
  drawn := by
    intro t' id hmem
    rcases List.mem_cons.mp hmem with heq | hold
    · cases heq
      cases hp with
      | drew fresh => exact List.mem_cons_self
    · exact hp.uuids id (h.drawn t' id hold)
  drawnOnce := by
    intro t₁ t₂ id h₁ h₂
    -- an id drawn now was not drawn before
    rcases List.mem_cons.mp h₁ with heq | hold
    · cases heq
      rcases List.mem_cons.mp h₂ with heq' | hold'
      · cases heq'
        rfl
      · cases hp with
        | drew fresh => exact absurd (h.drawn t₂ id hold') fresh
    · rcases List.mem_cons.mp h₂ with heq' | hold'
      · cases heq'
        cases hp with
        | drew fresh => exact absurd (h.drawn t₁ id hold) fresh
      · exact h.drawnOnce t₁ t₂ id hold hold'
  created := by
    intro t' nonce row hmem
    rcases List.mem_cons.mp hmem with heq | hold
    · cases heq
      exact List.mem_cons_of_mem _ (mem_historyOf.mp hop.1)
    · exact List.mem_cons_of_mem _ (h.created t' nonce row hold)
  createdOnce := by
    rintro nonce row row' ⟨t₁, h₁⟩ ⟨t₂, h₂⟩
    rcases List.mem_cons.mp h₁ with heq | hold <;> rcases List.mem_cons.mp h₂ with heq' | hold'
    · cases heq
      cases heq'
      rfl
    · cases heq
      exact absurd ⟨t₂, hold'⟩ (h.not_issued hop row')
    · cases heq'
      exact absurd ⟨t₁, hold⟩ (h.not_issued hop row)
    · exact h.createdOnce nonce row row' ⟨t₁, hold⟩ ⟨t₂, hold'⟩
  stored := by
    intro nonce row hrow
    rcases hp.stored hrow with hold | heq
    · exact (h.stored nonce row hold).cons _
    · rw [heq]
      exact ⟨t, List.mem_cons_self⟩
  found := by
    intro t' nonce row hmem
    rcases List.mem_cons.mp hmem with heq | hold
    · cases heq
      cases hp with
      | nonceFound stored => exact (h.stored nonce row stored.symm).cons _
    · exact (h.found t' nonce row hold).cons _
  spent := by
    intro t' nonce r' hmem
    rcases List.mem_cons.mp hmem with heq | hold
    · cases heq
      obtain ⟨entry, hentry⟩ := hop
      exact ⟨⟨entry, (h.found t nonce entry (mem_historyOf.mp hentry)).cons _⟩, hp.deletes⟩
    · exact hp.spent h hop (h.spent t' nonce r' hold)
  consumedOnce := by
    intro t₁ t₂ nonce h₁ h₂
    -- a row that is deleted now was not deleted before
    have hnew : ∀ t', (t', (⟨.authNonceDelete nonce, .ok ()⟩ : Done)) ∈ log →
        (⟨op, r⟩ : Done) ≠ ⟨.authNonceDelete nonce, .ok ()⟩ := by
      intro t' hold heq
      cases heq
      cases hp with
      | nonceDeleted there =>
          rw [(h.spent t' nonce _ hold).2] at there
          exact nomatch there
    rcases List.mem_cons.mp h₁ with heq | hold <;> rcases List.mem_cons.mp h₂ with heq' | hold'
    · rw [(Prod.mk.inj heq).1, (Prod.mk.inj heq').1]
    · exact absurd (Prod.mk.inj heq).2.symm (hnew t₂ hold')
    · exact absurd (Prod.mk.inj heq').2.symm (hnew t₁ hold)
    · exact h.consumedOnce t₁ t₂ nonce hold hold'

/-- Nothing outside the site touches a nonce. -/
theorem NoncesSound.moved {event : EnvEvent} (h : NoncesSound s log) (hm : Moved s event s') :
    NoncesSound s' log := by
  cases hm <;> exact ⟨h.drawn, h.drawnOnce, h.created, h.createdOnce, h.stored, h.found, h.spent,
    h.consumedOnce⟩

end Step

/-- In every run the log agrees with the world. -/
theorem SessionRun.noncesSound (hr : SessionRun pf tr c) : NoncesSound c.world c.log :=
  hr.invariant (C := fun _ => True) (fun _ _ => trivial) noncesSound_launched
    (fun _ _ _ _ _ _ _ hI hop hp => hI.step hop hp) fun _ _ _ _ hI hm => hI.moved hm

/-- Once a nonce is spent it stays so, and no call consumes it any more. -/
theorem SessionRun.stays_spent {tr' : List SessionTransition} {c' : SessionConfig}
    {nonce : String} (hr : SessionRun pf tr c) (hr' : Run (SessionStep pf) c tr' c')
    (hs : Spent c.world c.log nonce) :
    Spent c'.world c'.log nonce ∧ ∀ i, (i, ⟨.authNonceDelete nonce, .ok ()⟩) ∈ c'.log →
      (i, ⟨.authNonceDelete nonce, .ok ()⟩) ∈ c.log := by
  induction hr' with
  | nil => exact ⟨hs, fun _ h => h⟩
  | @snoc tr' s l s' run step ih =>
      obtain ⟨hspent, hold⟩ := ih
      have hrun : SessionRun pf (tr ++ tr') s := hr.append run
      cases step with
      | spawn => exact ⟨hspent, hold⟩
      | env moved =>
          cases environment_eq_some moved <;> exact ⟨hspent, hold⟩
      | did thread performed =>
          have hp := perform_eq_some performed
          have hop := (obeys_of_run (serve_orderly pf) hrun).permitted thread
          refine ⟨hp.spent hrun.noncesSound hop hspent, fun i hi => ?_⟩
          rcases List.mem_cons.mp hi with heq | hmem
          · -- there is no row left to delete
            cases heq
            cases hp with
            | nonceDeleted there =>
                rw [hspent.2] at there
                exact nomatch there
          · exact hold i hmem

/-! ## Sign-ins -/

/-- The signature is one by the key of the address over the message, digested or raw. -/
def Platform.Signed (pf : Platform) (address message signature : String) : Prop :=
  (signatureBytes signature).length = 64 ∧
    (pf.verify address (pf.sep53Digest (utf8 message)) (signatureBytes signature) = true ∨
      pf.verify address (utf8 message) (signatureBytes signature) = true)

/-- A signature that verifies is one. -/
theorem Platform.signed_of_verify {address message signature : String}
    (h : pf.verifyStellarSignature address message signature = true) :
    pf.Signed address message signature := by
  unfold verifyStellarSignature at h
  split at h
  · exact nomatch h
  · simp only at h
    split at h
    · exact nomatch h
    · rename_i hlength
      exact ⟨not_not.mp hlength, Bool.or_eq_true_iff.mp h⟩

/-- Request `i` of the run has signed in with this input. -/
def SignedIn (tr : List SessionTransition) (c : SessionConfig) (i : ℕ) (input : AssociateInput) :
    Prop :=
  ∃ client session, (requestsOf tr)[i]? = some ⟨client, .associateVerifiedWallet input⟩ ∧
    c.answerOf i = some (.ok (.associated session))

/-- What a sign-in rests on: a nonce request for exactly its address created the row it found,
it accepted the nonce and nobody else consumed it, and it carried a signature of the
address. -/
structure RestsOn (pf : Platform) (tr : List SessionTransition) (c : SessionConfig) (i : ℕ)
    (input : AssociateInput) (entry : NonceRow) : Prop where
  issued : ∃ j client, (requestsOf tr)[j]? = some ⟨client, .getAuthNonce input.address⟩ ∧
    (j, ⟨.authNonceCreate input.nonce entry, .ok ()⟩) ∈ c.log
  accepted : NonceAccepted (historyOf i c.log) input.nonce input.address entry
  alone : ∀ i', (i', ⟨.authNonceDelete input.nonce, .ok ()⟩) ∈ c.log → i' = i
  signed : pf.Signed input.address (formatAuthMessage input.address input.nonce) input.signature

/-- The step presents an issued nonce: it deletes its row, or tries to, or finds it gone. -/
def Presents (nonce : String) (t : SessionTransition) : Prop :=
  (∃ i r, t.label = .did i ⟨.authNonceDelete nonce, r⟩) ∨
    (∃ i, t.label = .did i ⟨.authNonceFindUnique nonce, none⟩) ∧
      ∃ row, IssuedAs t.pre.log nonce row

/-- A nonce that was created is one some nonce request asked for. -/
theorem SessionRun.requested (hr : SessionRun pf tr c) {j : ℕ} {nonce : String} {row : NonceRow}
    (hmem : (j, ⟨.authNonceCreate nonce row, .ok ()⟩) ∈ c.log) :
    ∃ client, (requestsOf tr)[j]? = some ⟨client, .getAuthNonce row.address⟩ := by
  obtain ⟨⟨client, action⟩, past, -, hreq, -, haction⟩ :=
    permitted_of_mem_log (serve_keeps pf) hr hmem
  obtain rfl : action = .getAuthNonce row.address := haction
  exact ⟨client, hreq⟩

/-- A nonce that was found is one some nonce request created for the address it names. -/
theorem SessionRun.issued (hr : SessionRun pf tr c) {i : ℕ} {nonce : String} {entry : NonceRow}
    (hfound : (i, ⟨.authNonceFindUnique nonce, some entry⟩) ∈ c.log) :
    ∃ j client, (requestsOf tr)[j]? = some ⟨client, .getAuthNonce entry.address⟩ ∧
      (j, ⟨.authNonceCreate nonce entry, .ok ()⟩) ∈ c.log := by
  obtain ⟨j, hcreated⟩ := hr.noncesSound.found i nonce entry hfound
  obtain ⟨client, hreq⟩ := hr.requested hcreated
  exact ⟨j, client, hreq, hcreated⟩

/-- Every sign-in rests on a nonce. -/
theorem SessionRun.restsOn (hr : SessionRun pf tr c) {i : ℕ} {input : AssociateInput}
    (hs : SignedIn tr c i input) : ∃ entry, RestsOn pf tr c i input entry := by
  obtain ⟨client, session, hreq, hanswer⟩ := hs
  obtain ⟨input', entry, hsigns⟩ := answered_of_run (serve_keeps pf) hr hanswer hreq _ rfl
  obtain rfl : input = input' := Action.associateVerifiedWallet.inj hsigns.action
  have haccepted := hsigns.accepted
  have hissued := hr.issued (mem_historyOf.mp haccepted.found)
  rw [haccepted.issuedFor] at hissued
  refine ⟨entry, hissued, haccepted, fun i' h' => ?_, Platform.signed_of_verify hsigns.verified⟩
  exact hr.noncesSound.consumedOnce i' i _ h' (mem_historyOf.mp haccepted.deleted)

/-- After a step that presents a nonce, the nonce is spent. -/
theorem SessionRun.spent_of_presents (hr : SessionRun pf tr c) {t : SessionTransition}
    {nonce : String} (hs : SessionStep pf c t.label t.post) (hpre : t.pre = c)
    (hpresents : Presents nonce t) : Spent t.post.world t.post.log nonce := by
  have hpost : SessionRun pf (tr ++ [⟨c, t.label, t.post⟩]) t.post := .snoc hr hs
  obtain ⟨pre, label, post⟩ := t
  obtain rfl : pre = c := hpre
  rcases hpresents with ⟨i, r, hlabel⟩ | ⟨⟨i, hlabel⟩, row, hissued⟩
  · simp only at hlabel
    subst hlabel
    refine hpost.noncesSound.spent i nonce r ?_
    cases hs with
    | did thread performed => exact List.mem_cons_self
  · simp only at hlabel
    subst hlabel
    cases hs with
    | did thread performed =>
        refine ⟨⟨row, hissued.cons _⟩, ?_⟩
        cases perform_eq_some performed with
        | nonceFound stored => exact stored.symm

/-- Every sign-in rests on a nonce that was issued for its address, accepted in time and
consumed by nobody else, and on a signature of the address; so a nonce signs in once, not at all
when the call that consumed it came with another address or too late, and never again after
it was presented: only a call that had consumed it by then can still succeed. -/
theorem nonce_single_use (hr : SessionRun pf tr c) :
    (∀ i input, SignedIn tr c i input → ∃ entry, RestsOn pf tr c i input entry) ∧
    (∀ i i' input input', SignedIn tr c i input → SignedIn tr c i' input' →
      input.nonce = input'.nonce → i = i') ∧
    (∀ i client input entry,
      (requestsOf tr)[i]? = some ⟨client, .associateVerifiedWallet input⟩ →
      (i, ⟨.authNonceFindUnique input.nonce, some entry⟩) ∈ c.log →
      (i, ⟨.authNonceDelete input.nonce, .ok ()⟩) ∈ c.log →
      (entry.address ≠ input.address ∨ ∃ now, (i, ⟨.now, now⟩) ∈ c.log ∧ entry.expiresAt ≤ now) →
      ∀ i' input', SignedIn tr c i' input' → input'.nonce ≠ input.nonce) ∧
    ∀ before t after nonce, tr = before ++ t :: after → Presents nonce t →
      ∀ i input, SignedIn tr c i input → input.nonce = nonce →
        (i, ⟨.authNonceDelete nonce, .ok ()⟩) ∈ t.post.log := by
  have hsound := hr.noncesSound
  refine ⟨fun i input hs => hr.restsOn hs, ?_, ?_, ?_⟩
  · intro i i' input input' hs hs' hnonce
    obtain ⟨entry, hrests⟩ := hr.restsOn hs
    obtain ⟨entry', hrests'⟩ := hr.restsOn hs'
    refine hrests'.alone i ?_
    rw [← hnonce]
    exact mem_historyOf.mp hrests.accepted.deleted
  · rintro i client input entry hreq hfound hdeleted hmisused i' input' hs hnonce
    obtain ⟨entry', hrests⟩ := hr.restsOn hs
    -- the sign-in would be the very call that consumed the nonce
    obtain rfl : i = i' := hrests.alone i (by rwa [hnonce])
    obtain ⟨client', session, hreq', -⟩ := hs
    rw [hreq, Option.some_inj] at hreq'
    cases hreq'
    obtain rfl : entry = entry' := hsound.createdOnce input.nonce _ _
      (hsound.found i _ entry hfound)
      (hsound.found i _ entry' (mem_historyOf.mp hrests.accepted.found))
    rcases hmisused with haddress | ⟨now, hnow, hexpired⟩
    · exact haddress hrests.accepted.issuedFor
    · exact absurd (hrests.accepted.unexpired now (mem_historyOf.mpr hnow)) (not_lt.mpr hexpired)
  · rintro before t after nonce rfl hpresents i input hs rfl
    obtain ⟨hbefore, hstep, hafter⟩ := hr.split
    have hpost : SessionRun pf (before ++ [t]) t.post := hbefore.snoc hstep
    obtain ⟨entry, hrests⟩ := hr.restsOn hs
    have hspent := SessionRun.spent_of_presents hbefore hstep rfl hpresents
    refine (hpost.stays_spent hafter hspent).2 i ?_
    exact mem_historyOf.mp hrests.accepted.deleted

/-! ## A sign-in -/

namespace Sample

def address : String := "GAB2CB576PHBBPQ5ODORRZ2LYCMWPZGWGCN2KDK7DXOIMZASKUY3QZ6Q"

def nonce : String := "00000000-0000-4000-8000-000000000001"

/-- The address's signature over the SEP-53 digest of its message for the nonce. -/
def signatureText : String :=
  "pevBC0pcVmXCIh6VytBIDBE/gOCCQl9C1PV9q4p0bba7GvI4/ac2BwULUnc46jS8zS+8DXxH9xgrveTZb8lXCw=="

/-- The digest that was signed. -/
def digest : List UInt8 :=
  [0x5e, 0x8b, 0x11, 0x86, 0x93, 0xfc, 0xf5, 0x3d, 0xdd, 0x4c, 0xb8, 0xa1, 0x5f, 0x8e, 0x73, 0x7a,
   0x1f, 0xb4, 0x48, 0x2b, 0x72, 0xba, 0xc6, 0xc2, 0x89, 0xf6, 0x17, 0x6a, 0x06, 0x31, 0x7b, 0xcb]

/-- The platform on what this sign-in asks of it: the digest of the message, and whether its
signature verifies. -/
def platform : Platform where
  isValidEd25519PublicKey := fun _ => true
  verify := fun _ data _ => data == digest
  sha256 := fun _ => digest

def input : AssociateInput := ⟨address, signatureText, nonce, none⟩

/-- The moves of a script. -/
abbrev Script : Type := List (Move Request Choice EnvEvent)

/-- Client 0 asks for a nonce and signs in with it. -/
def signIn : Script :=
  [.request ⟨0, .getAuthNonce address⟩, .call 0 (.clock 0), .call 0 .ok, .call 0 (.uuid nonce),
   .call 0 .ok, .request ⟨0, .associateVerifiedWallet input⟩, .call 1 .ok, .call 1 .ok,
   .call 1 (.clock 1), .call 1 .ok, .call 1 (.uuid "user"), .call 1 (.uuid "wallet"), .call 1 .ok]

/-- The transitions and the outcome of a script from the launch. -/
def after (script : Script)
    (h : (play (serve platform) Site.perform Site.environment (start launched) script).isSome =
      true := by decide +kernel) : List SessionTransition × SessionConfig :=
  played (serve platform) Site.perform Site.environment (start launched) script h

theorem run_after (script : Script)
    (h : (play (serve platform) Site.perform Site.environment (start launched) script).isSome =
      true) : SessionRun platform (after script h).1 (after script h).2 :=
  run_played (serve platform) Site.perform Site.environment h

def signedIn : List SessionTransition × SessionConfig := after signIn

end Sample

/-- The sign-in of the sample rests on the nonce of the first request. -/
theorem nonce_single_use_signedIn :
    SignedIn Sample.signedIn.1 Sample.signedIn.2 1 Sample.input ∧
      ∃ entry, RestsOn Sample.platform Sample.signedIn.1 Sample.signedIn.2 1 Sample.input entry := by
  have hs : SignedIn Sample.signedIn.1 Sample.signedIn.2 1 Sample.input :=
    ⟨0, ⟨"user", "wallet", Sample.address, none⟩, by decide +kernel⟩
  exact ⟨hs, (nonce_single_use (Sample.run_after Sample.signIn _)).1 1 Sample.input hs⟩

end WalletSession
