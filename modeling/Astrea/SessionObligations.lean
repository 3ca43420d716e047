/-
# What the server functions may do

The obligation of each request, over the calls it made before, and what its reply says about
them: a nonce is created once, from a fresh random id, for the address it was asked for; a
wallet is looked up by the cookie the client sent; and a session cookie is set after the
nonce was consumed and the signature verified (`serve_keeps`).
-/
import Astrea.SessionWorld

open Interleave Interleave.Guarded

namespace WalletSession

/-! ## The obligation -/

def Op.IsNonceCreate : Op → Prop
  | .authNonceCreate _ _ => True
  | _ => False

/-- A request creates at most one nonce, and that from its own random id; it deletes only a
nonce that it found. -/
def Orderly (h : List Done) : Op → Prop
  | .authNonceCreate nonce _ =>
      (⟨.randomUUID, nonce⟩ : Done) ∈ h ∧ ∀ d ∈ h, ¬ d.op.IsNonceCreate
  | .authNonceDelete nonce => ∃ entry, (⟨.authNonceFindUnique nonce, some entry⟩ : Done) ∈ h
  | _ => True

/-- The call found the nonce's row and deleted it, the row names the address, and every clock
reading of the call is before the row expires. -/
structure NonceAccepted (h : List Done) (nonce address : String) (entry : NonceRow) : Prop where
  found : (⟨.authNonceFindUnique nonce, some entry⟩ : Done) ∈ h
  deleted : (⟨.authNonceDelete nonce, .ok ()⟩ : Done) ∈ h
  issuedFor : entry.address = address
  checked : ∃ now, (⟨.now, now⟩ : Done) ∈ h
  unexpired : ∀ now, (⟨.now, now⟩ : Done) ∈ h → now < entry.expiresAt

/-- The database returned this wallet as that of the address: found, created, or found and
updated. -/
inductive ReturnedFor (h : List Done) (address : String) (wallet : Wallet) : Prop
  | found (mem : (⟨.walletFindByAddress address, some wallet⟩ : Done) ∈ h)
  | created {userId : String} {email : Option String}
      (mem : (⟨.walletCreate address userId email, .ok wallet⟩ : Done) ∈ h)
  | updated {old : Wallet} {email : Option String}
      (mem : (⟨.walletFindByAddress address, some old⟩ : Done) ∈ h)
      (update : (⟨.walletUpdateEmail old.id email, .ok wallet⟩ : Done) ∈ h)

/-- The request signs in with this input: it presented the nonce in time and a signature that
verifies over its message. -/
structure SignsIn (pf : Platform) (req : Request) (h : List Done) (input : AssociateInput)
    (entry : NonceRow) : Prop where
  action : req.action = .associateVerifiedWallet input
  accepted : NonceAccepted h input.nonce input.address entry
  verified : pf.verifyStellarSignature input.address
    (formatAuthMessage input.address input.nonce) input.signature = true

/-- The call `op` may be made by this request. -/
def MayCall (pf : Platform) (req : Request) (h : List Done) (op : Op) : Prop :=
  Orderly h op ∧
    match op with
    | .authNonceCreate _ row => req.action = .getAuthNonce row.address
    | .walletFindById id => (⟨.getCookie req.client, some id⟩ : Done) ∈ h
    | .setCookie client value => client = req.client ∧ ∃ input entry wallet,
        SignsIn pf req h input entry ∧ ReturnedFor h input.address wallet ∧ value = wallet.id
    | .render client _ => client = req.client
    | _ => True

/-- What a reply says about the calls before it. -/
def Replies (pf : Platform) (req : Request) (h : List Done) : Reply → Prop
  | .associated _ => ∃ input entry, SignsIn pf req h input entry
  | .wallet (some wallet) => ∃ id, (⟨.walletFindById id, some wallet⟩ : Done) ∈ h
  | _ => True

/-! ## The functions keep to it -/

variable {pf : Platform} {req : Request} {h : List Done}

/-- A nonce that was accepted stays so until the clock is read again. -/
theorem NonceAccepted.cons {nonce address : String} {entry : NonceRow}
    (ha : NonceAccepted h nonce address entry) (op : Op) (r : op.Res) (hop : op ≠ .now) :
    NonceAccepted (⟨op, r⟩ :: h) nonce address entry where
  found := List.mem_cons_of_mem _ ha.found
  deleted := List.mem_cons_of_mem _ ha.deleted
  issuedFor := ha.issuedFor
  checked := by
    obtain ⟨now, hnow⟩ := ha.checked
    exact ⟨now, List.mem_cons_of_mem _ hnow⟩
  unexpired := by
    intro now hnow
    rcases List.mem_cons.mp hnow with heq | hold
    · cases heq
      exact absurd rfl hop
    · exact ha.unexpired now hold

theorem SignsIn.cons {input : AssociateInput} {entry : NonceRow}
    (hs : SignsIn pf req h input entry) (op : Op) (r : op.Res) (hop : op ≠ .now) :
    SignsIn pf req (⟨op, r⟩ :: h) input entry :=
  ⟨hs.action, hs.accepted.cons op r hop, hs.verified⟩

/-- A call that no obligation restricts. -/
theorem keeps_call {op : Op} (hop : MayCall pf req h op) :
    Keeps (MayCall pf req) h (call op) fun h' r => h' = ⟨op, r⟩ :: h :=
  keeps_perform hop fun _ => rfl

/-- Issuing a nonce meets its obligations. -/
theorem keeps_issueAuthNonce {address : String} (hreq : req.action = .getAuthNonce address) :
    Keeps (MayCall pf req) [] (issueAuthNonce pf address) fun _ _ => True := by
  unfold issueAuthNonce
  refine Keeps.bind (keeps_ensure fun _ => rfl) (Q := fun h' _ => h' = []) ?_
  rintro _ - rfl
  refine Keeps.bind (keeps_call ⟨trivial, trivial⟩) ?_
  rintro _ now rfl
  refine Keeps.bind (keeps_call ⟨trivial, trivial⟩) ?_
  rintro _ _ rfl
  refine Keeps.bind (keeps_call ⟨trivial, trivial⟩) ?_
  rintro _ nonce rfl
  refine Keeps.bind (keeps_call ⟨⟨List.mem_cons_self, fun d hd => ?_⟩, hreq⟩) fun h' r _ => ?_
  · -- a clock reading, the prune and the drawn id came before
    simp only [List.mem_cons, List.not_mem_nil, or_false] at hd
    rcases hd with rfl | rfl | rfl <;> exact id
  · exact Keeps.bind (Q := fun _ _ => True) (keeps_orStop fun _ _ => trivial) fun _ _ _ =>
      keeps_pure trivial

/-- A nonce that is accepted was found, deleted and in time. -/
theorem keeps_consumeAuthNonce {nonce address : String} :
    Keeps (MayCall pf req) [] (consumeAuthNonce nonce address) fun h' valid =>
      valid = true → ∃ entry, NonceAccepted h' nonce address entry := by
  unfold consumeAuthNonce
  refine Keeps.bind (keeps_call ⟨trivial, trivial⟩) ?_
  rintro _ found rfl
  cases found with
  | none => exact keeps_pure fun h => nomatch h
  | some entry =>
      simp only
      refine Keeps.bind (keeps_call ⟨⟨entry, List.mem_cons_self⟩, trivial⟩) ?_
      rintro _ deleted rfl
      refine Keeps.bind (Q := fun h' _ => h' = [⟨.authNonceDelete nonce, .ok ()⟩,
        ⟨.authNonceFindUnique nonce, some entry⟩]) (keeps_orStop fun _ hok => by rw [hok]) ?_
      rintro _ - rfl
      split
      · exact keeps_pure fun h => nomatch h
      · rename_i haddress
        refine Keeps.bind (keeps_call ⟨trivial, trivial⟩) ?_
        rintro _ now rfl
        refine keeps_pure fun hvalid => ⟨entry, ?_, ?_, not_not.mp haddress, ⟨now, ?_⟩, ?_⟩
        · simp
        · simp
        · simp
        · intro now' hnow'
          have hunexpired : ¬ entry.expiresAt ≤ now := by simpa using hvalid
          rcases List.mem_cons.mp hnow' with heq | hold
          · cases heq
            exact not_le.mp hunexpired
          · simp at hold

/-- The wallet of a sign-in is one the database returned for its address. -/
theorem keeps_walletOf {input : AssociateInput} {cleanEmail : Option String} {entry : NonceRow}
    (hs : SignsIn pf req h input entry) :
    Keeps (MayCall pf req) h (walletOf input cleanEmail) fun h' wallet =>
      SignsIn pf req h' input entry ∧ ReturnedFor h' input.address wallet := by
  unfold walletOf
  refine Keeps.bind (keeps_call ⟨trivial, trivial⟩) ?_
  rintro _ found rfl
  have hs₁ := hs.cons (.walletFindByAddress input.address) found nofun
  cases found with
  | none =>
      simp only
      refine Keeps.bind (keeps_call ⟨trivial, trivial⟩) ?_
      rintro _ userId rfl
      refine Keeps.bind (keeps_call ⟨trivial, trivial⟩) ?_
      rintro _ created rfl
      refine keeps_orStop fun wallet hwallet => ?_
      subst hwallet
      refine ⟨?_, .created List.mem_cons_self⟩
      exact (hs₁.cons .userCreate userId nofun).cons
        (.walletCreate input.address userId cleanEmail) _ nofun
  | some old =>
      simp only
      split
      · exact keeps_pure ⟨hs₁, .found List.mem_cons_self⟩
      · refine Keeps.bind (keeps_call ⟨trivial, trivial⟩) ?_
        rintro _ updated rfl
        refine keeps_orStop fun wallet hwallet => ?_
        subst hwallet
        exact ⟨hs₁.cons (.walletUpdateEmail old.id cleanEmail) _ nofun,
          .updated (List.mem_cons_of_mem _ List.mem_cons_self) List.mem_cons_self⟩

/-- A wallet is associated by somebody who signs in. -/
theorem keeps_associateVerifiedWallet {input : AssociateInput}
    (hreq : req.action = .associateVerifiedWallet input) :
    Keeps (MayCall pf req) [] (associateVerifiedWallet pf req.client input) fun h' _ =>
      ∃ entry, SignsIn pf req h' input entry := by
  unfold associateVerifiedWallet
  refine Keeps.bind (keeps_ensure fun _ => rfl) (Q := fun h' _ => h' = []) ?_
  rintro _ - rfl
  refine Keeps.bind (keeps_orStop fun _ _ => rfl) (Q := fun h' _ => h' = []) ?_
  rintro _ cleanEmail rfl
  refine Keeps.bind keeps_consumeAuthNonce fun h₁ valid hvalid => ?_
  refine Keeps.bind (keeps_ensure hvalid)
    (Q := fun h' _ => ∃ entry, NonceAccepted h' input.nonce input.address entry)
    fun h₂ _ haccepted => ?_
  obtain ⟨entry, haccepted⟩ := haccepted
  refine Keeps.bind (keeps_ensure fun hp => ⟨hreq, haccepted, hp⟩)
    (Q := fun h' _ => SignsIn pf req h' input entry) fun h₃ _ hs => ?_
  refine Keeps.bind (keeps_walletOf hs) fun h₄ wallet hw => ?_
  refine Keeps.bind (keeps_call ⟨trivial, rfl, input, entry, wallet, hw.1, hw.2, rfl⟩) ?_
  rintro _ _ rfl
  exact keeps_pure ⟨entry, hw.1.cons (.setCookie req.client wallet.id) () nofun⟩

/-- The session's wallet is looked up by the cookie the client sent. -/
theorem keeps_getSessionWallet :
    Keeps (MayCall pf req) h (getSessionWallet req.client) fun h' session =>
      ∀ wallet, session = some wallet → ∃ id, (⟨.walletFindById id, some wallet⟩ : Done) ∈ h' := by
  unfold getSessionWallet
  refine Keeps.bind (keeps_call ⟨trivial, trivial⟩) ?_
  rintro _ walletId rfl
  cases walletId with
  | none => exact keeps_pure fun _ hsome => nomatch hsome
  | some id =>
      simp only
      split
      · exact keeps_pure fun _ hsome => nomatch hsome
      · refine keeps_perform ⟨trivial, List.mem_cons_self⟩ fun session wallet hsome => ?_
        subst hsome
        exact ⟨id, List.mem_cons_self⟩

/-- Updating the e-mail address meets its obligations. -/
theorem keeps_updateWalletEmail {email : Option String} :
    Keeps (MayCall pf req) h (updateWalletEmail req.client email) fun _ _ => True := by
  unfold updateWalletEmail
  refine Keeps.bind keeps_getSessionWallet fun _ session _ => ?_
  refine Keeps.bind (Q := fun _ _ => True) (keeps_expect fun _ _ => trivial) fun _ wallet _ => ?_
  refine Keeps.bind (Q := fun _ _ => True) (keeps_orStop fun _ _ => trivial) fun _ _ _ => ?_
  refine Keeps.bind (keeps_call ⟨trivial, trivial⟩) fun _ _ _ => ?_
  exact Keeps.bind (Q := fun _ _ => True) (keeps_orStop fun _ _ => trivial) fun _ _ _ =>
    keeps_pure trivial

/-- Viewing an event meets its obligations. -/
theorem keeps_loadPublicEventView {id : String} :
    Keeps (MayCall pf req) h (loadPublicEventView req.client id) fun _ _ => True := by
  unfold loadPublicEventView
  refine Keeps.bind (keeps_call ⟨trivial, trivial⟩) fun _ view _ => ?_
  exact Keeps.bind (keeps_call ⟨trivial, rfl⟩) fun _ _ _ => keeps_pure trivial

/-- Every request keeps to its obligation, and its reply says what `Replies` says. -/
theorem serve_keeps (pf : Platform) (req : Request) : (serve pf req).Safe (MayCall pf req) []
    fun h r => ∀ reply, r = .ok reply → Replies pf req h reply := by
  obtain ⟨client, action⟩ := req
  unfold serve handle
  cases action with
  | getAuthNonce address =>
      exact Keeps.bind (keeps_issueAuthNonce rfl) fun _ _ _ => keeps_pure trivial
  | associateVerifiedWallet input =>
      refine Keeps.bind (keeps_associateVerifiedWallet rfl) fun _ _ hs => keeps_pure ?_
      obtain ⟨entry, hs⟩ := hs
      exact ⟨input, entry, hs⟩
  | getSessionWallet =>
      refine Keeps.bind keeps_getSessionWallet fun _ session hfound => keeps_pure ?_
      cases session with
      | none => trivial
      | some wallet => exact hfound wallet rfl
  | updateWalletEmail email =>
      exact Keeps.bind keeps_updateWalletEmail fun _ _ _ => keeps_pure trivial
  | loadPublicEventView id =>
      exact Keeps.bind keeps_loadPublicEventView fun _ _ _ => keeps_pure trivial

/-- Every call of every request is orderly. -/
theorem serve_orderly (pf : Platform) (req : Request) :
    (serve pf req).Safe Orderly [] fun _ _ => True :=
  ((serve_keeps pf req).weaken fun _ _ hop => hop.1).mono fun _ _ _ => trivial

end WalletSession
