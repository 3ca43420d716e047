/-
# Whose session a cookie is

The session cookie holds the wallet's id, and nothing else ties a request to a sign-in.  As long as
clients send only ids that were set as their cookies, or that came to them from such a client, a
session goes back to a signature of the wallet (`session_authentic`); but the public view of an
event shows the ids of its organizer and members to anyone, and a visitor that sends one of these
gets the wallet's session as well (`session_from_view`).
-/
import Astrea.NonceSingleUse
import Mathlib.Logic.Relation

open Interleave Interleave.Guarded

namespace WalletSession

variable {pf : Platform} {tr : List SessionTransition} {c : SessionConfig}

/-! ## Wallets and cookies -/

/-- The wallet of this id has this address. -/
def Owns (s : Site) (id address : String) : Prop :=
  (s.wallets.lookup id).map (·.address) = some address

/-- The log agrees with the world on wallets: their ids were drawn, and a wallet that was returned
has the address it was returned for. -/
structure WalletsSound (s : Site) (log : Log) : Prop where
  drawn : ∀ id, (s.wallets.lookup id).isSome → id ∈ s.uuids
  byAddress : ∀ t address wallet, (t, ⟨.walletFindByAddress address, some wallet⟩) ∈ log →
    Owns s wallet.id address
  created : ∀ t address userId email wallet,
    (t, ⟨.walletCreate address userId email, .ok wallet⟩) ∈ log → Owns s wallet.id address
  updated : ∀ t id email wallet, (t, ⟨.walletUpdateEmail id email, .ok wallet⟩) ∈ log →
    wallet.id = id

theorem walletsSound_launched : WalletsSound launched [] where
  drawn := fun _ h => nomatch h
  byAddress := fun _ _ _ h => absurd h List.not_mem_nil
  created := fun _ _ _ _ _ h => absurd h List.not_mem_nil
  updated := fun _ _ _ _ h => absurd h List.not_mem_nil

section Step

variable {s s' : Site} {log : Log} {t : ℕ} {op : Op} {r : op.Res}

/-- A wallet keeps its address. -/
theorem Performed.owns (hp : Performed s op r s')
    (hdrawn : ∀ id, (s.wallets.lookup id).isSome → id ∈ s.uuids) {id address : String}
    (h : Owns s id address) : Owns s' id address := by
  cases hp with
  | @walletCreated id' address' userId email fresh unguessed =>
      have hne : id ≠ id' := by
        rintro rfl
        obtain ⟨row, hrow, -⟩ := Option.map_eq_some_iff.mp h
        exact fresh (hdrawn id (by rw [hrow]; rfl))
      rwa [Owns, AList.lookup_insert_ne hne]
  | @walletUpdated id' email row stored =>
      by_cases heq : id = id'
      · subst heq
        rw [Owns, stored] at h
        rw [Owns, AList.lookup_insert]
        exact h
      · rwa [Owns, AList.lookup_insert_ne heq]
  | _ => exact h

/-- A wallet that is there after a call was there, or was created under an unguessed id. -/
theorem Performed.wallet_isSome (hp : Performed s op r s') {id : String}
    (h : (s'.wallets.lookup id).isSome) :
    (s.wallets.lookup id).isSome ∨ (id ∉ s.presented ∧ id ∈ s'.uuids) := by
  cases hp with
  | @walletCreated id' address' userId email fresh unguessed =>
      by_cases heq : id = id'
      · subst heq
        exact .inr ⟨unguessed, List.mem_cons_self⟩
      · rw [AList.lookup_insert_ne heq] at h
        exact .inl h
  | @walletUpdated id' email row stored =>
      by_cases heq : id = id'
      · subst heq
        exact .inl (by rw [stored]; rfl)
      · rw [AList.lookup_insert_ne heq] at h
        exact .inl h
  | _ => exact .inl h

/-- A call keeps the log and the world in agreement. -/
theorem WalletsSound.step (h : WalletsSound s log) (hp : Performed s op r s') :
    WalletsSound s' ((t, ⟨op, r⟩) :: log) where
  drawn := by
    intro id hid
    rcases hp.wallet_isSome hid with hold | ⟨-, hdrawn⟩
    · exact hp.uuids id (h.drawn id hold)
    · exact hdrawn
  byAddress := by
    intro t' address wallet hmem
    rcases List.mem_cons.mp hmem with heq | hold
    · cases heq
      cases hp with
      | walletByAddress stored =>
          obtain ⟨hrow, haddress⟩ := stored wallet rfl
          rw [Owns, hrow, ← haddress]
          rfl
    · exact hp.owns h.drawn (h.byAddress t' address wallet hold)
  created := by
    intro t' address userId email wallet hmem
    rcases List.mem_cons.mp hmem with heq | hold
    · cases heq
      cases hp with
      | walletCreated fresh unguessed =>
          rw [Owns, AList.lookup_insert]
          rfl
    · exact hp.owns h.drawn (h.created t' address userId email wallet hold)
  updated := by
    intro t' id email wallet hmem
    rcases List.mem_cons.mp hmem with heq | hold
    · cases heq
      cases hp with
      | walletUpdated stored => rfl
    · exact h.updated t' id email wallet hold

/-- Nothing outside the site makes a wallet. -/
theorem WalletsSound.moved {event : EnvEvent} (h : WalletsSound s log) (hm : Moved s event s') :
    WalletsSound s' log := by
  cases hm with
  | handed => exact ⟨h.drawn, h.byAddress, h.created, h.updated⟩
  | wrote => exact ⟨h.drawn, h.byAddress, h.created, h.updated⟩

end Step

/-- In every run the log agrees with the world. -/
theorem SessionRun.walletsSound (hr : SessionRun pf tr c) : WalletsSound c.world c.log :=
  hr.invariant (C := fun _ => True) (fun _ _ => trivial) walletsSound_launched
    (fun _ _ _ _ _ _ _ hI _ hp => hI.step hp) fun _ _ _ _ hI hm => hI.moved hm

/-- A wallet that was returned for an address has that address. -/
theorem WalletsSound.owns {s : Site} {log : Log} (h : WalletsSound s log) {past : List Done}
    (hpast : ∀ d ∈ past, ∃ t, (t, d) ∈ log) {address : String} {wallet : Wallet}
    (hw : ReturnedFor past address wallet) : Owns s wallet.id address := by
  cases hw with
  | found mem =>
      obtain ⟨t, ht⟩ := hpast _ mem
      exact h.byAddress t address wallet ht
  | created mem =>
      obtain ⟨t, ht⟩ := hpast _ mem
      exact h.created t address _ _ wallet ht
  | @updated old email mem update =>
      obtain ⟨t, ht⟩ := hpast _ mem
      obtain ⟨t', ht'⟩ := hpast _ update
      rw [h.updated t' old.id email wallet ht']
      exact h.byAddress t address old ht

/-! ## Where a cookie comes from -/

/-- The id came to `client` from `holder`, from hand to hand. -/
def HandedDown (s : Site) (id : String) (holder client : Client) : Prop :=
  Relation.ReflTransGen (fun giver receiver => (giver, receiver, id) ∈ s.handed) holder client

/-- The id was set as the session cookie of the client, or of one from which it came to it. -/
def Held (s : Site) (log : Log) (id : String) (client : Client) : Prop :=
  ∃ holder, HandedDown s id holder client ∧ ∃ j, (j, ⟨.setCookie holder id, ()⟩) ∈ log

/-- The cookie that a client sends in a step. -/
def cookieOf : SessionLabel → Option (Client × String)
  | .did _ ⟨.getCookie client, some id⟩ => some (client, id)
  | _ => none

/-- A client that sends the id of a wallet has it from cookies and hands, not only from a page. -/
def SendsHeld (t : SessionTransition) : Prop :=
  ∀ client id, cookieOf t.label = some (client, id) → (t.pre.world.wallets.lookup id).isSome →
    Held t.pre.world t.pre.log id client

/-- Every cookie that was sent is held by its client, if it is a wallet's id. -/
def CookiesHeld (s : Site) (log : Log) : Prop :=
  ∀ t client id, (t, ⟨.getCookie client, some id⟩) ∈ log →
    id ∈ s.presented ∧ ((s.wallets.lookup id).isSome → Held s log id client)

section Step

variable {s s' : Site} {log log' : Log} {t : ℕ} {op : Op} {r : op.Res}

/-- What was handed down stays so. -/
theorem HandedDown.mono {id : String} {holder client : Client} (h : HandedDown s id holder client)
    (hsub : ∀ e ∈ s.handed, e ∈ s'.handed) : HandedDown s' id holder client :=
  Relation.ReflTransGen.mono (fun _ _ he => hsub _ he) holder client h

/-- What is held stays held. -/
theorem Held.mono {id : String} {client : Client} (h : Held s log id client)
    (hhanded : ∀ e ∈ s.handed, e ∈ s'.handed) (hlog : ∀ e ∈ log, e ∈ log') :
    Held s' log' id client := by
  obtain ⟨holder, hdown, j, hcookie⟩ := h
  exact ⟨holder, hdown.mono hhanded, j, hlog _ hcookie⟩

theorem Performed.handed (hp : Performed s op r s') : s'.handed = s.handed := by
  cases hp <;> rfl

/-- No cookie that was presented is forgotten. -/
theorem Performed.presented (hp : Performed s op r s') : ∀ id ∈ s.presented, id ∈ s'.presented := by
  cases hp with
  | cookieSent => exact fun _ h => List.mem_append_right _ h
  | _ => exact fun _ h => h

/-- A call keeps the cookies held when the one it takes is. -/
theorem CookiesHeld.step (h : CookiesHeld s log) (hp : Performed s op r s')
    (hsent : ∀ client id, cookieOf (.did t ⟨op, r⟩) = some (client, id) →
      (s.wallets.lookup id).isSome → Held s log id client) :
    CookiesHeld s' ((t, ⟨op, r⟩) :: log) := by
  have hkept : ∀ {id client}, Held s log id client → Held s' ((t, ⟨op, r⟩) :: log) id client :=
    fun hheld => hheld.mono (by rw [hp.handed]; exact fun _ he => he)
      fun _ he => List.mem_cons_of_mem _ he
  intro t' client id hmem
  rcases List.mem_cons.mp hmem with heq | hold
  · cases heq
    cases hp with
    | cookieSent sendable =>
        exact ⟨List.mem_append_left _ (by simp), fun hid => hkept (hsent client id rfl hid)⟩
  · obtain ⟨hpresented, hheld⟩ := h t' client id hold
    refine ⟨hp.presented id hpresented, fun hid => ?_⟩
    -- no wallet is created under an id that was presented before
    rcases hp.wallet_isSome hid with hwas | ⟨hunguessed, -⟩
    · exact hkept (hheld hwas)
    · exact absurd hpresented hunguessed

/-- Handing an id on, or writing an event, keeps what was sent held. -/
theorem CookiesHeld.moved {event : EnvEvent} (h : CookiesHeld s log) (hm : Moved s event s') :
    CookiesHeld s' log := by
  cases hm with
  | wrote => exact h
  | handed =>
      intro t client id hmem
      obtain ⟨hpresented, hheld⟩ := h t client id hmem
      exact ⟨hpresented, fun hid => (hheld hid).mono (fun _ he => List.mem_cons_of_mem _ he)
        fun _ he => he⟩

end Step

/-- As long as clients send what they hold, every wallet's cookie that was sent is held. -/
theorem SessionRun.cookiesHeld (hr : SessionRun pf tr c) (hsends : ∀ t ∈ tr, SendsHeld t) :
    CookiesHeld c.world c.log :=
  hr.invariant (C := SendsHeld) (I := CookiesHeld) hsends
    (fun _ _ _ h => absurd h List.not_mem_nil)
    (fun _ _ _ _ _ _ hsent hI _ hp => hI.step hp hsent) fun _ _ _ _ hI hm => hI.moved hm

/-! ## Whose session it is -/

/-- Request `j` signed the client in as the wallet: before it set the cookie it accepted a
nonce that was issued for the wallet's address and that nobody else consumed, and it carried a
signature of the address over the message of the nonce. -/
structure Completed (pf : Platform) (tr : List SessionTransition) (c : SessionConfig)
    (client : Client) (wallet : Wallet) (j : ℕ) (input : AssociateInput) (entry : NonceRow) :
    Prop where
  requested : (requestsOf tr)[j]? = some ⟨client, .associateVerifiedWallet input⟩
  address : input.address = wallet.address
  accepted : ∃ past, (j, ⟨.setCookie client wallet.id, ()⟩) :: past <:+ c.log ∧
    NonceAccepted (historyOf j past) input.nonce wallet.address entry
  issued : ∃ i issuer, (requestsOf tr)[i]? = some ⟨issuer, .getAuthNonce wallet.address⟩ ∧
    (i, ⟨.authNonceCreate input.nonce entry, .ok ()⟩) ∈ c.log
  alone : ∀ j', (j', ⟨.authNonceDelete input.nonce, .ok ()⟩) ∈ c.log → j' = j
  signed : pf.Signed wallet.address (formatAuthMessage wallet.address input.nonce) input.signature

/-- The client, or one from which the session came to it, signed in as the wallet. -/
def Authentic (pf : Platform) (tr : List SessionTransition) (c : SessionConfig) (client : Client)
    (wallet : Wallet) : Prop :=
  ∃ holder, HandedDown c.world wallet.id holder client ∧
    ∃ j input entry, Completed pf tr c holder wallet j input entry

/-- A session cookie is set by a sign-in as the wallet that has its id. -/
theorem SessionRun.completed (hr : SessionRun pf tr c) (wallet : Wallet) {j : ℕ}
    {client : Client} (hcookie : (j, ⟨.setCookie client wallet.id, ()⟩) ∈ c.log)
    (hstored : c.world.wallets.lookup wallet.id = some wallet.toWalletRow) :
    ∃ input entry, Completed pf tr c client wallet j input entry := by
  obtain ⟨req, past, hpast, hreq, -, rfl, input, entry, returned, hsigns, hreturned, hid⟩ :=
    permitted_of_mem_log (serve_keeps pf) hr hcookie
  have hlog : ∀ d ∈ historyOf j past, (j, d) ∈ c.log := fun d hd =>
    hpast.subset (List.mem_cons_of_mem _ (mem_historyOf.mp hd))
  have haddress : input.address = wallet.address := by
    have howns := hr.walletsSound.owns (fun d hd => ⟨j, hlog d hd⟩) hreturned
    rw [← hid, Owns, hstored] at howns
    exact (Option.some_inj.mp howns).symm
  obtain ⟨client', action⟩ := req
  obtain rfl : action = .associateVerifiedWallet input := hsigns.action
  have haccepted := hsigns.accepted
  have hissued := hr.issued (hlog _ haccepted.found)
  have hsigned := Platform.signed_of_verify hsigns.verified
  rw [haccepted.issuedFor, haddress] at hissued
  rw [haddress] at haccepted hsigned
  refine ⟨input, entry, hreq, haddress, ⟨past, hpast, haccepted⟩, hissued, fun j' h' => ?_, hsigned⟩
  exact hr.noncesSound.consumedOnce j' j _ h' (hlog _ haccepted.deleted)

/-- The step returns the wallet as that of a session of request `i`. -/
def Returns (i : ℕ) (wallet : Wallet) (t : SessionTransition) : Prop :=
  ∃ id, t.label = .did i ⟨.walletFindById id, some wallet⟩

/-- A wallet that is returned as the session's goes back to a sign-in. -/
theorem SessionRun.authentic (hr : SessionRun pf tr c) (hsends : ∀ t ∈ tr, SendsHeld t)
    {post : SessionConfig} {i : ℕ} {id : String} {wallet : Wallet}
    (hs : SessionStep pf c (.did i ⟨.walletFindById id, some wallet⟩) post) {client : Client}
    {action : Action} (hreq : (requestsOf tr)[i]? = some ⟨client, action⟩) :
    Authentic pf tr c client wallet := by
  obtain ⟨req, hreq', -, hsent⟩ := permitted_of_run (serve_keeps pf) hr hs
  rw [hreq, Option.some_inj] at hreq'
  subst hreq'
  cases hs with
  | did thread performed =>
      cases perform_eq_some performed with
      | walletById stored =>
          obtain ⟨row, hrow, rfl⟩ := Option.map_eq_some_iff.mp stored.symm
          -- the cookie was sent, so its client holds the id
          obtain ⟨holder, hdown, j, hcookie⟩ :=
            (hr.cookiesHeld hsends i client id (mem_historyOf.mp hsent)).2 (by rw [hrow]; rfl)
          obtain ⟨input, entry, hcompleted⟩ := hr.completed ⟨row, id⟩ hcookie hrow
          exact ⟨holder, hdown, j, input, entry, hcompleted⟩

/-- As long as clients send only wallet ids they have from cookies and hands, whatever pages show
them, every wallet that is returned as a client's session is one that this client, or one from
which the session came to it, had signed in as by then. -/
theorem session_authentic (hr : SessionRun pf tr c) (hsends : ∀ t ∈ tr, SendsHeld t) :
    (∀ i client wallet, (requestsOf tr)[i]? = some ⟨client, .getSessionWallet⟩ →
      c.answerOf i = some (.ok (.wallet (some wallet))) →
      ∃ before t after, tr = before ++ t :: after ∧ Returns i wallet t ∧
        Authentic pf before t.pre client wallet) ∧
    ∀ before t after i client action wallet, tr = before ++ t :: after →
      (requestsOf tr)[i]? = some ⟨client, action⟩ → Returns i wallet t →
      Authentic pf before t.pre client wallet := by
  have hauthentic : ∀ before t after i client action wallet, tr = before ++ t :: after →
      (requestsOf tr)[i]? = some ⟨client, action⟩ → Returns i wallet t →
      Authentic pf before t.pre client wallet := by
    rintro before ⟨pre, label, post⟩ after i client action wallet rfl hreq ⟨id, hlabel⟩
    obtain ⟨hrun, hstep, -⟩ := hr.split
    have hbefore : SessionRun pf before pre := hrun
    obtain rfl : label = _ := hlabel
    obtain ⟨req, hreq', -⟩ := permitted_of_run (serve_keeps pf) hbefore hstep
    have hsame := requested_append hreq'
      (⟨pre, .did i ⟨.walletFindById id, some wallet⟩, post⟩ :: after)
    rw [hreq, Option.some_inj] at hsame
    subst hsame
    exact hbefore.authentic (fun t ht => hsends t (List.mem_append_left _ ht)) hstep hreq'
  refine ⟨fun i client wallet hreq hanswer => ?_, hauthentic⟩
  obtain ⟨id, hmem⟩ := answered_of_run (serve_keeps pf) hr hanswer hreq _ rfl
  obtain ⟨t, ht, hlabel, -⟩ := did_of_mem_log hr (mem_historyOf.mp hmem)
  obtain ⟨before, after, hsplit⟩ := List.append_of_mem ht
  exact ⟨before, t, after, hsplit, ⟨id, hlabel⟩,
    hauthentic before t after i client _ wallet hsplit hreq ⟨id, hlabel⟩⟩

/-! ## Two visitors of an event's page -/

namespace Sample

/-- The event that the wallet of the sign-in organizes. -/
def tables : EventTables where
  events := (∅ : KeyTable String EventRow).insert "event"
    { name := "Hackathon", description := none, logoUrl := none, tagline := none
      location := none, timezone := "UTC", registrationOpensAt := none
      registrationClosesAt := none, startsAt := none, endsAt := none
      judgingDeadlineAt := none, status := "DRAFT", requireGithub := false
      network := "testnet", escrowEventId := none, organizerWalletId := "wallet" }
  prizes := []
  judges := []
  teams := []
  teamMembers := []

/-- After the sign-in of client 0, client 1 opens the page of its event, and a client asks whose
session it has, with the cookie of the wallet. -/
def visit (client : Client) : Script :=
  signIn ++ [.event (.write tables),
    .request ⟨1, .loadPublicEventView "event"⟩, .call 2 .ok, .call 2 .ok,
    .request ⟨client, .getSessionWallet⟩, .call 3 (.cookie (some "wallet")), .call 3 .ok]

def wallet : Wallet := ⟨⟨"user", address, none⟩, "wallet"⟩

/-- The organizer asks, while client 1 looks at its event. -/
def ownVisit : List SessionTransition × SessionConfig := after (visit 0)

/-- Client 1 sends the organizer's wallet id as its own cookie. -/
def strangersVisit : List SessionTransition × SessionConfig := after (visit 1)

end Sample

theorem session_authentic_ownVisit :
    ∃ before t after, Sample.ownVisit.1 = before ++ t :: after ∧ Returns 3 Sample.wallet t ∧
      Authentic Sample.platform before t.pre 0 Sample.wallet := by
  have h : (∀ t ∈ Sample.ownVisit.1, ∀ e ∈ cookieOf t.label, ∃ d ∈ t.pre.log,
        d.2 = ⟨.setCookie e.1 e.2, ()⟩) ∧
      (requestsOf Sample.ownVisit.1)[3]? = some ⟨0, .getSessionWallet⟩ ∧
      Sample.ownVisit.2.answerOf 3 = some (.ok (.wallet (some Sample.wallet))) := by
    decide +kernel
  obtain ⟨hcookies, hreq, hanswer⟩ := h
  have hsends : ∀ t ∈ Sample.ownVisit.1, SendsHeld t := by
    intro t ht client id hcookie _
    obtain ⟨⟨j, d⟩, hmem, rfl⟩ := hcookies t ht (client, id) hcookie
    exact ⟨client, .refl, j, hmem⟩
  exact (session_authentic (Sample.run_after (Sample.visit 0) _) hsends).1 3 0 Sample.wallet
    hreq hanswer

/-- A client that never signed in, and that nobody handed a session, has the session of the
wallet whose id it read from the page of an event. -/
theorem session_from_view : ∃ i client wallet,
    SessionRun Sample.platform Sample.strangersVisit.1 Sample.strangersVisit.2 ∧
    (requestsOf Sample.strangersVisit.1)[i]? = some ⟨client, .getSessionWallet⟩ ∧
    Sample.strangersVisit.2.answerOf i = some (.ok (.wallet (some wallet))) ∧
    ¬ Authentic Sample.platform Sample.strangersVisit.1 Sample.strangersVisit.2 client wallet := by
  have h : (requestsOf Sample.strangersVisit.1)[3]? = some ⟨1, .getSessionWallet⟩ ∧
      Sample.strangersVisit.2.answerOf 3 = some (.ok (.wallet (some Sample.wallet))) ∧
      Sample.strangersVisit.2.world.handed = [] ∧
      ∀ req ∈ requestsOf Sample.strangersVisit.1, req.client = 1 →
        req.action = .loadPublicEventView "event" ∨ req.action = .getSessionWallet := by
    decide +kernel
  obtain ⟨hreq, hanswer, hhanded, hreqs⟩ := h
  refine ⟨3, 1, Sample.wallet, Sample.run_after (Sample.visit 1) _, hreq, hanswer, ?_⟩
  rintro ⟨holder, hdown, j, input, entry, hcompleted⟩
  -- nobody handed the id to client 1, so the sign-in would be its own
  obtain rfl : holder = 1 := by
    cases hdown with
    | refl => rfl
    | tail _ hlast =>
        rw [hhanded] at hlast
        exact absurd hlast List.not_mem_nil
  rcases hreqs _ (List.mem_of_getElem? hcompleted.requested) rfl with h | h
  · exact nomatch h
  · exact nomatch h

end WalletSession
