/-
# Whose GitHub account it is

A wallet has at most one GitHub account and an account at most one wallet, whatever callbacks
overlap.  A link was made by a callback in a session of its wallet, which brought back, in time
and also as its cookie, a state that the server had issued to a session of the same wallet
(`linked_accounts_sound`).
-/
import Astrea.PageRuns

open Interleave Utf16
open Service (RowId JsString jsText)
open GithubOAuth (Server OAuthStatePayload Unforged)

namespace EventPage

variable {ν : Type} {d : Deployment ν} {tr : List (PageTransition ν)} {c : PageConfig ν}

/-! ## The states a browser brings -/

/-- What a browser may bring is not forged. -/
theorem unforged_of_mayBring {srv : Server ν} {s : Site ν} {state : JsString}
    (h : s.mayBring srv state = true) : Unforged srv (· ∈ s.issued) state := by
  rintro m rfl
  have htake : (m ++ 46 :: srv.signature m).take ((m ++ 46 :: srv.signature m).length - 44) = m := by
    have hlength : (m ++ 46 :: srv.signature m).length - 44 = m.length := by
      rw [List.length_append, List.length_cons, GithubOAuth.length_signature]
      omega
    rw [hlength, List.take_left]
  simp only [Site.mayBring, htake, ne_eq, not_true_eq_false, decide_false, Bool.false_or,
    List.any_eq_true, decide_eq_true_eq] at h
  exact h

theorem unforged_mono {srv : Server ν} {issued issued' : OAuthStatePayload ν → Prop}
    {state : JsString} (h : Unforged srv issued state) (hsub : ∀ p, issued p → issued' p) :
    Unforged srv issued' state := by
  intro m hm
  obtain ⟨payload, hissued, hbytes⟩ := h m hm
  exact ⟨payload, hsub payload hissued, hbytes⟩

/-! ## The log and the links -/

/-- Two links have neither the wallet nor the account in common. -/
def Apart (a b : LinkedAccount) : Prop := a.walletId ≠ b.walletId ∧ a.providerId ≠ b.providerId

/-- Some call linked the account. -/
def LinkedIn (log : Log ν) (a : LinkedAccount) : Prop :=
  ∃ t, (t, ⟨.replaceLinkedAccount a, .ok ()⟩) ∈ log

/-- The log agrees with the links and the issued states. -/
structure LinksSound (srv : Server ν) (s : Site ν) (log : Log ν) : Prop where
  unique : s.linkedAccounts.Pairwise Apart
  linked : ∀ a ∈ s.linkedAccounts, LinkedIn log a
  found : ∀ t walletId a, (t, ⟨.findLinkedAccount walletId, some a⟩) ∈ log →
    a.walletId = walletId ∧ LinkedIn log a
  sent : ∀ payload ∈ s.issued, ∃ t, (t, ⟨.sendState payload, ()⟩) ∈ log
  brought : ∀ t state, (t, ⟨.readState, some state⟩) ∈ log → Unforged srv (· ∈ s.issued) state

section Step

variable {srv : Server ν} {s s' : Site ν} {log : Log ν}

/-- An account that was linked stays linked in the log. -/
theorem LinkedIn.cons {a : LinkedAccount} (h : LinkedIn log a) (e : ℕ × Done ν) :
    LinkedIn (e :: log) a := by
  obtain ⟨t, hmem⟩ := h
  exact ⟨t, List.mem_cons_of_mem _ hmem⟩

/-- A replacement leaves nothing of the wallet and nothing of the account behind. -/
theorem apart_replace {accounts : List LinkedAccount} (h : accounts.Pairwise Apart)
    (account : LinkedAccount) : (account :: accounts.filter fun a =>
      a.walletId ≠ account.walletId ∧ a.providerId ≠ account.providerId).Pairwise Apart := by
  refine List.pairwise_cons.mpr ⟨fun a ha => ?_, h.sublist List.filter_sublist⟩
  obtain ⟨hwallet, hprovider⟩ : a.walletId ≠ account.walletId ∧ a.providerId ≠ account.providerId := by
    simpa using (List.mem_filter.mp ha).2
  exact ⟨hwallet.symm, hprovider.symm⟩

/-- What a call makes of the links and the states. -/
theorem Performed.links {op : Op ν} {r : op.Res} {t : ℕ} (hp : Performed srv s op r s')
    (h : LinksSound srv s log) : s'.linkedAccounts.Pairwise Apart ∧
      (∀ a ∈ s'.linkedAccounts, LinkedIn ((t, ⟨op, r⟩) :: log) a) ∧
      (∀ p ∈ s.issued, p ∈ s'.issued) ∧
      ∀ p ∈ s'.issued, ∃ t', (t', ⟨.sendState p, ()⟩) ∈ (t, (⟨op, r⟩ : Done ν)) :: log := by
  have hlinked : ∀ a ∈ s.linkedAccounts, LinkedIn ((t, ⟨op, r⟩) :: log) a := fun a ha =>
    (h.linked a ha).cons _
  have hsent : ∀ p ∈ s.issued, ∃ t', (t', ⟨.sendState p, ()⟩) ∈ (t, (⟨op, r⟩ : Done ν)) :: log := by
    intro p hpayload
    obtain ⟨t', hmem⟩ := h.sent p hpayload
    exact ⟨t', List.mem_cons_of_mem _ hmem⟩
  cases hp with
  | linked =>
      refine ⟨apart_replace h.unique _, fun a ha => ?_, fun _ hpayload => hpayload, hsent⟩
      rcases List.mem_cons.mp ha with rfl | ha
      · exact ⟨t, List.mem_cons_self⟩
      · exact hlinked a (List.mem_filter.mp ha).1
  | stateSent =>
      refine ⟨h.unique, hlinked, fun _ hpayload => List.mem_cons_of_mem _ hpayload, fun p hpayload => ?_⟩
      rcases List.mem_cons.mp hpayload with rfl | hpayload
      · exact ⟨t, List.mem_cons_self⟩
      · exact hsent p hpayload
  | _ => exact ⟨h.unique, hlinked, fun _ hpayload => hpayload, hsent⟩

/-- A call keeps the links sound. -/
theorem LinksSound.step {op : Op ν} {r : op.Res} {t : ℕ} (h : LinksSound srv s log)
    (hp : Performed srv s op r s') : LinksSound srv s' ((t, ⟨op, r⟩) :: log) := by
  obtain ⟨hunique, hlinked, hkept, hsent⟩ := hp.links (t := t) h
  refine ⟨hunique, hlinked, ?_, hsent, ?_⟩
  · intro t' walletId a hmem
    rcases List.mem_cons.mp hmem with heq | hmem
    · cases heq
      cases hp with
      | accountFound stored =>
          obtain ⟨ha, hwallet⟩ := stored a rfl
          exact ⟨hwallet, (h.linked a ha).cons _⟩
    · exact ⟨(h.found t' walletId a hmem).1, (h.found t' walletId a hmem).2.cons _⟩
  · intro t' state hmem
    rcases List.mem_cons.mp hmem with heq | hmem
    · cases heq
      cases hp with
      | stateRead brought => exact unforged_of_mayBring (brought state rfl)
    · exact unforged_mono (h.brought t' state hmem) hkept

/-- And so does anything else that happens. -/
theorem LinksSound.moved {event : EnvEvent} (h : LinksSound srv s log) (hm : Moved s event s') :
    LinksSound srv s' log := by
  cases hm <;> exact ⟨h.unique, h.linked, h.found, h.sent, h.brought⟩

end Step

/-- In every run the log agrees with the links. -/
theorem PageRun.linksSound (hr : PageRun d tr c) : LinksSound d.server c.world c.log :=
  hr.invariant ⟨.nil, fun _ h => absurd h List.not_mem_nil, fun _ _ _ h => absurd h List.not_mem_nil,
      fun _ h => absurd h List.not_mem_nil, fun _ _ h => absurd h List.not_mem_nil⟩
    (fun _ _ _ _ _ _ hI _ hp => hI.step hp) fun _ _ _ _ hI hm => hI.moved hm

/-! ## Where a link comes from -/

/-- The state that request `t` brought back, also as its cookie, is one that the server issued to
a session of the wallet, and it has not expired. -/
def CameBack (d : Deployment ν) (tr : List (PageTransition ν)) (c : PageConfig ν) (t : ℕ)
    (walletId : RowId) : Prop :=
  ∃ payload now t' req' wallet',
    (t, ⟨.readState, some (d.server.signOAuthState payload)⟩) ∈ c.log ∧
    (t, ⟨.readStateCookie, some (d.server.signOAuthState payload)⟩) ∈ c.log ∧
    (t, ⟨.now, now⟩) ∈ c.log ∧ d.server.expired now payload.timestamp = false ∧
    (t', ⟨.sendState payload, ()⟩) ∈ c.log ∧ (requestsOf tr)[t']? = some req' ∧
    (∃ returnTo, req'.action = .githubStart returnTo) ∧
    SessionOf (historyOf t' c.log) req' wallet' ∧ wallet'.id = walletId

/-- A callback linked the account: in a session of the wallet, with a state of the wallet, and
with what GitHub told. -/
def LinkedBy (d : Deployment ν) (tr : List (PageTransition ν)) (c : PageConfig ν)
    (a : LinkedAccount) : Prop :=
  ∃ t req wallet, (requestsOf tr)[t]? = some req ∧ Links d req (historyOf t c.log) wallet a ∧
    a.walletId = wallet.id ∧ CameBack d tr c t wallet.id

theorem historyOf_subset {t : ℕ} {log log' : Log ν} (h : log ⊆ log') :
    historyOf t log ⊆ historyOf t log' := fun _ hmem =>
  mem_historyOf.mpr (h (mem_historyOf.mp hmem))

/-- The reasons for a link stay. -/
theorem Links.mono {req : Request} {h h' : List (Done ν)} {wallet : SessionWallet}
    {a : LinkedAccount} (hl : Links d req h wallet a) (hsub : h ⊆ h') :
    Links d req h' wallet a := by
  obtain ⟨state, now, v, hstate, hcookie, hnow, hverified⟩ := hl.state
  obtain ⟨token, user, huser, ha⟩ := hl.user
  exact ⟨hl.action, hl.session.mono hsub,
    ⟨state, now, v, hsub hstate, hsub hcookie, hsub hnow, hverified⟩, token, user, hsub huser, ha⟩

/-- A state was sent to a session of the wallet it names. -/
theorem PageRun.sent_to (hr : PageRun d tr c) {t : ℕ} {payload : OAuthStatePayload ν}
    (hmem : (t, ⟨.sendState payload, ()⟩) ∈ c.log) : ∃ req wallet,
      (requestsOf tr)[t]? = some req ∧ (∃ returnTo, req.action = .githubStart returnTo) ∧
      SessionOf (historyOf t c.log) req wallet ∧ payload.walletId = ofString wallet.id := by
  obtain ⟨req, past, hpast, hreq, haction, wallet, hsession, hid⟩ :=
    permitted_of_mem_log (serve_ends d) hr hmem
  refine ⟨req, wallet, hreq, haction, hsession.mono (historyOf_subset fun x hx => ?_), hid⟩
  exact hpast.subset (List.mem_cons_of_mem _ hx)

/-- A session's wallet has an id. -/
theorem PageRun.session_id (hr : PageRun d tr c) {t : ℕ} {req : Request} {wallet : SessionWallet}
    (hs : SessionOf (historyOf t c.log) req wallet) : wallet.id ≠ "" := by
  obtain ⟨id, -, hmem⟩ := hs
  exact (hr.eventsSound.sessions t id wallet (mem_historyOf.mp hmem)).2

/-- Every link of a run has a request of its session behind it. -/
theorem PageRun.linkedBy (hr : PageRun d tr c) {a : LinkedAccount} (h : LinkedIn c.log a) :
    LinkedBy d tr c a := by
  obtain ⟨t, hmem⟩ := h
  obtain ⟨req, past, hpast, hreq, wallet, hlinks⟩ := permitted_of_mem_log (serve_ends d) hr hmem
  have hlinks' := hlinks.mono (historyOf_subset fun x hx =>
    hpast.subset (List.mem_cons_of_mem _ hx))
  obtain ⟨state, now, v, hstate, hcookie, hnow, hverified⟩ := hlinks'.state
  obtain ⟨token, user, -, ha⟩ := hlinks'.user
  refine ⟨t, req, wallet, hreq, hlinks', by rw [ha], ?_⟩
  -- the signature is none that a browser could have made
  obtain ⟨payload, hissued, rfl, -, hfresh, -, -, hwallet⟩ := GithubOAuth.verify_genuine
    (hr.linksSound.brought t state (mem_historyOf.mp hstate)) hverified
  obtain ⟨t', hsent⟩ := hr.linksSound.sent payload hissued
  obtain ⟨req', wallet', hreq', haction', hsession', hid⟩ := hr.sent_to hsent
  have hnonempty : ofString wallet.id ≠ [] := fun hempty =>
    hr.session_id hlinks'.session (ofString_injective (hempty.trans (by rfl : [] = ofString "")))
  have hsame : wallet'.id = wallet.id :=
    ofString_injective (hid.symm.trans (hwallet _ rfl hnonempty))
  exact ⟨payload, now, t', req', wallet', mem_historyOf.mp hstate, mem_historyOf.mp hcookie,
    mem_historyOf.mp hnow, hfresh, hsent, hreq', haction', hsession', hsame⟩

/-- **The links.**  In every run a wallet has one account and an account one wallet, and each link
was made by a callback in a session of its wallet that brought back a state of that wallet. -/
theorem linked_accounts_sound (hr : PageRun d tr c) :
    c.world.linkedAccounts.Pairwise Apart ∧ ∀ a ∈ c.world.linkedAccounts, LinkedBy d tr c a :=
  ⟨hr.linksSound.unique, fun a ha => hr.linkedBy (hr.linksSound.linked a ha)⟩

namespace Sample

def walletId : RowId := "00000000-0000-4000-8000-0000000000a1"

def nonce : JsString := jsText "00000000-0000-4000-8000-0000000000c1"

/-- The HMAC-SHA256 of the state below under the key `secret`. -/
def stateMac : List UInt8 :=
  [78, 11, 113, 146, 221, 118, 222, 166, 121, 203, 222, 221, 133, 98, 161, 103, 112, 236, 185, 178,
    16, 91, 118, 251, 233, 44, 39, 192, 91, 35, 63, 105]

def server : Server ℤ where
  toNumbers := JsonText.integers
  ofNat := fun n => n
  sub := fun a b => a - b
  gt := fun a b => a > b
  truthy := fun a => a ≠ 0
  hmacSha256 := fun _ _ => stateMac
  length_hmacSha256 := fun _ _ => rfl
  GITHUB_CLIENT_SECRET := some (jsText "secret")

/-- Knows one URL. -/
def platform : Platform where
  url := fun text =>
    if text = jsText "https://github.com/octocat/hello" then
      some ⟨jsText "https:", jsText "github.com", jsText "/octocat/hello", text⟩
    else none
  toLowerCase := fun text => text.map asciiLower

def deployment : Deployment ℤ where
  server := server
  platform := platform
  env := ⟨some (jsText "client"), jsText "USDC", jsText "issuer"⟩
  message := fun _ => jsText "failed"

def payload : OAuthStatePayload ℤ := ⟨ofString walletId, nonce, 1750000000000, none⟩

def state : JsString := server.signOAuthState payload

def user : GitHubUser ℤ := ⟨583231, jsText "octocat", jsText "avatar", jsText "profile"⟩

def account : LinkedAccount :=
  ⟨walletId, jsText "583231", jsText "octocat", jsText "avatar", jsText "profile"⟩

/-- A wallet links its account. -/
def link : List (Move Request (Choice ℤ) EnvEvent) :=
  [.event (.wallet walletId (.account 1)), .request ⟨some walletId, .githubStart none⟩,
    .call 0 .ok, .call 0 (.text nonce), .call 0 (.clock 1750000000000), .call 0 .ok,
    .request ⟨some walletId, .githubCallback ⟨some (jsText "code"), none, none⟩⟩,
    .call 1 .ok, .call 1 (.state (some state)), .call 1 (.state (some state)),
    .call 1 (.clock 1750000060000), .call 1 (.token (.ok (jsText "token"))),
    .call 1 (.user (.ok user)), .call 1 .ok]

theorem link_plays : (play (serve deployment) (Site.perform server) Site.environment
    (start launched) link).isSome = true := by decide +kernel

def linking : List (PageTransition ℤ) × PageConfig ℤ :=
  played (serve deployment) (Site.perform server) Site.environment (start launched) link link_plays

theorem linking_run : PageRun deployment linking.1 linking.2 := run_played _ _ _ link_plays

end Sample

/-- A wallet links its account within a minute. -/
theorem linked_accounts_sound_octocat :
    Sample.linking.2.world.linkedAccounts = [Sample.account] ∧
      Sample.linking.2.world.linkedAccounts.Pairwise Apart ∧
      ∀ a ∈ Sample.linking.2.world.linkedAccounts,
        LinkedBy Sample.deployment Sample.linking.1 Sample.linking.2 a :=
  ⟨by decide +kernel, linked_accounts_sound Sample.linking_run⟩

end EventPage
