/-
# What the functions of the page may do

The obligation of each request, over the calls it made before, and what its reply says about
them: a team is inserted for the session's wallet after every check was passed, the judging is
started by the organizer, a state is issued to the session's wallet, and an account is linked to
it after a state of its own came back (`serve_ends`).
-/
import Astrea.EventPageWorld

open Interleave Interleave.Guarded Utf16 JsonText
open Service (RowId EventStatus JsString trim)
open GithubOAuth (Server OAuthStatePayload)

namespace EventPage

variable {ν : Type}

/-! ## The obligation -/

/-- The session's cookie led to this wallet. -/
def SessionOf (h : List (Done ν)) (req : Request) (wallet : SessionWallet) : Prop :=
  ∃ id, req.cookie = some id ∧ (⟨.findWallet id, .ok (some wallet)⟩ : Done ν) ∈ h

/-- The wallet's linked account has the name of the owner of the repository. -/
structure OwnsRepo (d : Deployment ν) (h : List (Done ν)) (walletId : RowId)
    (submissionUrl : JsString) (account : LinkedAccount) : Prop where
  linked : (⟨.findLinkedAccount walletId, some account⟩ : Done ν) ∈ h
  owner : ∃ repo, d.platform.parseGitHubRepoUrl submissionUrl = some repo ∧
    (d.platform.checkRepoOwnership ⟨account.username, repo.owner, none, false⟩).isOwner = true

/-- Where the event requires GitHub, the submission was verified; elsewhere it was not. -/
def Verified (d : Deployment ν) (h : List (Done ν)) (event : EventFields) (walletId : RowId)
    (team : TeamData ν) : Prop :=
  (event.requireGithub = true → ∃ now account, team.submissionVerifiedAt = some now ∧
    OwnsRepo d h walletId team.submissionUrl account) ∧
  (event.requireGithub = false → team.submissionVerifiedAt = none)

/-- The request registers this team: it asks for it, its session has the wallet, the event was
live, and the wallet has a trustline. -/
structure Registers (d : Deployment ν) (req : Request) (h : List (Done ν)) (wallet : SessionWallet)
    (team : TeamData ν) : Prop where
  action : ∃ eventId input, req.action = .registerTeam eventId input ∧
    uuidOf eventId = some team.eventId ∧ team.name = trim input.teamName ∧
    d.platform.parseSubmissionUrl input.submissionUrl = some team.submissionUrl
  named : team.name ≠ [] ∧ team.name.length ≤ TEAM_NAME_MAX
  session : SessionOf h req wallet
  member : team.member = ⟨team.eventId, wallet.id, 10000, 0⟩
  event : ∃ event, (⟨.findEvent team.eventId, some event⟩ : Done ν) ∈ h ∧ event.status = .live ∧
    Verified d h event wallet.id team
  trustline : (⟨.hasUsdcTrustline wallet.address, .ok true⟩ : Done ν) ∈ h

/-- The request starts the judging of this event, whose organizer its session is. -/
def StartsJudging (req : Request) (h : List (Done ν)) (eventId : RowId) : Prop :=
  ∃ text wallet event, req.action = .startJudging text ∧ uuidOf text = some eventId ∧
    SessionOf h req wallet ∧ (⟨.findEvent eventId, some event⟩ : Done ν) ∈ h ∧
    event.organizerWalletId = wallet.id

/-- The request links this account to its session's wallet: a state of the wallet came back, also
as the cookie, and GitHub told whose code it came with. -/
structure Links (d : Deployment ν) (req : Request) (h : List (Done ν)) (wallet : SessionWallet)
    (account : LinkedAccount) : Prop where
  action : ∃ params, req.action = .githubCallback params
  session : SessionOf h req wallet
  state : ∃ state now v, (⟨.readState, some state⟩ : Done ν) ∈ h ∧
    (⟨.readStateCookie, some state⟩ : Done ν) ∈ h ∧ (⟨.now, now⟩ : Done ν) ∈ h ∧
    d.server.verifyOAuthState now state (some (ofString wallet.id)) = .ok (some v)
  user : ∃ token user, (⟨.getGitHubUser token, .ok user⟩ : Done ν) ∈ h ∧
    account = ⟨wallet.id, d.server.text user.id, user.login, user.avatar_url, user.html_url⟩

/-- The call `op` may be made by this request. -/
def MayCall (d : Deployment ν) (req : Request) (h : List (Done ν)) : Op ν → Prop
  | .insertTeam team => ∃ wallet, Registers d req h wallet team
  | .commitTeam teamId => ∃ team, (⟨.insertTeam team, .ok teamId⟩ : Done ν) ∈ h
  | .updateEventStatus id old new => old = .live ∧ new = .judging ∧ StartsJudging req h id
  | .sendState payload => (∃ returnTo, req.action = .githubStart returnTo) ∧
      ∃ wallet, SessionOf h req wallet ∧ payload.walletId = ofString wallet.id
  | .replaceLinkedAccount account => ∃ wallet, Links d req h wallet account
  | _ => True

/-- The call inserted no team and changed no status. -/
def Harmless : Done ν → Prop
  | ⟨.insertTeam _, _⟩ => False
  | ⟨.updateEventStatus _ _ _, (count : ℕ)⟩ => count = 0
  | _ => True

/-- What the request was for has happened. -/
def Accomplished (req : Request) (h : List (Done ν)) : Prop :=
  match req.action with
  | .registerTeam _ _ => ∃ team teamId, (⟨.insertTeam team, .ok teamId⟩ : Done ν) ∈ h ∧
      (⟨.commitTeam teamId, .ok ()⟩ : Done ν) ∈ h
  | .startJudging text => ∃ id, ∃ count : ℕ, uuidOf text = some id ∧ count ≠ 0 ∧
      (⟨.updateEventStatus id .live .judging, count⟩ : Done ν) ∈ h
  | _ => True

/-- What a reply says about the calls before it. -/
def Replies (req : Request) (h : List (Done ν)) : Outcome → Prop
  | .ok (.action .ok) => Accomplished req h
  | .ok (.action (.refused _ _)) => ∀ e ∈ h, Harmless e
  | _ => True

/-! ## Longer histories -/

section Histories

variable {d : Deployment ν} {req : Request} {h h' : List (Done ν)} {wallet : SessionWallet}

/-- A session that was read stays read. -/
theorem SessionOf.mono (hs : SessionOf h req wallet) (hsub : h ⊆ h') : SessionOf h' req wallet := by
  obtain ⟨id, hcookie, hmem⟩ := hs
  exact ⟨id, hcookie, hsub hmem⟩

/-- What has been verified stays verified. -/
theorem Verified.mono {event : EventFields} {walletId : RowId} {team : TeamData ν}
    (hv : Verified d h event walletId team) (hsub : h ⊆ h') : Verified d h' event walletId team := by
  refine ⟨fun hrequired => ?_, hv.2⟩
  obtain ⟨now, account, hnow, howns⟩ := hv.1 hrequired
  exact ⟨now, account, hnow, hsub howns.linked, howns.owner⟩

/-- More calls were made, none of which did any harm. -/
structure Grown (h h' : List (Done ν)) : Prop where
  sub : h ⊆ h'
  harmless : (∀ e ∈ h, Harmless e) → ∀ e ∈ h', Harmless e

theorem Grown.rfl : Grown h h := ⟨List.Subset.refl h, id⟩

theorem Grown.trans {h'' : List (Done ν)} (hg : Grown h h') (hg' : Grown h' h'') : Grown h h'' :=
  ⟨List.Subset.trans hg.sub hg'.sub, fun hh => hg'.harmless (hg.harmless hh)⟩

/-- A call that does no harm only lengthens the history. -/
theorem Grown.cons (hg : Grown h h') {e : Done ν} (he : Harmless e) : Grown h (e :: h') :=
  ⟨fun _ hx => List.mem_cons_of_mem _ (hg.sub hx),
    fun hh => List.forall_mem_cons.mpr ⟨he, hg.harmless hh⟩⟩

end Histories

/-! ## The parts of the functions -/

variable {d : Deployment ν} {req : Request} {h : List (Done ν)} {α : Type}

/-- A handler keeps to the obligation and ends as it should. -/
abbrev Meets (d : Deployment ν) (req : Request) (h : List (Done ν)) (p : Handler ν α)
    (Q : List (Done ν) → α → Prop) : Prop := Ends (MayCall d req) h p Q (Replies req)

/-- A part keeps to the obligation; whatever it throws is allowed. -/
abbrev MeetsPart (d : Deployment ν) (req : Request) (h : List (Done ν)) (p : Part ν α)
    (Q : List (Done ν) → α → Prop) : Prop := Ends (MayCall d req) h p Q fun _ _ => True

/-- A call that may be made, and what is known after it. -/
theorem ends_call {ε : Type} {E : List (Done ν) → ε → Prop} {op : Op ν} (hop : MayCall d req h op) :
    Ends (MayCall d req) h (call op : Guarded (Op ν) Op.Res ε op.Res)
      (fun h' r => h' = ⟨op, r⟩ :: h) E :=
  ends_perform hop fun _ => rfl

theorem meets_awaited {r : Except Failure α} {Q : List (Done ν) → α → Prop}
    (hr : ∀ a, r = .ok a → Q h a) : MeetsPart d req h (awaited r) Q :=
  ends_orStop hr fun _ _ => trivial

theorem meets_awaiting {p : Part ν α} {Q : List (Done ν) → α → Prop}
    (hp : MeetsPart d req h p Q) : Meets d req h (awaiting p) Q :=
  hp.attempt.bind fun _ _ hr => ends_orStop hr.1 fun _ _ => trivial

/-- The session's wallet is the one that the request's cookie names. -/
theorem meets_getSessionWallet : MeetsPart d req h (getSessionWallet req.cookie)
    fun h' session => Grown h h' ∧ ∀ wallet, session = some wallet → SessionOf h' req wallet := by
  unfold getSessionWallet
  cases hcookie : req.cookie with
  | none => exact ends_pure ⟨.rfl, fun _ hw => nomatch hw⟩
  | some id =>
      simp only
      split
      · exact ends_pure ⟨.rfl, fun _ hw => nomatch hw⟩
      · refine Ends.bind (ends_call trivial) ?_
        rintro _ r rfl
        refine meets_awaited fun session hr => ⟨.cons .rfl trivial, ?_⟩
        rintro wallet rfl
        subst hr
        exact ⟨id, hcookie, List.mem_cons_self⟩

/-- A connected caller has a session. -/
theorem meets_connected {otherwise : Outcome}
    (ho : ∀ h', Grown h h' → Replies req h' otherwise) :
    Meets d req h (connected req.cookie otherwise)
      fun h' wallet => Grown h h' ∧ SessionOf h' req wallet := by
  unfold connected
  refine Ends.bind (meets_awaiting meets_getSessionWallet) fun h' session hs => ?_
  exact ends_expect (fun wallet hw => ⟨hs.1, hs.2 wallet hw⟩) fun _ => ho h' hs.1

/-- A trustline counts as verified only after the ledger said so. -/
theorem meets_verifyAndRecordTrustline {walletId : RowId} {address : Service.Address} :
    MeetsPart d req h (verifyAndRecordTrustline walletId address) fun h' verified => Grown h h' ∧
      (verified = true → (⟨.hasUsdcTrustline address, .ok true⟩ : Done ν) ∈ h') := by
  unfold verifyAndRecordTrustline
  refine Ends.bind (ends_call trivial) ?_
  rintro _ r rfl
  refine Ends.bind (meets_awaited (Q := fun h' verified =>
    h' = ⟨.hasUsdcTrustline address, .ok verified⟩ :: h) fun verified hr => by rw [hr]) ?_
  rintro _ verified rfl
  cases verified with
  | false => exact ends_pure ⟨.cons .rfl trivial, fun hfalse => nomatch hfalse⟩
  | true =>
      refine Ends.bind (ends_call trivial) ?_
      rintro _ now rfl
      refine Ends.bind (ends_call trivial) ?_
      rintro _ set rfl
      refine Ends.bind (meets_awaited (Q := fun h' _ => h' = ⟨.setTrustlineVerifiedAt walletId now,
        set⟩ :: ⟨.now, now⟩ :: ⟨.hasUsdcTrustline address, .ok true⟩ :: h) fun _ _ => rfl) ?_
      rintro _ _ rfl
      have hg : Grown h (⟨.hasUsdcTrustline address, .ok true⟩ :: h) := .cons .rfl trivial
      have hg₁ : Grown h (⟨.now, now⟩ :: ⟨.hasUsdcTrustline address, .ok true⟩ :: h) :=
        hg.cons trivial
      exact ends_pure ⟨hg₁.cons trivial, fun _ => by simp⟩

/-- A refusal before anything was inserted. -/
theorem replies_refused (hh : ∀ e ∈ h, Harmless e) (code : ActionCode) (detail : Option JsString) :
    Replies req h (refused code detail) := hh

/-- A verified submission is a repository of an account linked to the wallet. -/
theorem meets_verifySubmission {walletId : RowId} {submissionUrl : JsString}
    (hh : ∀ e ∈ h, Harmless e) :
    Meets d req h (verifySubmission d.platform walletId submissionUrl) fun h' _ => Grown h h' ∧
      ∃ account, OwnsRepo d h' walletId submissionUrl account := by
  unfold verifySubmission
  refine Ends.bind (ends_call trivial) ?_
  rintro _ found rfl
  have hg : Grown h (⟨.findLinkedAccount walletId, found⟩ :: h) := .cons .rfl trivial
  refine Ends.bind (ends_expect (Q := fun h' account =>
    h' = ⟨.findLinkedAccount walletId, some account⟩ :: h) (fun account hf => by rw [hf])
    fun _ => replies_refused (hg.harmless hh) _ _) ?_
  rintro _ account rfl
  have hg₁ : Grown h (⟨.findLinkedAccount walletId, some account⟩ :: h) := .cons .rfl trivial
  refine Ends.bind (ends_expect (Q := fun h' repo =>
    h' = ⟨.findLinkedAccount walletId, some account⟩ :: h ∧
      d.platform.parseGitHubRepoUrl submissionUrl = some repo) (fun repo hrepo => ⟨rfl, hrepo⟩)
    fun _ => replies_refused (hg₁.harmless hh) _ _) ?_
  rintro _ repo ⟨rfl, hrepo⟩
  refine Ends.bind (ends_ensure (Q := fun h' _ =>
    h' = ⟨.findLinkedAccount walletId, some account⟩ :: h ∧
      OwnsRepo d h' walletId submissionUrl account)
    (fun howner => ⟨rfl, List.mem_cons_self, repo, hrepo, howner⟩)
    fun _ => replies_refused (hg₁.harmless hh) _ _) ?_
  rintro _ - ⟨rfl, howns⟩
  refine ends_perform trivial fun now => ⟨hg₁.cons trivial, account, ?_, howns.owner⟩
  exact List.mem_cons_of_mem _ howns.linked

/-- The time of the verification where the event requires one. -/
theorem meets_submissionVerification {event : EventFields} {walletId : RowId} {submissionUrl : JsString}
    (hh : ∀ e ∈ h, Harmless e) :
    Meets d req h (submissionVerification d.platform event walletId submissionUrl)
      fun h' verifiedAt => Grown h h' ∧
        (event.requireGithub = true → ∃ now account, verifiedAt = some now ∧
          OwnsRepo d h' walletId submissionUrl account) ∧
        (event.requireGithub = false → verifiedAt = none) := by
  unfold submissionVerification
  cases hrequired : event.requireGithub with
  | false =>
      exact ends_pure ⟨.rfl, fun htrue => (nomatch htrue), fun _ => rfl⟩
  | true =>
      refine Ends.map ((meets_verifySubmission hh).mono (fun h' now hv => ?_) fun _ _ he => he)
      obtain ⟨hg, account, howns⟩ := hv
      exact ⟨hg, fun _ => ⟨now, account, rfl, howns⟩, fun hfalse => nomatch hfalse⟩

/-- The transaction of a registration. -/
theorem meets_createTeam {team : TeamData ν} (hteam : MayCall d req h (.insertTeam team)) :
    MeetsPart d req h (createTeam team) fun h' _ => ∃ team teamId,
      (⟨.insertTeam team, .ok teamId⟩ : Done ν) ∈ h' ∧
        (⟨.commitTeam teamId, .ok ()⟩ : Done ν) ∈ h' := by
  unfold createTeam
  refine Ends.bind (ends_call hteam) ?_
  rintro _ r rfl
  refine Ends.bind (meets_awaited (Q := fun h' teamId => h' = ⟨.insertTeam team, .ok teamId⟩ :: h)
    fun teamId hr => by rw [hr]) ?_
  rintro _ teamId rfl
  refine Ends.bind (ends_call ⟨team, List.mem_cons_self⟩) ?_
  rintro _ r₁ rfl
  refine meets_awaited fun _ hr => ⟨team, teamId, by simp, ?_⟩
  rw [hr]
  exact List.mem_cons_self

/-- A transition that was made, or one that changed nothing. -/
theorem meets_transitionEvent {eventId : RowId} (hstarts : StartsJudging req h eventId)
    (hh : ∀ e ∈ h, Harmless e) :
    Ends (MayCall d req) h (transitionEvent eventId .live .judging) (fun h' _ => ∃ count : ℕ,
      count ≠ 0 ∧ (⟨.updateEventStatus eventId .live .judging, count⟩ : Done ν) ∈ h')
      fun h' _ => ∀ e ∈ h', Harmless e := by
  unfold transitionEvent
  refine Ends.bind (ends_orStop (Q := fun h' _ => h = h') (fun _ _ => rfl) fun _ _ => hh) ?_
  rintro _ - rfl
  refine Ends.bind (ends_call ⟨rfl, rfl, hstarts⟩) ?_
  rintro _ count rfl
  refine ends_ensure (fun hcount => ⟨count, hcount, List.mem_cons_self⟩) fun hcount => ?_
  exact List.forall_mem_cons.mpr ⟨not_not.mp hcount, hh⟩

/-! ## The functions -/

/-- Registering a team meets its obligations. -/
theorem meets_registerTeam {eventId : String} {input : RegisterTeamInput}
    (hreq : req.action = .registerTeam eventId input) :
    Meets d req [] (registerTeam d.platform d.env req.cookie eventId input) fun h' result =>
      Replies req h' (.ok (.action result)) := by
  have hstart : ∀ e ∈ ([] : List (Done ν)), Harmless e := fun _ he => absurd he List.not_mem_nil
  unfold registerTeam
  refine Ends.bind (meets_connected fun h' hg => replies_refused (hg.harmless hstart) _ _) ?_
  rintro h₁ wallet ⟨hg, hsession⟩
  have hh := hg.harmless hstart
  -- the checks of the input make no calls
  refine Ends.bind (ends_ensure (Q := fun h' _ => h₁ = h' ∧ (trim input.teamName ≠ [] ∧
    (trim input.teamName).length ≤ TEAM_NAME_MAX)) (fun hname => ⟨rfl, hname⟩)
    fun _ => replies_refused hh _ _) ?_
  rintro _ - ⟨rfl, hname⟩
  refine Ends.bind (ends_expect (Q := fun h' url => h₁ = h' ∧
    d.platform.parseSubmissionUrl input.submissionUrl = some url) (fun url hurl => ⟨rfl, hurl⟩)
    fun _ => replies_refused hh _ _) ?_
  rintro _ submissionUrl ⟨rfl, hurl⟩
  refine Ends.bind (ends_expect (Q := fun h' id => h₁ = h' ∧ uuidOf eventId = some id)
    (fun id hid => ⟨rfl, hid⟩) fun _ => replies_refused hh _ _) ?_
  rintro _ id ⟨rfl, hid⟩
  refine Ends.bind (ends_call trivial) ?_
  rintro _ found rfl
  have hh₁ : ∀ e ∈ ⟨.findEvent id, found⟩ :: h₁, Harmless e := List.forall_mem_cons.mpr ⟨trivial, hh⟩
  refine Ends.bind (ends_expect (Q := fun h' event => h' = ⟨.findEvent id, some event⟩ :: h₁)
    (fun event hfound => by rw [hfound]) fun _ => replies_refused hh₁ _ _) ?_
  rintro _ event rfl
  have hh₂ : ∀ e ∈ ⟨.findEvent id, some event⟩ :: h₁, Harmless e :=
    List.forall_mem_cons.mpr ⟨trivial, hh⟩
  refine Ends.bind (ends_ensure (Q := fun h' _ => h' = ⟨.findEvent id, some event⟩ :: h₁ ∧
    event.status = .live) (fun hlive => ⟨rfl, hlive⟩) fun _ => replies_refused hh₂ _ _) ?_
  rintro _ - ⟨rfl, hlive⟩
  refine Ends.bind (meets_submissionVerification hh₂) ?_
  rintro h₃ verifiedAt ⟨hg₃, hverified⟩
  have hh₃ := hg₃.harmless hh₂
  refine Ends.bind (meets_awaiting meets_verifyAndRecordTrustline) ?_
  rintro h₄ hasTrustline ⟨hg₄, htrust⟩
  have hh₄ := hg₄.harmless hh₃
  refine Ends.bind (ends_ensure (Q := fun h' _ => h₄ = h' ∧ hasTrustline = true)
    (fun htrue => ⟨rfl, htrue⟩) fun _ => replies_refused hh₄ _ _) ?_
  rintro _ - ⟨rfl, rfl⟩
  refine Ends.bind (ends_call trivial) ?_
  rintro _ existing rfl
  have hh₅ : ∀ e ∈ ⟨.findTeamMember id wallet.id, existing⟩ :: h₄, Harmless e :=
    List.forall_mem_cons.mpr ⟨trivial, hh₄⟩
  refine Ends.bind (ends_ensure (Q := fun h' _ =>
    h' = ⟨.findTeamMember id wallet.id, existing⟩ :: h₄) (fun _ => rfl)
    fun _ => replies_refused hh₅ _ _) ?_
  rintro _ - rfl
  -- every check was passed
  have hregisters : Registers d req (⟨.findTeamMember id wallet.id, existing⟩ :: h₄) wallet
      ⟨id, trim input.teamName, submissionUrl, verifiedAt, ⟨id, wallet.id, 10000, 0⟩⟩ := by
    have hsub : (⟨.findEvent id, some event⟩ :: h₁ : List (Done ν))
        ⊆ ⟨.findTeamMember id wallet.id, existing⟩ :: h₄ := fun _ hx =>
      List.mem_cons_of_mem _ (hg₄.sub (hg₃.sub hx))
    have hsub₃ : h₃ ⊆ ⟨.findTeamMember id wallet.id, existing⟩ :: h₄ := fun _ hx =>
      List.mem_cons_of_mem _ (hg₄.sub hx)
    exact ⟨⟨eventId, input, hreq, hid, rfl, hurl⟩, hname,
      hsession.mono fun _ hx => hsub (List.mem_cons_of_mem _ hx), rfl,
      ⟨event, hsub List.mem_cons_self, hlive, Verified.mono hverified hsub₃⟩,
      List.mem_cons_of_mem _ (htrust rfl)⟩
  refine Ends.bind (meets_awaiting (meets_createTeam ⟨wallet, hregisters⟩)) fun h₆ _ hdone => ?_
  refine ends_pure ?_
  rw [Replies, Accomplished, hreq]
  exact hdone

/-- Starting the judging meets its obligations. -/
theorem meets_startJudging {text : String} (hreq : req.action = .startJudging text) :
    Meets d req [] (startJudging d.message req.cookie text) fun h' result =>
      Replies req h' (.ok (.action result)) := by
  have hstart : ∀ e ∈ ([] : List (Done ν)), Harmless e := fun _ he => absurd he List.not_mem_nil
  unfold startJudging
  refine Ends.bind (meets_connected fun h' hg => replies_refused (hg.harmless hstart) _ _) ?_
  rintro h₁ wallet ⟨hg, hsession⟩
  have hh := hg.harmless hstart
  refine Ends.bind (ends_expect (Q := fun h' id => h₁ = h' ∧ uuidOf text = some id)
    (fun id hid => ⟨rfl, hid⟩) fun _ => replies_refused hh _ _) ?_
  rintro _ id ⟨rfl, hid⟩
  refine Ends.bind (ends_call trivial) ?_
  rintro _ found rfl
  have hh₁ : ∀ e ∈ ⟨.findEvent id, found⟩ :: h₁, Harmless e := List.forall_mem_cons.mpr ⟨trivial, hh⟩
  refine Ends.bind (ends_expect (Q := fun h' event => h' = ⟨.findEvent id, some event⟩ :: h₁)
    (fun event hfound => by rw [hfound]) fun _ => replies_refused hh₁ _ _) ?_
  rintro _ event rfl
  have hh₂ : ∀ e ∈ ⟨.findEvent id, some event⟩ :: h₁, Harmless e :=
    List.forall_mem_cons.mpr ⟨trivial, hh⟩
  refine Ends.bind (ends_ensure (Q := fun h' _ => h' = ⟨.findEvent id, some event⟩ :: h₁ ∧
    event.organizerWalletId = wallet.id) (fun horganizer => ⟨rfl, horganizer⟩)
    fun _ => replies_refused hh₂ _ _) ?_
  rintro _ - ⟨rfl, horganizer⟩
  refine Ends.bind (ends_ensure (Q := fun h' _ => h' = ⟨.findEvent id, some event⟩ :: h₁)
    (fun _ => rfl) fun _ => replies_refused hh₂ _ _) ?_
  rintro _ - rfl
  have hstarts : StartsJudging req (⟨.findEvent id, some event⟩ :: h₁) id :=
    ⟨text, wallet, event, hreq, hid, hsession.mono (List.subset_cons_self _ _),
      List.mem_cons_self, horganizer⟩
  refine Ends.bind (meets_transitionEvent hstarts hh₂).attempt ?_
  rintro h₂ moved ⟨hok, herror⟩
  cases moved with
  | ok _ =>
      obtain ⟨count, hcount, hmem⟩ := hok () rfl
      refine ends_pure ?_
      rw [Replies, Accomplished, hreq]
      exact ⟨id, count, hid, hcount, hmem⟩
  | error err => exact ends_pure (herror err rfl)

/-- Leaving for GitHub meets its obligations. -/
theorem meets_githubStart {returnTo : Option JsString} (hreq : req.action = .githubStart returnTo) :
    Meets d req [] (githubStart d.server d.env req.cookie returnTo) fun h' reply =>
      Replies req h' (.ok reply) := by
  unfold githubStart
  refine Ends.bind (meets_connected fun _ _ => trivial) ?_
  rintro h₁ wallet ⟨-, hsession⟩
  refine Ends.bind (ends_ensure (Q := fun h' _ => h₁ = h') (fun _ => rfl) fun _ => trivial) ?_
  rintro _ - rfl
  refine Ends.bind (ends_call trivial) ?_
  rintro _ nonce rfl
  refine Ends.bind (ends_call trivial) ?_
  rintro _ now rfl
  refine Ends.bind (ends_call ⟨⟨returnTo, hreq⟩, wallet, hsession.mono fun _ hx => ?_, rfl⟩) ?_
  · exact List.mem_cons_of_mem _ (List.mem_cons_of_mem _ hx)
  · rintro _ _ rfl
    exact ends_pure trivial

/-- A state is accepted at a time that was read, for this wallet. -/
theorem meets_verifyState {state : JsString} {walletId : RowId} :
    Meets d req h (verifyState d.server state walletId) fun h' verified => h ⊆ h' ∧ ∀ v,
      verified = some v → ∃ now, (⟨.now, now⟩ : Done ν) ∈ h' ∧
        d.server.verifyOAuthState now state (some (ofString walletId)) = .ok (some v) := by
  unfold verifyState
  refine Ends.bind (ends_call trivial) ?_
  rintro _ now rfl
  refine ends_orStop (fun verified hverified => ⟨List.subset_cons_self _ _, ?_⟩) fun _ _ => trivial
  rintro v rfl
  exact ⟨now, List.mem_cons_self, hverified⟩

/-- What is linked is the account GitHub told of. -/
theorem meets_linkAccount {wallet : SessionWallet} {code : JsString}
    (hlinks : ∀ h' token user, h ⊆ h' → (⟨.getGitHubUser token, .ok user⟩ : Done ν) ∈ h' →
      Links d req h' wallet ⟨wallet.id, d.server.text user.id, user.login, user.avatar_url,
        user.html_url⟩) :
    MeetsPart d req h (linkAccount d.server wallet.id code) fun _ _ => True := by
  unfold linkAccount
  refine Ends.bind (ends_call trivial) ?_
  rintro _ r rfl
  refine Ends.bind (meets_awaited (Q := fun h' _ => h ⊆ h') fun _ _ =>
    List.subset_cons_self _ _) fun h₁ token hsub => ?_
  refine Ends.bind (ends_call trivial) ?_
  rintro _ r₁ rfl
  refine Ends.bind (meets_awaited (Q := fun h' user => h' = ⟨.getGitHubUser token, .ok user⟩ :: h₁)
    fun user hr => by rw [hr]) ?_
  rintro _ user rfl
  refine Ends.bind (ends_call ⟨wallet, hlinks _ token user (fun _ hx =>
    List.mem_cons_of_mem _ (hsub hx)) List.mem_cons_self⟩) fun _ _ _ => ?_
  exact meets_awaited fun _ _ => trivial

/-- Coming back from GitHub meets its obligations. -/
theorem meets_githubCallback {params : CallbackParams}
    (hreq : req.action = .githubCallback params) :
    Meets d req [] (githubCallback d.server d.message req.cookie params) fun h' reply =>
      Replies req h' (.ok reply) := by
  unfold githubCallback
  refine Ends.bind (meets_connected fun _ _ => trivial) ?_
  rintro h₁ wallet ⟨-, hsession⟩
  refine Ends.bind (ends_call trivial) ?_
  rintro _ state rfl
  refine Ends.bind (ends_call trivial) ?_
  rintro _ cookieState rfl
  cases nonempty params.error with
  | some ghError =>
      simp only
      split
      · refine Ends.bind meets_verifyState fun _ statePayload _ => ?_
        exact ends_pure trivial
      · refine Ends.bind (Q := fun _ _ => True) (ends_pure trivial) fun _ statePayload _ => ?_
        exact ends_pure trivial
  | none =>
      simp only
      refine Ends.bind (ends_expect (Q := fun h' _ =>
        h' = ⟨.readStateCookie, cookieState⟩ :: ⟨.readState, state⟩ :: h₁) (fun _ _ => rfl)
        fun _ => trivial) ?_
      rintro _ code rfl
      refine Ends.bind (ends_expect (Q := fun h' sent => state = some sent ∧
        h' = ⟨.readStateCookie, cookieState⟩ :: ⟨.readState, state⟩ :: h₁)
        (fun sent hsent => ⟨(Option.filter_eq_some_iff.mp hsent).1, rfl⟩) fun _ => trivial) ?_
      rintro _ sent ⟨rfl, rfl⟩
      refine Ends.bind (ends_ensure (Q := fun h' _ =>
        h' = ⟨.readStateCookie, some sent⟩ :: ⟨.readState, some sent⟩ :: h₁)
        (fun hsame => by rw [hsame]) fun _ => trivial) ?_
      rintro _ - rfl
      refine Ends.bind meets_verifyState ?_
      rintro h₂ verified ⟨hsub, hverified⟩
      refine Ends.bind (ends_expect (Q := fun h' v => h₂ = h' ∧ verified = some v)
        (fun v hv => ⟨rfl, hv⟩) fun _ => trivial) ?_
      rintro _ v ⟨rfl, hv⟩
      obtain ⟨now, hnow, hstate⟩ := hverified v hv
      refine Ends.bind (meets_linkAccount fun h' token user hsub' huser => ?_).attempt
        fun _ linked _ => ?_
      · refine ⟨⟨params, hreq⟩, hsession.mono fun _ hx => hsub' (hsub ?_),
          ⟨sent, now, v, hsub' (hsub ?_), hsub' (hsub ?_), hsub' hnow, hstate⟩,
          ⟨token, user, huser, rfl⟩⟩
        · exact List.mem_cons_of_mem _ (List.mem_cons_of_mem _ hx)
        · exact List.mem_cons_of_mem _ List.mem_cons_self
        · exact List.mem_cons_self
      · cases linked with
        | ok _ => exact ends_pure trivial
        | error err => exact ends_pure trivial

/-- Every request keeps to its obligation, and its reply says what `Replies` says. -/
theorem serve_ends (d : Deployment ν) (req : Request) :
    (serve d req).Safe (MayCall d req) [] (Replies req) := by
  refine Ends.answer (Ends.map ?_)
  unfold handle
  cases haction : req.action with
  | registerTeam eventId input => exact Ends.map (meets_registerTeam haction)
  | startJudging eventId => exact Ends.map (meets_startJudging haction)
  | githubStart returnTo => exact meets_githubStart haction
  | githubCallback params => exact meets_githubCallback haction

end EventPage
