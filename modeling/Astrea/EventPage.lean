/-
# The page of an event

What the web application does for the visitors of an event's page: a wallet links its GitHub
account, registers a team of one, and the organizer starts the judging.  The server functions are
programs that call the database, the clock, GitHub and Horizon; a failed `await` ends them.
-/
import Astrea.Interleave
import Astrea.OAuthState
import Astrea.RepoOwnership
import Astrea.StatusWriters
import Astrea.TeamTables

open Interleave Interleave.Guarded Utf16 JsonText
open Service (Address Message RowId EventStatus JsString jsText trim uuidPattern
  assertEventTransition)
open GithubOAuth (Server OAuthStatePayload property returnToKey)

namespace EventPage

/-! ## What the page is given -/

/-- The settings of a deployment. -/
structure Env where
  GITHUB_CLIENT_ID : Option JsString
  USDC_SYMBOL : JsString
  USDC_ISSUER : JsString

/-- What a server function throws, or the database for it. -/
inductive Failure where
  | error (m : Message)
  | database (e : TeamTables.SqlError)
  | invalidUuid
  | recordNotFound
  | uniqueViolation
  | rangeError
  /-- The connection, Horizon or GitHub did not answer as hoped. -/
  | unanswered (message : JsString)
  deriving DecidableEq

/-- A wallet as the session finds it. -/
structure SessionWallet where
  id : RowId
  address : Address
  deriving DecidableEq

/-- The columns of an event that the functions here select. -/
structure EventFields where
  status : EventStatus
  organizerWalletId : RowId
  requireGithub : Bool
  deriving DecidableEq

/-- A row of `linked_accounts`, whose provider is always `GITHUB`. -/
structure LinkedAccount where
  walletId : RowId
  providerId : JsString
  username : JsString
  avatarUrl : JsString
  profileUrl : JsString
  deriving DecidableEq

/-- `GitHubUserProfile`. -/
structure GitHubUser (ν : Type) where
  id : ν
  login : JsString
  avatar_url : JsString
  html_url : JsString

/-- A member of a team that is created. -/
structure MemberData where
  eventId : RowId
  walletId : RowId
  shareBasisPoints : ℤ
  ordinal : ℤ
  deriving DecidableEq

/-- The data of a team that is created with its one member. -/
structure TeamData (ν : Type) where
  eventId : RowId
  name : JsString
  submissionUrl : JsString
  submissionVerifiedAt : Option ν
  member : MemberData

/-! ## Calls -/

inductive Op (ν : Type) where
  | now
  | randomUUID
  | findWallet (id : String)
  | findEvent (id : RowId)
  | findLinkedAccount (walletId : RowId)
  | hasUsdcTrustline (address : Address)
  | setTrustlineVerifiedAt (walletId : RowId) (verifiedAt : ν)
  | findTeamMember (eventId walletId : RowId)
  /-- The statements of the nested create, in a transaction that is still open. -/
  | insertTeam (team : TeamData ν)
  | commitTeam (teamId : RowId)
  | updateEventStatus (id : RowId) (old new : EventStatus)
  /-- The response that sets the state cookie and sends the browser to GitHub. -/
  | sendState (payload : OAuthStatePayload ν)
  | readState
  | readStateCookie
  | exchangeCodeForToken (code : JsString)
  | getGitHubUser (token : JsString)
  /-- The transaction that replaces the links of the wallet and of the account by this one. -/
  | replaceLinkedAccount (account : LinkedAccount)

variable {ν : Type}

/-- What a call answers. -/
@[reducible] def Op.Res : Op ν → Type
  | .now => ν
  | .randomUUID => JsString
  | .findWallet _ => Except Failure (Option SessionWallet)
  | .findEvent _ => Option EventFields
  | .findLinkedAccount _ => Option LinkedAccount
  | .hasUsdcTrustline _ => Except Failure Bool
  | .setTrustlineVerifiedAt _ _ => Except Failure Unit
  | .findTeamMember _ _ => Option RowId
  | .insertTeam _ => Except Failure RowId
  | .commitTeam _ => Except Failure Unit
  | .updateEventStatus _ _ _ => ℕ
  | .sendState _ => Unit
  | .readState => Option JsString
  | .readStateCookie => Option JsString
  | .exchangeCodeForToken _ => Except Failure JsString
  | .getGitHubUser _ => Except Failure (GitHubUser ν)
  | .replaceLinkedAccount _ => Except Failure Unit

abbrev Done (ν : Type) : Type := Interleave.Done (Op ν) Op.Res

abbrev Log (ν : Type) : Type := Interleave.Log (Op ν) Op.Res

/-! ## Answers -/

/-- The codes of an `ActionResult` that is not ok. -/
inductive ActionCode where
  | notConnected
  | eventNotFound
  | notLive
  | missingTrustline
  | alreadyRegistered
  | invalidTeamName
  | invalidSubmissionUrl
  | notOrganizer
  | transition
  | githubRequired
  | invalidGithubUrl
  | notRepoOwner
  deriving DecidableEq

inductive ActionResult where
  | ok
  | refused (code : ActionCode) (detail : Option JsString)
  deriving DecidableEq

inductive Reply where
  | action (result : ActionResult)
  /-- To a path of the site, with search parameters. -/
  | redirect (path : JsString) (params : List (JsString × JsString))
  /-- To GitHub's authorization page, with the signed state. -/
  | authorize (state : JsString)
  deriving DecidableEq

/-- How a request ends: with a reply, or with what its function throws. -/
abbrev Outcome : Type := Except Failure Reply

/-- A part of a server function that ends early only by throwing. -/
abbrev Part (ν α : Type) : Type := Guarded (Op ν) Op.Res Failure α

/-- A server function, which may also return early. -/
abbrev Handler (ν α : Type) : Type := Guarded (Op ν) Op.Res Outcome α

def call {ε : Type} (op : Op ν) : Guarded (Op ν) Op.Res ε op.Res := perform op

/-- The value of a call that may throw. -/
def awaited {α : Type} (r : Except Failure α) : Part ν α := orStop r id

/-- The value of a part; what it throws is not caught. -/
def awaiting {α : Type} (p : Part ν α) : Handler ν α := do
  orStop (← attempt p) .error

def refused (code : ActionCode) (detail : Option JsString) : Outcome :=
  .ok (.action (.refused code detail))

def redirected (path : JsString) (params : List (String × JsString)) : Outcome :=
  .ok (.redirect path (params.map fun param => (jsText param.1, param.2)))

/-! ## Sessions and ids -/

/-- The canonical id, `isUuid` having been asked. -/
def uuidOf (value : String) : Option RowId :=
  if uuidPattern value then some value.toLower else none

/-- The wallet whose id the session cookie holds. -/
def getSessionWallet (cookie : Option String) : Part ν (Option SessionWallet) :=
  match cookie with
  | none => return none
  | some id => do
      if id = "" then return none
      else awaited (← call (.findWallet id))

/-- The connected wallet, or the answer to one that is not. -/
def connected (cookie : Option String) (otherwise : Outcome) : Handler ν SessionWallet := do
  let session ← awaiting (getSessionWallet cookie)
  expect session otherwise

/-! ## Registration -/

structure RegisterTeamInput where
  teamName : JsString
  submissionUrl : JsString
  deriving DecidableEq

def TEAM_NAME_MAX : ℕ := 80

/-- The empty text counts as none for the caller. -/
def Platform.parseSubmissionUrl (pf : Platform) (raw : JsString) : Option JsString := do
  let url ← pf.url (trim raw)
  if url.protocol ≠ jsText "https:" ∧ url.protocol ≠ jsText "http:" then none
  else if url.href = [] then none
  else some url.href

/-- The trustline check, which leaves its time behind when it is passed. -/
def verifyAndRecordTrustline (walletId : RowId) (address : Address) : Part ν Bool := do
  let verified ← awaited (← call (.hasUsdcTrustline address))
  if verified then
    let now ← call .now
    awaited (← call (.setTrustlineVerifiedAt walletId now))
    return true
  else return false

/-- The time at which the repository was seen to be the wallet's. -/
def verifySubmission (pf : Platform) (walletId : RowId) (submissionUrl : JsString) :
    Handler ν ν := do
  let found : Option LinkedAccount ← call (.findLinkedAccount walletId)
  let linkedAccount ← expect found (refused .githubRequired none)
  let parsedRepo ← expect (pf.parseGitHubRepoUrl submissionUrl) (refused .invalidGithubUrl none)
  let ownership := pf.checkRepoOwnership ⟨linkedAccount.username, parsedRepo.owner, none, false⟩
  ensure (ownership.isOwner = true) (refused .notRepoOwner ownership.reason)
  call .now

/-- `submissionVerifiedAt`, which stays null where the event does not require GitHub. -/
def submissionVerification (pf : Platform) (event : EventFields) (walletId : RowId)
    (submissionUrl : JsString) : Handler ν (Option ν) :=
  if event.requireGithub then some <$> verifySubmission pf walletId submissionUrl else pure none

/-- `db.team.create` with its member, which is one transaction. -/
def createTeam (team : TeamData ν) : Part ν Unit := do
  let teamId ← awaited (← call (.insertTeam team))
  awaited (← call (.commitTeam teamId))

/-- A session wallet registers as a team of one, with the full share. -/
def registerTeam (pf : Platform) (env : Env) (cookie : Option String) (eventId : String)
    (input : RegisterTeamInput) : Handler ν ActionResult := do
  let session ← connected cookie (refused .notConnected none)
  let teamName := trim input.teamName
  ensure (teamName ≠ [] ∧ teamName.length ≤ TEAM_NAME_MAX) (refused .invalidTeamName none)
  let submissionUrl ← expect (pf.parseSubmissionUrl input.submissionUrl)
    (refused .invalidSubmissionUrl none)
  let eventId ← expect (uuidOf eventId) (refused .eventNotFound none)
  let found : Option EventFields ← call (.findEvent eventId)
  let event ← expect found (refused .eventNotFound none)
  ensure (event.status = .live) (refused .notLive none)
  let submissionVerifiedAt ← submissionVerification pf event session.id submissionUrl
  -- the trustline is checked before any row of the team is written
  let hasTrustline ← awaiting (verifyAndRecordTrustline session.id session.address)
  ensure (hasTrustline = true)
    (refused .missingTrustline (some (env.USDC_SYMBOL ++ jsText ":" ++ env.USDC_ISSUER)))
  let existing : Option RowId ← call (.findTeamMember eventId session.id)
  ensure (existing = none) (refused .alreadyRegistered none)
  awaiting (createTeam ⟨eventId, teamName, submissionUrl, submissionVerifiedAt,
    ⟨eventId, session.id, 10000, 0⟩⟩)
  return .ok

/-! ## The start of the judging -/

/-- One conditional update. -/
def transitionEvent (eventId : RowId) (old new : EventStatus) : Part ν Unit := do
  orStop (assertEventTransition old new) .error
  let count : ℕ ← call (.updateEventStatus eventId old new)
  ensure (count ≠ 0) (.error
    ⟨"Event %s was not in status %s — concurrent transition or stale read",
      [.text eventId, .text old.text]⟩)

def startJudging (message : Failure → JsString) (cookie : Option String) (eventId : String) :
    Handler ν ActionResult := do
  let session ← connected cookie (refused .notConnected none)
  let eventId ← expect (uuidOf eventId) (refused .eventNotFound none)
  let found : Option EventFields ← call (.findEvent eventId)
  let event ← expect found (refused .eventNotFound none)
  ensure (event.organizerWalletId = session.id) (refused .notOrganizer none)
  ensure (event.status = .live) (refused .notLive none)
  let moved ← attempt (transitionEvent eventId .live .judging)
  match moved with
  | .ok _ => return .ok
  | .error err => return .refused .transition (some (message err))

/-! ## The link to GitHub -/

/-- A text that is there and not empty. -/
def nonempty (text : Option JsString) : Option JsString := text.filter (· ≠ [])

/-- `GET /api/auth/github/start`. -/
def githubStart (srv : Server ν) (env : Env) (cookie : Option String)
    (returnTo : Option JsString) : Handler ν Reply := do
  let session ← connected cookie (redirected (jsText "/") [("error", jsText "not_connected")])
  ensure (nonempty env.GITHUB_CLIENT_ID ≠ none ∧ nonempty srv.GITHUB_CLIENT_SECRET ≠ none)
    (redirected (jsText "/") [("error", jsText "github_not_configured")])
  let nonce ← call .randomUUID
  let now ← call .now
  let payload : OAuthStatePayload ν := ⟨ofString session.id, nonce, now, nonempty returnTo⟩
  call (.sendState payload)
  return .authorize (srv.signOAuthState payload)

/-- The path of the site that a state names, `/` when it names none. -/
def targetPath (statePayload : Option (Value ν)) : JsString :=
  match statePayload.map fun v => property v returnToKey with
  | some (.ok (some (.str returnTo))) =>
      if (jsText "/").isPrefixOf returnTo ∧ ¬ (jsText "//").isPrefixOf returnTo then returnTo
      else jsText "/"
  -- the server signs a text or nothing
  | _ => jsText "/"

/-- `verifyOAuthState` at the time of the call. -/
def verifyState (srv : Server ν) (state : JsString) (walletId : RowId) :
    Handler ν (Option (Value ν)) := do
  let now ← call .now
  orStop (srv.verifyOAuthState now state (some (ofString walletId))) fun _ => .error .rangeError

/-- The `try` block of the callback. -/
def linkAccount (srv : Server ν) (walletId : RowId) (code : JsString) : Part ν Unit := do
  let token ← awaited (← call (.exchangeCodeForToken code))
  let githubUser ← awaited (← call (.getGitHubUser token))
  awaited (← call (.replaceLinkedAccount ⟨walletId, srv.text githubUser.id, githubUser.login,
    githubUser.avatar_url, githubUser.html_url⟩))

/-- The parameters of a callback, besides the state. -/
structure CallbackParams where
  code : Option JsString
  error : Option JsString
  errorDescription : Option JsString
  deriving DecidableEq

/-- `GET /api/auth/github/callback`. -/
def githubCallback (srv : Server ν) (message : Failure → JsString) (cookie : Option String)
    (params : CallbackParams) : Handler ν Reply := do
  let session ← connected cookie (redirected (jsText "/") [("error", jsText "not_connected")])
  let state : Option JsString ← call .readState
  let cookieState : Option JsString ← call .readStateCookie
  let invalid := redirected (jsText "/") [("error", jsText "invalid_oauth_state")]
  match nonempty params.error with
  | some ghError =>
      let statePayload ←
        if nonempty state ≠ none ∧ state = cookieState then
          verifyState srv (state.getD []) session.id
        else pure none
      let detail := (nonempty params.errorDescription).toList.map fun desc => (jsText "detail", desc)
      return .redirect (targetPath statePayload) ((jsText "error",
        if ghError = jsText "access_denied" then jsText "github_cancelled"
        else jsText "github_error") :: detail)
  | none =>
      let code ← expect (nonempty params.code) invalid
      let sent ← expect (nonempty state) invalid
      ensure (state = cookieState) invalid
      let verified ← verifyState srv sent session.id
      let statePayload ← expect verified invalid
      let linked ← attempt (linkAccount srv session.id code)
      match linked with
      | .ok _ =>
          return .redirect (targetPath (some statePayload)) [(jsText "github", jsText "linked")]
      | .error err =>
          return .redirect (targetPath (some statePayload))
            [(jsText "error", jsText "github_link_failed"), (jsText "detail", message err)]

/-! ## Requests -/

inductive Action where
  | registerTeam (eventId : String) (input : RegisterTeamInput)
  | startJudging (eventId : String)
  | githubStart (returnTo : Option JsString)
  | githubCallback (params : CallbackParams)
  deriving DecidableEq

/-- A request, with the session cookie it carries. -/
structure Request where
  cookie : Option String
  action : Action
  deriving DecidableEq

/-- What the server functions are given by their deployment and their platform. -/
structure Deployment (ν : Type) where
  server : Server ν
  platform : Platform
  env : Env
  /-- `err.message`. -/
  message : Failure → JsString

def handle (d : Deployment ν) (r : Request) : Handler ν Reply :=
  match r.action with
  | .registerTeam eventId input => .action <$> registerTeam d.platform d.env r.cookie eventId input
  | .startJudging eventId => .action <$> startJudging d.message r.cookie eventId
  | .githubStart returnTo => githubStart d.server d.env r.cookie returnTo
  | .githubCallback params => githubCallback d.server d.message r.cookie params

/-- The program of a request. -/
def serve (d : Deployment ν) (r : Request) : Prog (Op ν) Op.Res Outcome :=
  answer (.ok <$> handle d r)

end EventPage
