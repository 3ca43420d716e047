/-
# The database behind the page

The world the page's functions run in.  Calls of the database are atomic, except that the
transaction of a registration inserts its rows in one call and commits in another: the trigger
that keeps judged teams as they are looks at the event when the member row is inserted, and the
event may change before the rows are committed.  Random ids never repeat, a browser brings no
signed state that the server has not issued, and the service and other parts of the application
move the other statuses.
-/
import Astrea.EventPage
import Astrea.OAuthVerify

open Interleave Utf16
open Service (Address Message RowId EventStatus JsString jsText uuidPattern canTransitionEvent PastLive)
open GithubOAuth (Server OAuthStatePayload Unforged)
open TeamTables (Tables Statement)

namespace EventPage

variable {ν : Type}

/-! ## The world -/

/-- The columns of an event that do not change. -/
structure EventInfo where
  organizerWalletId : RowId
  requireGithub : Bool
  deriving DecidableEq

/-- The columns of a team that no constraint is about. -/
structure TeamInfo (ν : Type) where
  name : JsString
  submissionUrl : JsString
  submissionVerifiedAt : Option ν

/-- The rows of a team whose transaction is open. -/
structure Inserted (ν : Type) where
  teamId : RowId
  memberId : RowId
  team : TeamData ν

/-- The tables, the rows of open transactions with the oldest first, the states that were issued
and the ids that were drawn. -/
structure Site (ν : Type) where
  db : Tables
  events : KeyTable RowId EventInfo
  teamInfos : KeyTable RowId (TeamInfo ν)
  linkedAccounts : List LinkedAccount
  trustlineVerifiedAt : KeyTable RowId ν
  inserted : List (Inserted ν)
  issued : List (OAuthStatePayload ν)
  uuids : List RowId

/-- Everything is empty. -/
def launched : Site ν where
  db := ⟨∅, ∅, [], [], ∅, ∅⟩
  events := ∅
  teamInfos := ∅
  linkedAccounts := []
  trustlineVerifiedAt := ∅
  inserted := []
  issued := []
  uuids := []

namespace Inserted

variable (i : Inserted ν)

def teamRow : TeamTables.TeamRow := ⟨i.team.eventId⟩

def memberRow : TeamTables.TeamMemberRow :=
  ⟨i.teamId, i.team.member.eventId, i.team.member.walletId, i.team.member.shareBasisPoints,
    i.team.member.ordinal⟩

def info : TeamInfo ν := ⟨i.team.name, i.team.submissionUrl, i.team.submissionVerifiedAt⟩

/-- The statements of the nested create. -/
def statements : List Statement :=
  [.teams [(none, some (i.teamId, i.teamRow))],
    .teamMembers [(none, some (i.memberId, i.memberRow))]]

/-- The value of the unique index on events and wallets. -/
def key : RowId × RowId := (i.team.member.eventId, i.team.member.walletId)

/-- The tables with the rows. -/
def commit (db : Tables) : Tables :=
  { db with
    teams := db.teams.insert i.teamId i.teamRow
    teamMembers := db.teamMembers.insert i.memberId i.memberRow }

end Inserted

namespace Site

variable (s : Site ν)

def eventFields (id : RowId) : Option EventFields :=
  match s.db.events.lookup id, s.events.lookup id with
  | some status, some info => some ⟨status, info.organizerWalletId, info.requireGithub⟩
  | _, _ => none

/-- The member row of a wallet in an event. -/
def memberOf (eventId walletId : RowId) : Option RowId :=
  (s.db.teamMembers.entries.find? fun e => e.2.eventId = eventId ∧ e.2.walletId = walletId).map
    (·.1)

end Site

/-- The browser may bring this state: where it carries a signature of the server, that of a
payload the server issued. -/
def Site.mayBring (srv : Server ν) (s : Site ν) (state : JsString) : Bool :=
  let encoded := state.take (state.length - 44)
  state ≠ encoded ++ 46 :: srv.signature encoded ||
    s.issued.any fun payload => utf8 encoded = utf8 (srv.encodedPayload payload)

/-! ## Calls -/

/-- The choices an answer leaves open. -/
inductive Choice (ν : Type) where
  | ok
  | clock (t : ν)
  | text (s : JsString)
  | rows (teamId memberId : RowId)
  | state (value : Option JsString)
  | trustline (r : Except Failure Bool)
  | token (r : Except Failure JsString)
  | user (r : Except Failure (GitHubUser ν))
  /-- The transaction is rolled back. -/
  | lost (f : Failure)
  /-- It is committed, but the answer is lost. -/
  | unheard (f : Failure)

/-- Insert the rows of a team under new ids, when the statements are accepted. -/
def Site.insertTeam (s : Site ν) (team : TeamData ν) (teamId memberId : RowId) :
    Option (Except Failure RowId × Site ν) :=
  if teamId ∈ s.uuids ∨ memberId ∈ s.uuids then none
  else
    let i : Inserted ν := ⟨teamId, memberId, team⟩
    let s := { s with uuids := teamId :: memberId :: s.uuids }
    match s.db.execAll i.statements with
    | .error e => some (.error (.database e), s)
    | .ok _ => some (.ok teamId, { s with inserted := s.inserted ++ [i] })

/-- The transaction is closed. -/
def Site.close (s : Site ν) (i : Inserted ν) : Site ν :=
  { s with inserted := s.inserted.filter fun j => j.teamId ≠ i.teamId }

/-- Commit the rows of a team.  An older open transaction with the same event and wallet comes
first; one that has been committed leaves no place. -/
def Site.commitTeam (s : Site ν) (i : Inserted ν) (choice : Choice ν) :
    Option (Except Failure Unit × Site ν) :=
  if (s.inserted.takeWhile fun j => j.teamId ≠ i.teamId).any (fun j => j.key = i.key) then none
  else if (s.memberOf i.team.member.eventId i.team.member.walletId).isSome then
    some (.error (.database (.violated "team_members_eventId_walletId_key")), s.close i)
  else
    let committed := i.commit s.db
    match committed.validateAll [i.teamId, i.teamId] with
    | .error e => some (.error (.database e), s.close i)
    | .ok _ =>
        let s' := { s.close i with db := committed, teamInfos := s.teamInfos.insert i.teamId i.info }
        match choice with
        | .ok => some (.ok (), s')
        | .unheard f => some (.error f, s')
        | .lost f => some (.error f, s.close i)
        | _ => none

/-- Answer a call. -/
def Site.perform (srv : Server ν) (s : Site ν) (op : Op ν) (choice : Choice ν) :
    Option (op.Res × Site ν) :=
  match op with
  | .now =>
      match choice with
      | .clock t => some (t, s)
      | _ => none
  | .randomUUID =>
      match choice with
      | .text id => some (id, s)
      | _ => none
  | .findWallet id =>
      if uuidPattern id then
        some (.ok ((s.db.wallets.lookup id.toLower).map fun address => ⟨id.toLower, address⟩), s)
      else some (.error .invalidUuid, s)
  | .findEvent id => some (s.eventFields id, s)
  | .findLinkedAccount walletId =>
      some (s.linkedAccounts.find? fun a => a.walletId = walletId, s)
  | .hasUsdcTrustline _ =>
      match choice with
      | .trustline r => some (r, s)
      | _ => none
  | .setTrustlineVerifiedAt walletId t =>
      if (s.db.wallets.lookup walletId).isSome then
        some (.ok (), { s with trustlineVerifiedAt := s.trustlineVerifiedAt.insert walletId t })
      else some (.error .recordNotFound, s)
  | .findTeamMember eventId walletId => some (s.memberOf eventId walletId, s)
  | .insertTeam team =>
      match choice with
      | .rows teamId memberId => s.insertTeam team teamId memberId
      | _ => none
  | .commitTeam teamId =>
      match s.inserted.find? fun i => i.teamId = teamId with
      | some i => s.commitTeam i choice
      | none => none
  | .updateEventStatus id old new =>
      if s.db.events.lookup id = some old then
        some (1, { s with db := { s.db with events := s.db.events.insert id new } })
      else some (0, s)
  | .sendState payload => some ((), { s with issued := payload :: s.issued })
  | .readState =>
      match choice with
      | .state value => if value.all (s.mayBring srv) then some (value, s) else none
      | _ => none
  | .readStateCookie =>
      match choice with
      | .state value => some (value, s)
      | _ => none
  | .exchangeCodeForToken _ =>
      match choice with
      | .token r => some (r, s)
      | _ => none
  | .getGitHubUser _ =>
      match choice with
      | .user r => some (r, s)
      | _ => none
  | .replaceLinkedAccount account =>
      match choice with
      | .ok => some (.ok (), { s with
          linkedAccounts := account :: s.linkedAccounts.filter fun a =>
            a.walletId ≠ account.walletId ∧ a.providerId ≠ account.providerId })
      | .lost f => some (.error f, s)
      | _ => none

/-! ## The environment -/

/-- What happens besides the calls: a wallet signs in for the first time, an event is drafted, the
status of an event changes otherwise than by the start of its judging, and prizes and payouts
come to refer to teams and members. -/
inductive EnvEvent where
  | wallet (id : RowId) (address : Address)
  | draft (id : RowId) (info : EventInfo)
  | status (id : RowId) (new : EventStatus)
  | refer (winnerTeamIds teamMemberIds : List RowId)

/-- A status change that others make: an edge of the state machine but the one from `LIVE` to
`JUDGING`, or what the record of a release makes of a judged event. -/
def OtherChange (old new : EventStatus) : Prop :=
  canTransitionEvent old new = true ∧ (old, new) ≠ (.live, .judging) ∨
    PastLive old ∧ new = .completed

instance (old new : EventStatus) : Decidable (OtherChange old new) :=
  inferInstanceAs (Decidable (_ ∨ _))

def Site.environment (s : Site ν) : EnvEvent → Option (Site ν)
  | .wallet id address =>
      if (s.db.wallets.lookup id).isSome then none
      else some { s with db := { s.db with wallets := s.db.wallets.insert id address } }
  | .draft id info =>
      if (s.db.events.lookup id).isSome ∨ (s.events.lookup id).isSome then none
      else some { s with
        db := { s.db with events := s.db.events.insert id .draft }
        events := s.events.insert id info }
  | .status id new =>
      match s.db.events.lookup id with
      | none => none
      | some old =>
          if OtherChange old new then
            some { s with db := { s.db with events := s.db.events.insert id new } }
          else none
  | .refer winnerTeamIds teamMemberIds =>
      if (∀ id ∈ winnerTeamIds, (s.db.teams.lookup id).isSome) ∧
          ∀ id ∈ teamMemberIds, (s.db.teamMembers.lookup id).isSome then
        some { s with db := { s.db with
          winnerTeamIds := winnerTeamIds, teamMemberIds := teamMemberIds } }
      else none

/-! ## What calls and moves do -/

/-- What a call answers and what it makes of the world. -/
inductive Performed (srv : Server ν) (s : Site ν) : (op : Op ν) → op.Res → Site ν → Prop
  | now {t : ν} : Performed srv s .now t s
  | drewNonce {id : JsString} : Performed srv s .randomUUID id s
  | walletFound {id : String} {r : Except Failure (Option SessionWallet)}
      (stored : ∀ w, r = .ok (some w) → s.db.wallets.lookup w.id = some w.address ∧
        uuidPattern id = true ∧ w.id = id.toLower) : Performed srv s (.findWallet id) r s
  | eventFound {id : RowId} {r : Option EventFields} (stored : r = s.eventFields id) :
      Performed srv s (.findEvent id) r s
  | accountFound {walletId : RowId} {r : Option LinkedAccount}
      (stored : ∀ a, r = some a → a ∈ s.linkedAccounts ∧ a.walletId = walletId) :
      Performed srv s (.findLinkedAccount walletId) r s
  | trustline {address : Address} {r : Except Failure Bool} :
      Performed srv s (.hasUsdcTrustline address) r s
  | trustlineSet {walletId : RowId} {t : ν} :
      Performed srv s (.setTrustlineVerifiedAt walletId t) (.ok ())
        { s with trustlineVerifiedAt := s.trustlineVerifiedAt.insert walletId t }
  | trustlineMissing {walletId : RowId} {t : ν} :
      Performed srv s (.setTrustlineVerifiedAt walletId t) (.error .recordNotFound) s
  | memberFound {eventId walletId : RowId} {r : Option RowId}
      (stored : r = s.memberOf eventId walletId) :
      Performed srv s (.findTeamMember eventId walletId) r s
  | insertRefused {team : TeamData ν} {f : Failure} {teamId memberId : RowId} :
      Performed srv s (.insertTeam team) (.error f)
        { s with uuids := teamId :: memberId :: s.uuids }
  | inserted {i : Inserted ν} {tables : Tables} {cs : List TeamTables.RowChange}
      (team : i.teamId ∉ s.uuids) (member : i.memberId ∉ s.uuids)
      (accepted : s.db.execAll i.statements = .ok (tables, cs)) :
      Performed srv s (.insertTeam i.team) (.ok i.teamId) { s with
        uuids := i.teamId :: i.memberId :: s.uuids, inserted := s.inserted ++ [i] }
  | closed {i : Inserted ν} {f : Failure} (there : i ∈ s.inserted) :
      Performed srv s (.commitTeam i.teamId) (.error f) (s.close i)
  | committed {i : Inserted ν} {r : Except Failure Unit} (there : i ∈ s.inserted)
      (free : s.memberOf i.team.member.eventId i.team.member.walletId = none) :
      Performed srv s (.commitTeam i.teamId) r { s.close i with
        db := i.commit s.db, teamInfos := s.teamInfos.insert i.teamId i.info }
  | moved {id : RowId} {old new : EventStatus} (status : s.db.events.lookup id = some old) :
      Performed srv s (.updateEventStatus id old new) (1 : ℕ)
        { s with db := { s.db with events := s.db.events.insert id new } }
  | stale {id : RowId} {old new : EventStatus} :
      Performed srv s (.updateEventStatus id old new) (0 : ℕ) s
  | stateSent {payload : OAuthStatePayload ν} :
      Performed srv s (.sendState payload) () { s with issued := payload :: s.issued }
  | stateRead {value : Option JsString} (brought : ∀ state ∈ value, s.mayBring srv state = true) :
      Performed srv s .readState value s
  | cookieRead {value : Option JsString} : Performed srv s .readStateCookie value s
  | tokenGiven {code : JsString} {r : Except Failure JsString} :
      Performed srv s (.exchangeCodeForToken code) r s
  | userTold {token : JsString} {r : Except Failure (GitHubUser ν)} :
      Performed srv s (.getGitHubUser token) r s
  | linked {account : LinkedAccount} :
      Performed srv s (.replaceLinkedAccount account) (.ok ()) { s with
        linkedAccounts := account :: s.linkedAccounts.filter fun a =>
          a.walletId ≠ account.walletId ∧ a.providerId ≠ account.providerId }
  | notLinked {account : LinkedAccount} {f : Failure} :
      Performed srv s (.replaceLinkedAccount account) (.error f) s

variable {srv : Server ν} {s s' : Site ν}

theorem insertTeam_eq_some {team : TeamData ν} {teamId memberId : RowId} {r : Except Failure RowId}
    (h : s.insertTeam team teamId memberId = some (r, s')) :
    Performed srv s (.insertTeam team) r s' := by
  unfold Site.insertTeam at h
  split at h
  · exact nomatch h
  · rename_i hfresh
    obtain ⟨hteam, hmember⟩ := not_or.mp hfresh
    simp only at h
    split at h
    · cases h
      exact .insertRefused
    · rename_i r hexec
      cases h
      exact .inserted (i := ⟨teamId, memberId, team⟩) hteam hmember hexec

theorem commitTeam_eq_some {i : Inserted ν} {choice : Choice ν} {r : Except Failure Unit}
    (hi : i ∈ s.inserted) (h : s.commitTeam i choice = some (r, s')) :
    Performed srv s (.commitTeam i.teamId) r s' := by
  unfold Site.commitTeam at h
  split at h
  · exact nomatch h
  · split at h
    · cases h
      exact .closed hi
    · rename_i hfree
      simp only at h
      split at h
      · cases h
        exact .closed hi
      · split at h
        · cases h
          exact .committed hi (Option.not_isSome_iff_eq_none.mp hfree)
        · cases h
          exact .committed hi (Option.not_isSome_iff_eq_none.mp hfree)
        · cases h
          exact .closed hi
        · exact nomatch h

theorem perform_eq_some {op : Op ν} {choice : Choice ν} {r : op.Res}
    (h : s.perform srv op choice = some (r, s')) : Performed srv s op r s' := by
  cases op with
  | now =>
      cases choice <;> cases h
      exact .now
  | randomUUID =>
      cases choice <;> cases h
      exact .drewNonce
  | findWallet id =>
      simp only [Site.perform] at h
      split at h
      · rename_i hid
        cases h
        refine .walletFound fun w hw => ?_
        obtain ⟨address, haddress, rfl⟩ := Option.map_eq_some_iff.mp (Except.ok.inj hw)
        exact ⟨haddress, hid, rfl⟩
      · cases h
        exact .walletFound fun w hw => nomatch hw
  | findEvent id =>
      cases h
      exact .eventFound rfl
  | findLinkedAccount walletId =>
      cases h
      refine .accountFound fun a ha => ⟨List.mem_of_find?_eq_some ha, ?_⟩
      simpa using List.find?_some ha
  | hasUsdcTrustline address =>
      cases choice <;> cases h
      exact .trustline
  | setTrustlineVerifiedAt walletId t =>
      simp only [Site.perform] at h
      split at h
      · cases h
        exact .trustlineSet
      · cases h
        exact .trustlineMissing
  | findTeamMember eventId walletId =>
      cases h
      exact .memberFound rfl
  | insertTeam team =>
      cases choice with
      | rows teamId memberId => exact insertTeam_eq_some h
      | _ => exact nomatch h
  | commitTeam teamId =>
      simp only [Site.perform] at h
      split at h
      · rename_i i hi
        obtain rfl : i.teamId = teamId := by simpa using List.find?_some hi
        exact commitTeam_eq_some (List.mem_of_find?_eq_some hi) h
      · exact nomatch h
  | updateEventStatus id old new =>
      simp only [Site.perform] at h
      split at h
      · cases h
        exact .moved ‹_›
      · cases h
        exact .stale
  | sendState payload =>
      cases h
      exact .stateSent
  | readState =>
      cases choice with
      | state value =>
          simp only [Site.perform] at h
          split at h
          · rename_i hall
            cases h
            refine .stateRead ?_
            rintro state rfl
            exact hall
          · exact nomatch h
      | _ => exact nomatch h
  | readStateCookie =>
      cases choice <;> cases h
      exact .cookieRead
  | exchangeCodeForToken code =>
      cases choice <;> cases h
      exact .tokenGiven
  | getGitHubUser token =>
      cases choice <;> cases h
      exact .userTold
  | replaceLinkedAccount account =>
      cases choice <;> cases h
      · exact .linked
      · exact .notLinked

/-- What a move of the environment makes of the world. -/
inductive Moved (s : Site ν) : EnvEvent → Site ν → Prop
  | wallet {id : RowId} {address : Address} (fresh : s.db.wallets.lookup id = none) :
      Moved s (.wallet id address)
        { s with db := { s.db with wallets := s.db.wallets.insert id address } }
  | draft {id : RowId} {info : EventInfo} (fresh : s.db.events.lookup id = none)
      (unknown : s.events.lookup id = none) : Moved s (.draft id info) { s with
        db := { s.db with events := s.db.events.insert id .draft }
        events := s.events.insert id info }
  | status {id : RowId} {old new : EventStatus} (status : s.db.events.lookup id = some old)
      (change : OtherChange old new) : Moved s (.status id new)
        { s with db := { s.db with events := s.db.events.insert id new } }
  | refer {winnerTeamIds teamMemberIds : List RowId} : Moved s (.refer winnerTeamIds teamMemberIds)
      { s with db := { s.db with winnerTeamIds := winnerTeamIds, teamMemberIds := teamMemberIds } }

theorem environment_eq_some {event : EnvEvent} (h : s.environment event = some s') :
    Moved s event s' := by
  cases event with
  | wallet id address =>
      simp only [Site.environment] at h
      split at h
      · exact nomatch h
      · cases h
        exact .wallet (Option.not_isSome_iff_eq_none.mp ‹_›)
  | draft id info =>
      simp only [Site.environment] at h
      split at h
      · exact nomatch h
      · rename_i hfresh
        obtain ⟨hevent, hinfo⟩ := not_or.mp hfresh
        cases h
        exact .draft (Option.not_isSome_iff_eq_none.mp hevent)
          (Option.not_isSome_iff_eq_none.mp hinfo)
  | status id new =>
      simp only [Site.environment] at h
      split at h
      · exact nomatch h
      · split at h
        · cases h
          exact .status ‹_› ‹_›
        · exact nomatch h
  | refer winnerTeamIds teamMemberIds =>
      simp only [Site.environment] at h
      split at h
      · cases h
        exact .refer
      · exact nomatch h

end EventPage
