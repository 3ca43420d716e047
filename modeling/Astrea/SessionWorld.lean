/-
# The database, the browsers and what they know

The world the server functions run in.  Calls of the database are atomic; the clock answers
any time; random ids never repeat, and the id of a new wallet is none that a client has sent
before.  A client sends whatever cookie it likes, but the id of a wallet only if it knows it:
from a cookie that was set, from a page it was shown, or from a client that handed it on.
-/
import Astrea.WalletSession

open Interleave

namespace WalletSession

/-! ## The world -/

/-- A row of `events`, under its id. -/
structure EventRow extends EventInfo where
  organizerWalletId : String
  deriving DecidableEq

structure PrizeRow extends PublicPrizeView where
  eventId : String
  deriving DecidableEq

structure JudgeRow extends PublicJudgeView where
  eventId : String
  deriving DecidableEq

structure TeamRow extends TeamInfo where
  eventId : String
  deriving DecidableEq

structure TeamMemberRow where
  teamId : String
  walletId : String
  ordinal : ℤ
  shareBasisPoints : ℤ
  deriving DecidableEq

/-- The tables that other parts of the application write. -/
structure EventTables where
  events : KeyTable String EventRow
  prizes : List PrizeRow
  judges : List JudgeRow
  /-- The oldest first. -/
  teams : List TeamRow
  teamMembers : List TeamMemberRow

/-- The tables, the ids drawn so far, the cookies sent so far, the wallet ids each client
knows, and who handed one to whom. -/
structure Site extends EventTables where
  authNonces : KeyTable String NonceRow
  wallets : KeyTable String WalletRow
  uuids : List String
  presented : List String
  knows : List (Client × String)
  handed : List (Client × Client × String)

/-- Everything is empty. -/
def launched : Site where
  events := ∅
  prizes := []
  judges := []
  teams := []
  teamMembers := []
  authNonces := ∅
  wallets := ∅
  uuids := []
  presented := []
  knows := []
  handed := []

namespace Site

variable (s : Site)

/-- A wallet as a view shows it. -/
def walletView (id : String) : Option PublicWalletView :=
  (s.wallets.lookup id).map fun w => ⟨id, w.address⟩

/-- The members of a team, ordered by ordinal. -/
def memberViews (teamId : String) : List PublicTeamMemberView :=
  ((s.teamMembers.filter (·.teamId = teamId)).insertionSort fun m m' =>
    m.ordinal ≤ m'.ordinal).filterMap fun m =>
      (s.walletView m.walletId).map fun w => ⟨m.walletId, m.ordinal, m.shareBasisPoints, w⟩

/-- The query of `PUBLIC_EVENT_SELECT`. -/
def publicEventView (id : String) : Option PublicEventView :=
  match s.events.lookup id with
  | none => none
  | some event =>
      (s.walletView event.organizerWalletId).map fun organizer =>
        { event.toEventInfo with
          id := id
          organizerWalletId := event.organizerWalletId
          organizerWallet := organizer
          prizes := ((s.prizes.filter (·.eventId = id)).insertionSort fun p p' =>
            p.rank ≤ p'.rank).map (·.toPublicPrizeView)
          judges := (s.judges.filter fun j => j.eventId = id ∧ j.status = "ACTIVE").map
            (·.toPublicJudgeView)
          teams := (s.teams.filter (·.eventId = id)).map fun t =>
            { t.toTeamInfo with members := s.memberViews t.id } }

/-- The wallet of an address: the column is unique. -/
def walletByAddress (address : String) : Option Wallet :=
  (s.wallets.entries.find? fun e => e.2.address = address).map fun e => ⟨e.2, e.1⟩

/-- The client may send this cookie: it is no wallet's id, or an id it knows. -/
def MaySend (client : Client) (cookie : Option String) : Prop :=
  ∀ id ∈ cookie, (s.wallets.lookup id).isSome → (client, id) ∈ s.knows

instance (client : Client) (cookie : Option String) : Decidable (s.MaySend client cookie) :=
  inferInstanceAs (Decidable (∀ id ∈ cookie, _))

end Site

/-! ## Calls -/

/-- The choices an answer leaves open. -/
inductive Choice where
  | ok
  | clock (t : Time)
  | uuid (id : String)
  | cookie (value : Option String)

/-- Draw an id that has not been drawn. -/
def Site.draw (s : Site) : Choice → Option (String × Site)
  | .uuid id => if id ∈ s.uuids then none else some (id, { s with uuids := id :: s.uuids })
  | _ => none

/-- Insert a wallet under a new id, which nobody can have guessed. -/
def Site.createWallet (s : Site) (address userId : String) (email : Option String)
    (choice : Choice) : Option (Except Failure Wallet × Site) :=
  if (s.walletByAddress address).isSome then some (.error .uniqueViolation, s)
  else
    match s.draw choice with
    | none => none
    | some (id, s') =>
        if id ∈ s.presented then none
        else
          let row : WalletRow := ⟨userId, address, email⟩
          some (.ok ⟨row, id⟩, { s' with wallets := s.wallets.insert id row })

/-- Answer a call. -/
def Site.perform (s : Site) (op : Op) (choice : Choice) : Option (op.Res × Site) :=
  match op with
  | .now =>
      match choice with
      | .clock t => some (t, s)
      | _ => none
  | .randomUUID => s.draw choice
  | .authNonceDeleteMany t =>
      some ((), { s with authNonces := s.authNonces.filter fun _ row => t < row.expiresAt })
  | .authNonceCreate nonce row =>
      if (s.authNonces.lookup nonce).isSome then some (.error .uniqueViolation, s)
      else some (.ok (), { s with authNonces := s.authNonces.insert nonce row })
  | .authNonceFindUnique nonce => some (s.authNonces.lookup nonce, s)
  | .authNonceDelete nonce =>
      if (s.authNonces.lookup nonce).isSome then
        some (.ok (), { s with authNonces := s.authNonces.erase nonce })
      else some (.error .recordNotFound, s)
  | .walletFindByAddress address => some (s.walletByAddress address, s)
  | .walletFindById id => some ((s.wallets.lookup id).map fun row => ⟨row, id⟩, s)
  | .userCreate => s.draw choice
  | .walletCreate address userId email => s.createWallet address userId email choice
  | .walletUpdateEmail id email =>
      match s.wallets.lookup id with
      | none => some (.error .recordNotFound, s)
      | some row =>
          let row := { row with email := email }
          some (.ok ⟨row, id⟩, { s with wallets := s.wallets.insert id row })
  | .eventFindUnique id => some (s.publicEventView id, s)
  | .getCookie client =>
      match choice with
      | .cookie value =>
          if s.MaySend client value then
            some (value, { s with presented := value.toList ++ s.presented })
          else none
      | _ => none
  | .setCookie client value => some ((), { s with knows := (client, value) :: s.knows })
  | .render client view =>
      let ids := (view.map (·.walletIds)).getD []
      some ((), { s with knows := ids.map (client, ·) ++ s.knows })

/-! ## The environment -/

/-- What happens besides the calls: a client hands a wallet id it knows to another, and other
parts of the application write the events and teams. -/
inductive EnvEvent where
  | hand (giver receiver : Client) (id : String)
  | write (tables : EventTables)

/-- Every wallet the tables refer to exists. -/
def Site.References (s : Site) (tables : EventTables) : Prop :=
  (∀ e ∈ tables.events.entries, (s.wallets.lookup e.2.organizerWalletId).isSome) ∧
    ∀ m ∈ tables.teamMembers, (s.wallets.lookup m.walletId).isSome

instance (s : Site) (tables : EventTables) : Decidable (s.References tables) :=
  inferInstanceAs (Decidable (_ ∧ _))

def Site.environment (s : Site) : EnvEvent → Option Site
  | .hand giver receiver id =>
      if (giver, id) ∈ s.knows then
        some { s with
          knows := (receiver, id) :: s.knows
          handed := (giver, receiver, id) :: s.handed }
      else none
  | .write tables =>
      if s.References tables then some { s with toEventTables := tables } else none

/-! ## What calls and moves do -/

theorem Site.draw_eq_some {s s' : Site} {choice : Choice} {id : String}
    (h : s.draw choice = some (id, s')) :
    id ∉ s.uuids ∧ s' = { s with uuids := id :: s.uuids } := by
  unfold draw at h
  split at h
  · split at h
    · exact nomatch h
    · cases h
      exact ⟨‹_›, rfl⟩
  · exact nomatch h

theorem Site.walletByAddress_eq_some {s : Site} {address : String} {wallet : Wallet}
    (h : s.walletByAddress address = some wallet) :
    s.wallets.lookup wallet.id = some wallet.toWalletRow ∧ wallet.address = address := by
  obtain ⟨e, hfind, rfl⟩ := Option.map_eq_some_iff.mp h
  refine ⟨KeyTable.lookup_of_mem_entries (List.mem_of_find?_eq_some hfind), ?_⟩
  simpa using List.find?_some hfind

/-- What a call answers and what it makes of the world. -/
inductive Performed (s : Site) : (op : Op) → op.Res → Site → Prop
  | now {t : Time} : Performed s .now t s
  | drew {id : String} (fresh : id ∉ s.uuids) :
      Performed s .randomUUID id { s with uuids := id :: s.uuids }
  | pruned {t : Time} : Performed s (.authNonceDeleteMany t) ()
      { s with authNonces := s.authNonces.filter fun _ row => t < row.expiresAt }
  | nonceCreated {nonce : String} {row : NonceRow} :
      Performed s (.authNonceCreate nonce row) (.ok ())
        { s with authNonces := s.authNonces.insert nonce row }
  | nonceTaken {nonce : String} {row : NonceRow} :
      Performed s (.authNonceCreate nonce row) (.error .uniqueViolation) s
  | nonceFound {nonce : String} {r : Option NonceRow} (stored : r = s.authNonces.lookup nonce) :
      Performed s (.authNonceFindUnique nonce) r s
  | nonceDeleted {nonce : String} (there : (s.authNonces.lookup nonce).isSome) :
      Performed s (.authNonceDelete nonce) (.ok ())
        { s with authNonces := s.authNonces.erase nonce }
  | nonceMissing {nonce : String} (missing : s.authNonces.lookup nonce = none) :
      Performed s (.authNonceDelete nonce) (.error .recordNotFound) s
  | walletByAddress {address : String} {r : Option Wallet}
      (stored : ∀ wallet, r = some wallet →
        s.wallets.lookup wallet.id = some wallet.toWalletRow ∧ wallet.address = address) :
      Performed s (.walletFindByAddress address) r s
  | walletById {id : String} {r : Option Wallet}
      (stored : r = (s.wallets.lookup id).map fun row => ⟨row, id⟩) :
      Performed s (.walletFindById id) r s
  | userCreated {id : String} : Performed s .userCreate id { s with uuids := id :: s.uuids }
  | walletCreated {id address userId : String} {email : Option String} (fresh : id ∉ s.uuids)
      (unguessed : id ∉ s.presented) :
      Performed s (.walletCreate address userId email) (.ok ⟨⟨userId, address, email⟩, id⟩)
        { s with
          wallets := s.wallets.insert id ⟨userId, address, email⟩
          uuids := id :: s.uuids }
  | walletTaken {address userId : String} {email : Option String} :
      Performed s (.walletCreate address userId email) (.error .uniqueViolation) s
  | walletUpdated {id : String} {email : Option String} {row : WalletRow}
      (stored : s.wallets.lookup id = some row) :
      Performed s (.walletUpdateEmail id email) (.ok ⟨{ row with email := email }, id⟩)
        { s with wallets := s.wallets.insert id { row with email := email } }
  | walletMissing {id : String} {email : Option String} :
      Performed s (.walletUpdateEmail id email) (.error .recordNotFound) s
  | viewed {id : String} : Performed s (.eventFindUnique id) (s.publicEventView id) s
  | cookieSent {client : Client} {value : Option String} (sendable : s.MaySend client value) :
      Performed s (.getCookie client) value { s with presented := value.toList ++ s.presented }
  | cookieSet {client : Client} {value : String} :
      Performed s (.setCookie client value) () { s with knows := (client, value) :: s.knows }
  | rendered {client : Client} {view : Option PublicEventView} :
      Performed s (.render client view) ()
        { s with knows := ((view.map (·.walletIds)).getD []).map (client, ·) ++ s.knows }

theorem perform_eq_some {s s' : Site} {op : Op} {choice : Choice} {r : op.Res}
    (h : s.perform op choice = some (r, s')) : Performed s op r s' := by
  cases op with
  | now =>
      simp only [Site.perform] at h
      split at h
      · cases h
        exact .now
      · exact nomatch h
  | randomUUID =>
      obtain ⟨hfresh, rfl⟩ := Site.draw_eq_some h
      exact .drew hfresh
  | authNonceDeleteMany t =>
      cases h
      exact .pruned
  | authNonceCreate nonce row =>
      simp only [Site.perform] at h
      split at h
      · cases h
        exact .nonceTaken
      · cases h
        exact .nonceCreated
  | authNonceFindUnique nonce =>
      cases h
      exact .nonceFound rfl
  | authNonceDelete nonce =>
      simp only [Site.perform] at h
      split at h
      · cases h
        exact .nonceDeleted ‹_›
      · rename_i hnone
        cases h
        exact .nonceMissing (Option.not_isSome_iff_eq_none.mp hnone)
  | walletFindByAddress address =>
      cases h
      exact .walletByAddress fun _ hr => Site.walletByAddress_eq_some hr
  | walletFindById id =>
      cases h
      exact .walletById rfl
  | userCreate =>
      obtain ⟨-, rfl⟩ := Site.draw_eq_some h
      exact .userCreated
  | walletCreate address userId email =>
      simp only [Site.perform, Site.createWallet] at h
      split at h
      · cases h
        exact .walletTaken
      · split at h
        · exact nomatch h
        · rename_i id s₁ hdraw
          obtain ⟨hfresh, rfl⟩ := Site.draw_eq_some hdraw
          split at h
          · exact nomatch h
          · cases h
            exact .walletCreated hfresh ‹_›
  | walletUpdateEmail id email =>
      simp only [Site.perform] at h
      split at h
      · cases h
        exact .walletMissing
      · rename_i row hrow
        cases h
        exact .walletUpdated hrow
  | eventFindUnique id =>
      cases h
      exact .viewed
  | getCookie client =>
      simp only [Site.perform] at h
      split at h
      · split at h
        · cases h
          exact .cookieSent ‹_›
        · exact nomatch h
      · exact nomatch h
  | setCookie client value =>
      cases h
      exact .cookieSet
  | render client view =>
      cases h
      exact .rendered

/-- What a move of the environment makes of the world. -/
inductive Moved (s : Site) : EnvEvent → Site → Prop
  | handed {giver receiver : Client} {id : String} (known : (giver, id) ∈ s.knows) :
      Moved s (.hand giver receiver id) { s with
        knows := (receiver, id) :: s.knows
        handed := (giver, receiver, id) :: s.handed }
  | wrote {tables : EventTables} : Moved s (.write tables) { s with toEventTables := tables }

theorem environment_eq_some {s s' : Site} {event : EnvEvent}
    (h : s.environment event = some s') : Moved s event s' := by
  cases event with
  | hand giver receiver id =>
      simp only [Site.environment] at h
      split at h
      · cases h
        exact .handed ‹_›
      · exact nomatch h
  | write tables =>
      simp only [Site.environment] at h
      split at h
      · cases h
        exact .wrote
      · exact nomatch h

end WalletSession
