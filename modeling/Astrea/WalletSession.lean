/-
# Wallet sessions of the web application

The sign-in with a signed challenge.  A client asks for a nonce, its wallet signs a message
that names the nonce, and the client presents the signature; the response to a signature that
verifies sets the session cookie, which holds the id of the wallet.  Later requests are taken
to come from the wallet whose id their cookie holds.

The server functions are programs that call the database, the clock, the random source and
the cookies of the request; a failed `await` ends them.
-/
import Astrea.Guard
import Astrea.Interleave
import Astrea.KeyTable
import Mathlib.Data.List.Sort

open Interleave Interleave.Guarded

namespace WalletSession

/-- Milliseconds since the Unix epoch. -/
abbrev Time : Type := ℤ

/-- A browser, or any program that sends requests. -/
abbrev Client : Type := ℕ

/-! ## Texts and signatures -/

/-- What the sign-in takes from the Stellar SDK and the runtime's cryptography. -/
structure Platform where
  isValidEd25519PublicKey : String → Bool
  /-- `Keypair.fromPublicKey(address).verify(data, signature)`. -/
  verify : String → List UInt8 → List UInt8 → Bool
  sha256 : List UInt8 → List UInt8

/-- `STELLAR_ACCOUNT_ID`, which is `/^G[A-Z2-7]{55}$/`. -/
def stellarAccountId (address : String) : Bool :=
  match address.toList with
  | 'G' :: rest => rest.length == 55 &&
      rest.all fun c => ('A' ≤ c && c ≤ 'Z') || ('2' ≤ c && c ≤ '7')
  | _ => false

/-- The check every function makes of an address. -/
def Platform.validAddress (pf : Platform) (address : String) : Bool :=
  stellarAccountId address && pf.isValidEd25519PublicKey address

def authMessagePrefix : String := "Astrea Authentication"

/-- Five minutes. -/
def nonceTtlMs : Time := 5 * 60 * 1000

def formatAuthMessage (address nonce : String) : String :=
  authMessagePrefix ++ "\nAddress: " ++ address ++ "\nNonce: " ++ nonce

/-- `Buffer.from(text, "utf-8")`. -/
def utf8 (text : String) : List UInt8 := text.toUTF8.data.toList

def sep53Prefix : List UInt8 := utf8 "Stellar Signed Message:\n"

def Platform.sep53Digest (pf : Platform) (message : List UInt8) : List UInt8 :=
  pf.sha256 (sep53Prefix ++ message)

/-- The value of a hex digit. -/
def hexValue (c : Char) : Option ℕ :=
  if '0' ≤ c ∧ c ≤ '9' then some (c.toNat - '0'.toNat)
  else if 'a' ≤ c ∧ c ≤ 'f' then some (c.toNat - 'a'.toNat + 10)
  else if 'A' ≤ c ∧ c ≤ 'F' then some (c.toNat - 'A'.toNat + 10)
  else none

/-- `Buffer.from(text, "hex")` of a text of hex digits: two digits a byte. -/
def hexBytes : List Char → List UInt8
  | c :: c' :: rest =>
      match hexValue c, hexValue c' with
      | some hi, some lo => UInt8.ofNat (16 * hi + lo) :: hexBytes rest
      | _, _ => []
  | _ => []

/-- The value of a base64 digit, of either alphabet. -/
def base64Value (c : Char) : Option ℕ :=
  if 'A' ≤ c ∧ c ≤ 'Z' then some (c.toNat - 'A'.toNat)
  else if 'a' ≤ c ∧ c ≤ 'z' then some (c.toNat - 'a'.toNat + 26)
  else if '0' ≤ c ∧ c ≤ '9' then some (c.toNat - '0'.toNat + 52)
  else if c = '+' ∨ c = '-' then some 62
  else if c = '/' ∨ c = '_' then some 63
  else none

/-- Four digits make three bytes; what is left over makes as many as it fills. -/
def sextetBytes : List ℕ → List UInt8
  | a :: b :: c :: d :: rest =>
      UInt8.ofNat (4 * a + b / 16) :: UInt8.ofNat (b % 16 * 16 + c / 4) ::
        UInt8.ofNat (c % 4 * 64 + d) :: sextetBytes rest
  | [a, b, c] => [UInt8.ofNat (4 * a + b / 16), UInt8.ofNat (b % 16 * 16 + c / 4)]
  | [a, b] => [UInt8.ofNat (4 * a + b / 16)]
  | _ => []

/-- `Buffer.from(text, "base64")`: the digits up to the padding, other characters skipped. -/
def base64Bytes (text : List Char) : List UInt8 :=
  sextetBytes ((text.takeWhile (· ≠ '=')).filterMap base64Value)

/-- The bytes of a signature: 128 hex digits, or base64. -/
def signatureBytes (signature : String) : List UInt8 :=
  let text := signature.toList
  if text.length == 128 && text.all (fun c => (hexValue c).isSome) then hexBytes text
  else base64Bytes text

/-- A signature verifies over the message as SEP-53 digests it, or over its raw bytes. -/
def Platform.verifyStellarSignature (pf : Platform) (address message signature : String) : Bool :=
  if pf.validAddress address = false then false
  else
    let sigBuffer := signatureBytes signature
    if sigBuffer.length ≠ 64 then false
    else
      let raw := utf8 message
      pf.verify address (pf.sep53Digest raw) sigBuffer || pf.verify address raw sigBuffer

/-! ## Failures and emails -/

/-- What a server function throws: an error with its text, or what the database client throws
when a row is not there or a unique column has the value already. -/
inductive Failure where
  | error (text : String)
  | recordNotFound
  | uniqueViolation
  deriving DecidableEq

/-- The white space of regular expressions and of `trim`. -/
def isSpace (c : Char) : Bool :=
  c.toNat ∈ [9, 10, 11, 12, 13, 32, 160, 5760, 8232, 8233, 8239, 8287, 12288, 65279] ||
    (8192 ≤ c.toNat && c.toNat ≤ 8202)

def trim (text : List Char) : List Char :=
  ((text.dropWhile isSpace).reverse.dropWhile isSpace).reverse

/-- `EMAIL_REGEX`, which is `/^[^\s@]+@[^\s@]+\.[^\s@]+$/`. -/
def emailPattern (text : List Char) : Bool :=
  let user := text.takeWhile (· ≠ '@')
  let domain := (text.dropWhile (· ≠ '@')).drop 1
  user ≠ [] && text.contains '@' && !domain.contains '@' && !text.any isSpace &&
    (domain.drop 1).dropLast.contains '.'

def validateOptionalEmail (email : Option String) : Except Failure (Option String) :=
  match email with
  | none => .ok none
  | some email =>
      let trimmed := trim email.toList
      if trimmed = [] then .ok none
      else if emailPattern trimmed = false then .error (.error "Invalid email address format")
      else .ok (some (String.ofList trimmed))

/-! ## Rows and views -/

/-- A row of `auth_nonces`, under its nonce. -/
structure NonceRow where
  address : String
  expiresAt : Time
  deriving DecidableEq

/-- A row of `wallets`, under its id. -/
structure WalletRow where
  userId : String
  address : String
  email : Option String
  deriving DecidableEq

/-- A wallet as a query returns it. -/
structure Wallet extends WalletRow where
  id : String
  deriving DecidableEq

structure PublicPrizeView where
  id : String
  rank : ℤ
  amount : String
  status : String
  winnerTeamId : Option String
  releaseTxHash : Option String
  releasedAt : Option Time
  deriving DecidableEq

structure PublicJudgeView where
  id : String
  walletAddress : String
  displayName : String
  status : String
  deriving DecidableEq

structure PublicWalletView where
  id : String
  address : String
  deriving DecidableEq

structure PublicTeamMemberView where
  walletId : String
  ordinal : ℤ
  shareBasisPoints : ℤ
  wallet : PublicWalletView
  deriving DecidableEq

structure TeamInfo where
  id : String
  name : String
  submissionUrl : String
  submissionVerifiedAt : Option Time
  deriving DecidableEq

structure PublicTeamView extends TeamInfo where
  members : List PublicTeamMemberView
  deriving DecidableEq

/-- The columns of an event that its view shows as they are. -/
structure EventInfo where
  name : String
  description : Option String
  logoUrl : Option String
  tagline : Option String
  location : Option String
  timezone : String
  registrationOpensAt : Option Time
  registrationClosesAt : Option Time
  startsAt : Option Time
  endsAt : Option Time
  judgingDeadlineAt : Option Time
  status : String
  requireGithub : Bool
  network : String
  escrowEventId : Option String
  deriving DecidableEq

/-- What visitors see of an event. -/
structure PublicEventView extends EventInfo where
  id : String
  organizerWalletId : String
  organizerWallet : PublicWalletView
  prizes : List PublicPrizeView
  judges : List PublicJudgeView
  teams : List PublicTeamView
  deriving DecidableEq

/-- The wallet ids a view shows. -/
def PublicEventView.walletIds (view : PublicEventView) : List String :=
  view.organizerWalletId :: view.organizerWallet.id ::
    view.teams.flatMap fun t => t.members.flatMap fun m => [m.walletId, m.wallet.id]

/-! ## Calls -/

/-- A call of a server function: to the database, the clock, the random source and the
cookies, and the page that is sent to the client. -/
inductive Op where
  | now
  | randomUUID
  | authNonceDeleteMany (expiresAtLte : Time)
  | authNonceCreate (nonce : String) (row : NonceRow)
  | authNonceFindUnique (nonce : String)
  | authNonceDelete (nonce : String)
  | walletFindByAddress (address : String)
  | walletFindById (id : String)
  | userCreate
  | walletCreate (address userId : String) (email : Option String)
  | walletUpdateEmail (id : String) (email : Option String)
  | eventFindUnique (id : String)
  | getCookie (client : Client)
  | setCookie (client : Client) (value : String)
  | render (client : Client) (view : Option PublicEventView)
  deriving DecidableEq

/-- What a call answers. -/
@[reducible] def Op.Res : Op → Type
  | .now => Time
  | .randomUUID => String
  | .authNonceDeleteMany _ => Unit
  | .authNonceCreate _ _ => Except Failure Unit
  | .authNonceFindUnique _ => Option NonceRow
  | .authNonceDelete _ => Except Failure Unit
  | .walletFindByAddress _ => Option Wallet
  | .walletFindById _ => Option Wallet
  | .userCreate => String
  | .walletCreate _ _ _ => Except Failure Wallet
  | .walletUpdateEmail _ _ => Except Failure Wallet
  | .eventFindUnique _ => Option PublicEventView
  | .getCookie _ => Option String
  | .setCookie _ _ => Unit
  | .render _ _ => Unit

instance : (op : Op) → DecidableEq op.Res
  | .now => inferInstanceAs (DecidableEq ℤ)
  | .randomUUID => inferInstanceAs (DecidableEq String)
  | .authNonceDeleteMany _ => inferInstanceAs (DecidableEq Unit)
  | .authNonceCreate _ _ => Guard.decidableEqExcept
  | .authNonceFindUnique _ => inferInstanceAs (DecidableEq (Option NonceRow))
  | .authNonceDelete _ => Guard.decidableEqExcept
  | .walletFindByAddress _ => inferInstanceAs (DecidableEq (Option Wallet))
  | .walletFindById _ => inferInstanceAs (DecidableEq (Option Wallet))
  | .userCreate => inferInstanceAs (DecidableEq String)
  | .walletCreate _ _ _ => Guard.decidableEqExcept
  | .walletUpdateEmail _ _ => Guard.decidableEqExcept
  | .eventFindUnique _ => inferInstanceAs (DecidableEq (Option PublicEventView))
  | .getCookie _ => inferInstanceAs (DecidableEq (Option String))
  | .setCookie _ _ => inferInstanceAs (DecidableEq Unit)
  | .render _ _ => inferInstanceAs (DecidableEq Unit)

/-- A call with its result. -/
abbrev Done : Type := Interleave.Done Op Op.Res

/-- What the calls of all requests have done so far. -/
abbrev Log : Type := Interleave.Log Op Op.Res

/-- The program of a server function, or of a part of one. -/
abbrev Handler (α : Type) : Type := Guarded Op Op.Res Failure α

def call (op : Op) : Handler op.Res := perform op

/-- The value of a call that may throw. -/
def awaited {α : Type} (r : Except Failure α) : Handler α := orStop r id

/-! ## Nonces -/

structure IssuedNonce where
  nonce : String
  message : String
  expiresAt : Time
  deriving DecidableEq

def issueAuthNonce (pf : Platform) (address : String) : Handler IssuedNonce := do
  ensure (pf.validAddress address = true) (.error "Invalid Stellar address")
  let now ← call .now
  call (.authNonceDeleteMany now)
  let nonce ← call .randomUUID
  let expiresAt := now + nonceTtlMs
  awaited (← call (.authNonceCreate nonce ⟨address, expiresAt⟩))
  return ⟨nonce, formatAuthMessage address nonce, expiresAt⟩

def consumeAuthNonce (nonce address : String) : Handler Bool := do
  let entry : Option NonceRow ← call (.authNonceFindUnique nonce)
  match entry with
  | none => return false
  | some entry =>
      -- deleted before anything is checked, and gone also when a check fails
      awaited (← call (.authNonceDelete nonce))
      if entry.address ≠ address then return false
      else
        let now ← call .now
        return !decide (entry.expiresAt ≤ now)

/-! ## Sessions -/

structure AssociateInput where
  address : String
  signature : String
  nonce : String
  /-- Absent, `null` or a text. -/
  email : Option (Option String)
  deriving DecidableEq

structure Session where
  userId : String
  walletId : String
  address : String
  email : Option String
  deriving DecidableEq

/-- The wallet of an address, created at its first sign-in. -/
def walletOf (input : AssociateInput) (cleanEmail : Option String) : Handler Wallet := do
  let found : Option Wallet ← call (.walletFindByAddress input.address)
  match found with
  | none =>
      let userId : String ← call .userCreate
      awaited (← call (.walletCreate input.address userId cleanEmail))
  | some wallet =>
      if input.email = none then return wallet
      else awaited (← call (.walletUpdateEmail wallet.id cleanEmail))

def associateVerifiedWallet (pf : Platform) (client : Client) (input : AssociateInput) :
    Handler Session := do
  ensure (pf.validAddress input.address = true) (.error "Invalid Stellar address")
  let cleanEmail ← awaited (validateOptionalEmail input.email.join)
  let nonceValid ← consumeAuthNonce input.nonce input.address
  ensure (nonceValid = true) (.error "Invalid or expired authentication nonce")
  let message := formatAuthMessage input.address input.nonce
  ensure (pf.verifyStellarSignature input.address message input.signature = true)
    (.error "Invalid cryptographic signature for address")
  let wallet ← walletOf input cleanEmail
  call (.setCookie client wallet.id)
  return ⟨wallet.userId, wallet.id, wallet.address, wallet.email⟩

/-- The wallet whose id the cookie holds. -/
def getSessionWallet (client : Client) : Handler (Option Wallet) := do
  let walletId : Option String ← call (.getCookie client)
  match walletId with
  | none => return none
  | some id => if id = "" then return none else call (.walletFindById id)

def updateWalletEmail (client : Client) (email : Option String) : Handler (Option String) := do
  let session ← getSessionWallet client
  let wallet ← expect session (.error "Not authenticated")
  let cleanEmail ← awaited (validateOptionalEmail email)
  let updated : Wallet ← awaited (← call (.walletUpdateEmail wallet.id cleanEmail))
  return updated.email

/-- The page of an event, shown to anyone. -/
def loadPublicEventView (client : Client) (id : String) : Handler (Option PublicEventView) := do
  let view : Option PublicEventView ← call (.eventFindUnique id)
  call (.render client view)
  return view

/-! ## Requests -/

inductive Action where
  | getAuthNonce (address : String)
  | associateVerifiedWallet (input : AssociateInput)
  | getSessionWallet
  | updateWalletEmail (email : Option String)
  | loadPublicEventView (id : String)
  deriving DecidableEq

structure Request where
  client : Client
  action : Action
  deriving DecidableEq

inductive Reply where
  | nonce (issued : IssuedNonce)
  | associated (session : Session)
  | wallet (wallet : Option Wallet)
  | emailUpdated (email : Option String)
  | view (view : Option PublicEventView)
  deriving DecidableEq

def handle (pf : Platform) (r : Request) : Handler Reply :=
  match r.action with
  | .getAuthNonce address => return .nonce (← issueAuthNonce pf address)
  | .associateVerifiedWallet input =>
      return .associated (← associateVerifiedWallet pf r.client input)
  | .getSessionWallet => return .wallet (← getSessionWallet r.client)
  | .updateWalletEmail email => return .emailUpdated (← updateWalletEmail r.client email)
  | .loadPublicEventView id => return .view (← loadPublicEventView r.client id)

/-- The program of a request; its answer is a reply or what it threw. -/
def serve (pf : Platform) (r : Request) : Prog Op Op.Res (Except Failure Reply) :=
  (handle pf r).run

end WalletSession
