/-
# Trustline checks

Before a release is built, every winner must be able to receive the prize: the account exists,
it has a trustline of the asset, the issuer has authorised it, and its limit leaves room for all
the wallet is paid.  `Verifier.require` is that guard over any source of accounts;
`horizonBalances` is the source the service uses, over what Horizon answers.
-/
import Astrea.Amount
import Astrea.Tally

open Guard Service

namespace Trustline

/-! ## What a check gives -/

/-- The outcome of classifying one wallet. -/
inductive Status where
  | unknown
  | ok
  | noAccount
  | noTrustline
  | notAuthorized
  | insufficientLimit
  deriving DecidableEq, Repr

def Status.hasTrustline (s : Status) : Bool := s = .ok

/-- The status as it stands in a `MissingError`. -/
def Status.string : Status → String
  | .ok => "ok"
  | .noAccount => "no_account"
  | .noTrustline => "no_trustline"
  | .notAuthorized => "not_authorized"
  | .insufficientLimit => "insufficient_limit"
  | .unknown => "unknown"

structure Asset where
  code : GoString
  issuer : GoString
  deriving DecidableEq

/-- The classification of one wallet in a batch. -/
structure Result where
  address : GoString
  status : Status
  deriving DecidableEq

/-- What an account source fails with: `ErrAccountNotFound`, or another error. -/
inductive LookupError where
  | accountNotFound
  | other (err : Message)
  deriving DecidableEq

/-- What a check fails with; `missing` is the `MissingError`. -/
inductive Error where
  | invalidAddress (address : GoString)
  | lookup (address : GoString) (err : Message)
  | missing (asset : Asset) (wallets : List Result)
  deriving DecidableEq

/-- `errors.Is(err, ErrNoTrustline)`. -/
def Error.isErrNoTrustline : Error → Bool
  | .missing _ _ => true
  | _ => false

/-- The names of the wallets that cannot receive the asset, as `strings.Join` puts them. -/
def joinResults : List Result → Message
  | [] => ⟨"", []⟩
  | [w] => ⟨"%s (%s)", [.str w.address, .text w.status.string]⟩
  | w :: w' :: wallets =>
      .wrap "%s (%s), " [.str w.address, .text w.status.string] (joinResults (w' :: wallets))

def Error.message : Error → Message
  | .invalidAddress address => ⟨"trustline: invalid stellar address: %q", [.str address]⟩
  | .lookup address err => .wrap "trustline: load account %s: " [.str address] err
  | .missing asset wallets =>
      .wrap "trustline: wallet cannot receive the prize asset: %s:%s: "
        [.str asset.code, .str asset.issuer] (joinResults wallets)

/-! ## The verifier -/

/-- A balance line of an account. -/
structure Balance where
  code : GoString
  issuer : GoString
  native : Bool
  authorized : Bool
  headroom : Int64
  deriving DecidableEq

structure Payout where
  address : GoString
  stroops : Int64
  deriving DecidableEq

/-- What the accounts hold.  A check asks for each account once, so what it is told is a
function of the address. -/
abbrev AccountSource : Type := GoString → Except LookupError (List Balance)

/-- A verifier has an asset with a code and an issuer. -/
structure Verifier where
  src : AccountSource
  asset : Asset
  code_ne : asset.code ≠ []
  issuer_ne : asset.issuer ≠ []

def newVerifier (src : AccountSource) (asset : Asset) : Except Message Verifier :=
  if h : asset.code ≠ [] ∧ asset.issuer ≠ [] then .ok ⟨src, asset, h.1, h.2⟩
  else .error ⟨"trustline: asset code and issuer are required", []⟩

/-- `G` and 55 more characters of base 32. -/
def validAddress (s : GoString) : Bool :=
  s.length = 56 && s.head? = some 71 &&
    s.tail.all fun c => (65 ≤ c && c ≤ 90) || (50 ≤ c && c ≤ 55)

namespace Verifier

variable (v : Verifier)

/-- The lines of the balances are looked through up to the first one of the asset. -/
def classify (need : Int64) : List Balance → Status
  | [] => .noTrustline
  | b :: balances =>
      if b.native ∨ b.code ≠ v.asset.code ∨ b.issuer ≠ v.asset.issuer then classify need balances
      else if b.authorized = false then .notAuthorized
      else if b.headroom < need then .insufficientLimit
      else .ok

/-- The source's `verify`: the wallet must be able to receive `need` stroops. -/
def verifyFor (address : GoString) (need : Int64) : Except Error Status :=
  if validAddress address = false then .error (.invalidAddress address)
  else
    match v.src address with
    | .error .accountNotFound => .ok .noAccount
    | .error (.other err) => .error (.lookup address err)
    | .ok balances => .ok (v.classify need balances)

/-- The source's `Verify`, when the amount is not known yet. -/
def verify (address : GoString) : Except Error Status := v.verifyFor address 1

/-- The wallets of some payouts in order of first appearance, and what each is to receive. -/
def needs (payouts : List Payout) : Tally GoString Int64 :=
  Tally.ofList (payouts.map fun p => (p.address, max p.stroops 1))

/-- The wallets of `order`, one after the other, up to the first error. -/
def verifyOrder (need : KeyTable GoString Int64) : List GoString → Except Error (List Result)
  | [] => .ok []
  | addr :: order => do
      let st ← v.verifyFor addr ((need.lookup addr).getD 0)
      let results ← verifyOrder need order
      return ⟨addr, st⟩ :: results

def verifyPayouts (payouts : List Payout) : Except Error (List Result) :=
  v.verifyOrder (needs payouts).totals (needs payouts).order

def verifyAll (addresses : List GoString) : Except Error (List Result) :=
  v.verifyPayouts (addresses.map fun a => ⟨a, 1⟩)

/-- The guard of a release. -/
def require (payouts : List Payout) : Except Error Unit := do
  let results ← v.verifyPayouts payouts
  let missing := results.filter fun r => !r.status.hasTrustline
  ensure (missing = []) (.missing v.asset missing)

end Verifier

/-! ## Horizon -/

/-- A balance line of Horizon's answer; a field that is `none` is absent.  Horizon's texts are
ASCII. -/
structure HorizonLine where
  assetType : GoString
  assetCode : Option GoString
  assetIssuer : Option GoString
  balance : Option GoString
  limit : Option GoString
  buyingLiabilities : Option GoString
  isAuthorized : Option Bool
  deriving DecidableEq

/-- What Horizon says of an account: its balance lines, a problem with its status, or another
error. -/
inductive HorizonAnswer where
  | account (balances : List HorizonLine)
  | problem (status : ℕ) (err : Message)
  | failed (err : Message)
  deriving DecidableEq

section Horizon

-- `amount.ParseInt64` of the SDK
variable (parseAmount : GoString → Except Message Int64)

/-- The amount of a field, zero when the field is empty. -/
def fieldStroops (s : GoString) : Except Message Int64 :=
  if s = [] then .ok 0
  else
    match parseAmount s with
    | .ok n => .ok n
    | .error err => .error (.wrap "parse amount %q: " [.str s] err)

/-- The subtractions wrap. -/
def trustlineHeadroom (limit balance buyingLiabilities : GoString) : Except Message Int64 := do
  let limit ← fieldStroops parseAmount limit
  let balance ← fieldStroops parseAmount balance
  let buyingLiabilities ← fieldStroops parseAmount buyingLiabilities
  return max (limit - balance - buyingLiabilities) 0

/-- An absent text decodes as the empty one. -/
def HorizonLine.toBalance (b : HorizonLine) : Except Message Balance :=
  let native : Bool := b.assetType = bytes "native"
  let code := b.assetCode.getD []
  let issuer := b.assetIssuer.getD []
  if native = false ∧ b.assetType ≠ bytes "liquidity_pool_shares" then
    match trustlineHeadroom parseAmount (b.limit.getD []) (b.balance.getD [])
        (b.buyingLiabilities.getD []) with
    | .ok headroom => .ok ⟨code, issuer, native, b.isAuthorized = some true, headroom⟩
    | .error err => .error (.wrap "horizon balance %s:%s: " [.str code, .str issuer] err)
  else .ok ⟨code, issuer, native, false, 0⟩

def toBalances : List HorizonLine → Except Message (List Balance)
  | [] => .ok []
  | b :: lines => do
      let bal ← b.toBalance parseAmount
      let out ← toBalances lines
      return bal :: out

/-- The source over Horizon: `ctxErr` is the error of the context, and `client` what the account
request is answered. -/
def horizonBalances (ctxErr : Option Message) (client : GoString → HorizonAnswer) : AccountSource :=
  fun address =>
    match ctxErr with
    | some err => .error (.other err)
    | none =>
        match client address with
        | .account lines =>
            match toBalances parseAmount lines with
            | .ok out => .ok out
            | .error err => .error (.other err)
        | .problem status err =>
            if status = 404 then .error .accountNotFound
            else .error (.other (.wrap "horizon account detail: " [] err))
        | .failed err => .error (.other (.wrap "horizon account detail: " [] err))

end Horizon

end Trustline
