/-
# The state of a GitHub sign-in

`signOAuthState` and `verifyOAuthState` of the web application: a payload as JSON, encoded as
base64url, with an HMAC behind a point.  Texts are UTF-16, as the source's are, so that the
signature's length is compared in units and its bytes by `timingSafeEqual`, which throws on bytes
of another length.  The numbers and the HMAC are parameters.
-/
import Astrea.Base64url
import Astrea.JsonText

open Utf16 JsonText

namespace GithubOAuth

/-! ## The platform -/

/-- What the server takes from its platform and its environment.  Numbers are the language's, with
`-0` and `0` as one. -/
structure Server (ν : Type) extends Numbers ν where
  ofNat : ℕ → ν
  sub : ν → ν → ν
  gt : ν → ν → Bool
  /-- Neither zero nor NaN. -/
  truthy : ν → Bool
  /-- HMAC-SHA256 under a key. -/
  hmacSha256 : List UInt8 → List UInt8 → List UInt8
  length_hmacSha256 : ∀ key message, (hmacSha256 key message).length = 32
  GITHUB_CLIENT_SECRET : Option CodeUnits

/-- `crypto.timingSafeEqual` was given buffers of different lengths. -/
inductive RangeError where
  | timingSafeEqualLength
  deriving DecidableEq

def timingSafeEqual (a b : List UInt8) : Except RangeError Bool :=
  if a.length ≠ b.length then .error .timingSafeEqualLength else .ok (a = b)

/-- What the `try` block of the verification may throw. -/
inductive Thrown where
  | syntaxError
  | typeError

/-! ## Signing -/

/-- `OAuthStatePayload`. -/
structure OAuthStatePayload (ν : Type) where
  walletId : CodeUnits
  nonce : CodeUnits
  timestamp : ν
  returnTo : Option CodeUnits

/-- Ten minutes. -/
def OAUTH_STATE_TTL_MS : ℕ := 10 * 60 * 1000

def walletIdKey : CodeUnits := ofString "walletId"

def nonceKey : CodeUnits := ofString "nonce"

def timestampKey : CodeUnits := ofString "timestamp"

def returnToKey : CodeUnits := ofString "returnTo"

section
variable {ν : Type}

/-- The object that a payload is, without the members that are `undefined`. -/
def OAuthStatePayload.value (payload : OAuthStatePayload ν) : Value ν :=
  .obj ([(walletIdKey, .str payload.walletId), (nonceKey, .str payload.nonce),
      (timestampKey, .num payload.timestamp)]
    ++ payload.returnTo.toList.map fun returnTo => (returnToKey, .str returnTo))

variable (srv : Server ν)

def Server.getSigningSecret : CodeUnits :=
  match srv.GITHUB_CLIENT_SECRET with
  | none => ofString "astrea_github_oauth_signing_fallback_key"
  | some secret =>
      if secret = [] then ofString "astrea_github_oauth_signing_fallback_key" else secret

/-- `Buffer.from(JSON.stringify(payload), "utf-8").toString("base64url")`. -/
def Server.encodedPayload (payload : OAuthStatePayload ν) : CodeUnits :=
  Base64url.encode (utf8 (payload.value.text srv.toNumbers))

/-- The HMAC of an encoded payload, as base64url. -/
def Server.signature (encodedPayload : CodeUnits) : CodeUnits :=
  Base64url.encode (srv.hmacSha256 (utf8 srv.getSigningSecret) (utf8 encodedPayload))

def Server.signOAuthState (payload : OAuthStatePayload ν) : CodeUnits :=
  srv.encodedPayload payload ++ [46] ++ srv.signature (srv.encodedPayload payload)

/-! ## Verifying -/

/-- A property of a parsed value: an object's last member of that name, `undefined` where there is
none.  Only `null` has no properties to read. -/
def property (v : Value ν) (key : CodeUnits) : Except Thrown (Option (Value ν)) :=
  match v with
  | .null => .error .typeError
  | .obj fields => .ok ((fields.reverse.find? fun field => field.1 = key).map Prod.snd)
  | _ => .ok none

/-- Whether a property counts as true. -/
def Server.isTruthy : Option (Value ν) → Bool
  | none => false
  | some .null => false
  | some (.bool b) => b
  | some (.num x) => srv.truthy x
  | some (.str s) => s ≠ []
  | some (.arr _) => true
  | some (.obj _) => true

/-- `payload.walletId === expectedWalletId`. -/
def isText (v : Option (Value ν)) (s : CodeUnits) : Bool :=
  match v with
  | some (.str t) => t = s
  | _ => false

def Server.expired (now timestamp : ν) : Bool :=
  srv.gt (srv.sub now timestamp) (srv.ofNat OAUTH_STATE_TTL_MS)

/-- The `try` block of `verifyOAuthState`. -/
def Server.readPayload (now : ν) (encodedPayload : CodeUnits)
    (expectedWalletId : Option CodeUnits) : Except Thrown (Option (Value ν)) := do
  let json := utf8Decode (Base64url.decode encodedPayload)
  let payload ← (parse srv.toNumbers json).elim (.error .syntaxError) .ok
  let walletId ← property payload walletIdKey
  if !srv.isTruthy walletId then
    return none
  let nonce ← property payload nonceKey
  if !srv.isTruthy nonce then
    return none
  match ← property payload timestampKey with
  | some (.num timestamp) =>
      if srv.expired now timestamp then
        return none
      match expectedWalletId with
      | some expected =>
          if expected ≠ [] && !isText walletId expected then return none else return some payload
      | none => return some payload
  | _ => return none

/-- What the caller gets of the `try` block: `null` when it throws. -/
def caught (result : Except Thrown (Option (Value ν))) : Option (Value ν) :=
  match result with
  | .ok payload => payload
  | .error _ => none

/-- The time is the server's, `null` is `none`. -/
def Server.verifyOAuthState (now : ν) (stateString : CodeUnits)
    (expectedWalletId : Option CodeUnits) : Except RangeError (Option (Value ν)) :=
  if stateString = [] then .ok none
  else match stateString.splitOn 46 with
    | [encodedPayload, signature] =>
        let expectedSignature := srv.signature encodedPayload
        if signature.length ≠ expectedSignature.length then .ok none
        else do
          if !(← timingSafeEqual (utf8 signature) (utf8 expectedSignature)) then
            return none
          return caught (srv.readPayload now encodedPayload expectedWalletId)
    | _ => .ok none

end

end GithubOAuth
