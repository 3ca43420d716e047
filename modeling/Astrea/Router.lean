/-
# The HTTP surface

The routes of the service and the authentication in front of all but one of them: a
request becomes the program of its handler.
-/
import Astrea.HandlersRelease

open Interleave Interleave.Guarded

namespace Service

/-- What a request asks for: a route with its path value and its decoded body, `none` for a
body that is not the JSON the handler decodes. -/
inductive Route where
  | healthz
  | releaseBuild (id : String) (body : Option (List Assignment))
  | releaseSubmit (id : String) (body : Option SignedXDR)
  | walletBalance (address : Option (BitVec 256))
  | depositBuild (address : Option (BitVec 256)) (body : Option GoString)
  | depositSubmit (address : Option (BitVec 256)) (body : Option (String × SignedXDR))
  | createBuild (id : String)
  | createSubmit (id : String) (body : Option SignedXDR)
  | startQuote (id : String)
  | startBuild (id : String)
  | startSubmit (id : String) (body : Option SignedXDR)

/-- A request: its `Authorization` header, the account its wallet header names if it is well
formed, and its route. -/
structure Request where
  authorization : String
  wallet : Option (BitVec 256)
  route : Route

/-- The header is the bearer form of the token. -/
def validBearer (header token : String) : Bool :=
  "Bearer ".toList.isPrefixOf header.toList && header.toList.drop 7 == token.toList

/-- The wallet of an authenticated caller. -/
def requireAuth (deps : Deps) (r : Request) : Handler Address := do
  ensure (validBearer r.authorization deps.serviceToken = true)
    (writeError 401 "unauthorized" ⟨"missing or invalid bearer token", []⟩)
  let key ← expect r.wallet (writeError 400 "invalid_wallet"
    ⟨"X-Astrea-Wallet must be a valid Stellar account address", []⟩)
  return .account key

/-- The handler of a route, for an authenticated caller. -/
def handle (deps : Deps) (wallet : Address) : Route → Handler Response
  | .healthz => return .reply 200 .healthz
  | .releaseBuild id body => handleReleaseBuild deps wallet id body
  | .releaseSubmit id body => handleReleaseSubmit deps wallet id body
  | .walletBalance address => handleWalletBalance deps wallet address
  | .depositBuild address body => handleDepositBuild deps wallet address body
  | .depositSubmit address body => handleDepositSubmit deps wallet address body
  | .createBuild id => handleCreateBuild deps wallet id
  | .createSubmit id body => handleCreateSubmit deps wallet id body
  | .startQuote id => handleStartQuote deps wallet id
  | .startBuild id => handleStartBuild deps wallet id
  | .startSubmit id body => handleStartSubmit deps wallet id body

/-- The program of a request: every route but `healthz` is authenticated first. -/
def route (deps : Deps) (r : Request) : Handler Response := do
  match r.route with
  | .healthz => return .reply 200 .healthz
  | route =>
      let wallet ← requireAuth deps r
      handle deps wallet route

/-- What the service runs for a request. -/
def serve (deps : Deps) (r : Request) : Prog Op Op.Res Response := (route deps r).answer

end Service
