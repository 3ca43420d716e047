/-
# The web application's client of the service

The functions of the client, each a request with the service's token and the caller's wallet, and
what becomes of the reply: the JSON of a success, the service's own error, or an error of the
transport.
-/
import Astrea.Wire

open Interleave
open UriPath (Bytes)
open Utf16 (CodeUnits)
open JsonText (Numbers Value)
open Service (Codec HttpRequest HttpReply ascii object string)

namespace CoreGo

/-! ## Errors -/

/-- What a function of the client throws: `CoreGoError`, `CoreGoTransportError`,
`CoreGoConfigError`, or an error of the platform. -/
inductive Thrown where
  | coreGo (status : ℕ) (code message : CodeUnits)
  | transport (status : ℕ) (detail : CodeUnits)
  | config (message : String)
  | other
  deriving DecidableEq

/-- The variables the client reads. -/
structure Env where
  coreGoUrl : Option CodeUnits
  coreGoServiceToken : Option CodeUnits

/-- A variable that is set and not empty. -/
def truthy (v : Option CodeUnits) : Option CodeUnits := v.filter (· ≠ [])

def config (env : Env) : Except Thrown (CodeUnits × CodeUnits) := do
  let url ← Guard.expect (truthy env.coreGoUrl) (.config "CORE_GO_URL is not configured")
  let token ← Guard.expect (truthy env.coreGoServiceToken)
    (.config "CORE_GO_SERVICE_TOKEN is not configured")
  return (url, token)

/-! ## Calls -/

structure ReleaseAssignment (ν : Type) where
  rank : ν
  teamId : CodeUnits

/-- A call of one of the client's functions, without the wallet. -/
inductive Call (ν : Type) where
  | releaseBuild (eventId : CodeUnits) (assignments : List (ReleaseAssignment ν))
  | releaseSubmit (eventId signedTransactionXdr : CodeUnits)
  | walletBalance (address : CodeUnits)
  | depositBuild (address amount : CodeUnits)
  | depositSubmit (address opId signedTransactionXdr : CodeUnits)
  | createBuild (eventId : CodeUnits)
  | createSubmit (eventId signedTransactionXdr : CodeUnits)
  | startQuote (eventId : CodeUnits)
  | startBuild (eventId : CodeUnits)
  | startSubmit (eventId signedTransactionXdr : CodeUnits)

variable {ν : Type}

def Call.method : Call ν → UriPath.Method
  | .walletBalance _ | .startQuote _ => .get
  | _ => .post

/-- The path of a call, around the component that is encoded. -/
def Call.template : Call ν → String × CodeUnits × List String
  | .releaseBuild eventId _ => ("events", eventId, ["release", "build"])
  | .releaseSubmit eventId _ => ("events", eventId, ["release", "submit"])
  | .walletBalance address => ("wallets", address, ["balance"])
  | .depositBuild address _ => ("wallets", address, ["deposit", "build"])
  | .depositSubmit address _ _ => ("wallets", address, ["deposit", "submit"])
  | .createBuild eventId => ("events", eventId, ["create", "build"])
  | .createSubmit eventId _ => ("events", eventId, ["create", "submit"])
  | .startQuote eventId => ("events", eventId, ["start", "quote"])
  | .startBuild eventId => ("events", eventId, ["start", "build"])
  | .startSubmit eventId _ => ("events", eventId, ["start", "submit"])

/-- The component of the path that the caller chooses. -/
def Call.target (c : Call ν) : CodeUnits := c.template.2.1

def ReleaseAssignment.json (a : ReleaseAssignment ν) : Value ν :=
  object [("rank", .num a.rank), ("teamId", .str a.teamId)]

/-- The JSON body of a `POST`. -/
def Call.body : Call ν → Value ν
  | .releaseBuild _ assignments => object [("assignments", .arr (assignments.map (·.json)))]
  | .releaseSubmit _ xdr | .createSubmit _ xdr | .startSubmit _ xdr =>
      object [("signedTransactionXdr", .str xdr)]
  | .depositBuild _ amount => object [("amount", .str amount)]
  | .depositSubmit _ opId xdr => object [("opId", .str opId), ("signedTransactionXdr", .str xdr)]
  | .walletBalance _ | .createBuild _ | .startQuote _ | .startBuild _ => object []

/-! ## Requests -/

/-- The bytes `encodeURIComponent` keeps. -/
def isUnreserved (b : UInt8) : Bool :=
  (48 ≤ b && b ≤ 57) || (65 ≤ b && b ≤ 90) || (97 ≤ b && b ≤ 122) || b ∈ ascii "-_.!~*'()"

/-- `none` for the `URIError` of a lone surrogate. -/
def encodeURIComponent (s : CodeUnits) : Option Bytes :=
  if Utf16.wellFormed s then some (UriPath.escape isUnreserved (Utf16.utf8 s)) else none

/-- `pathname` of the URL with an absolute path. -/
def pathname (path : Bytes) : Bytes :=
  UriPath.ofSegments (UriPath.removeDots [] (UriPath.segments path))

def isHttpSpace (u : UInt16) : Bool := u = 9 || u = 10 || u = 13 || u = 32

/-- The bytes of a header's value, `none` for the `TypeError` of one that cannot be sent. -/
def headerValue (s : CodeUnits) : Option Bytes :=
  let value := ((s.dropWhile isHttpSpace).reverse.dropWhile isHttpSpace).reverse
  if value.all fun u => u.toNat < 256 && u ≠ 0 && u ≠ 10 && u ≠ 13 then
    some (value.map UInt16.toUInt8)
  else none

/-- The path that a call asks for. -/
def Call.path (c : Call ν) : Option Bytes :=
  let (root, target, rest) := c.template
  (encodeURIComponent target).map fun component =>
    UriPath.ofSegments (ascii root :: component :: rest.map ascii)

/-- The request a call is sent as. -/
def send (N : Numbers ν) (env : Env) (c : Call ν) (wallet : CodeUnits) :
    Except Thrown HttpRequest := do
  let path ← Guard.expect c.path .other
  let (_, token) ← config env
  let authorization ← Guard.expect (headerValue (Utf16.ofString "Bearer " ++ token)) .other
  let header ← Guard.expect (headerValue wallet) .other
  return {
    method := c.method
    path := pathname path
    authorization := authorization
    wallet := header
    body := if c.method = .post then Utf16.utf8 (c.body.text N) else [] }

/-! ## Replies -/

/-- A property of an object that was parsed. -/
def property (name : String) (fields : List (CodeUnits × Value ν)) : Option (Value ν) :=
  (fields.reverse.find? (·.1 = Utf16.ofString name)).map (·.2)

/-- `isErrorBody`: the code and the message of an error of the service. -/
def errorBody : Value ν → Option (CodeUnits × CodeUnits)
  | .obj fields =>
      match property "error" fields with
      | some (.obj err) =>
          match property "code" err, property "message" err with
          | some (.str code), some (.str message) => some (code, message)
          | _, _ => none
      | _ => none
  | _ => none

/-- What becomes of the reply to a request; `none` when there is none. -/
def receive (N : Numbers ν) : Option HttpReply → Except Thrown (Value ν)
  | none => .error .other
  | some reply =>
      match JsonText.parse N reply.text with
      | none => .error (.transport reply.status (reply.text.take 200))
      | some json =>
          if 200 ≤ reply.status ∧ reply.status < 300 then .ok json
          else
            match errorBody json with
            | some (code, message) => .error (.coreGo reply.status code message)
            | none => .error (.transport reply.status (reply.text.take 200))

/-! ## The types of the responses -/

inductive TsType where
  | string
  | number
  | literals (values : List String)
  | array (item : TsType)
  | interface (fields : List (String × TsType))

mutual

/-- A value that was parsed has the type. -/
def TsType.admits : TsType → Value ν → Bool
  | .string, .str _ => true
  | .number, .num _ => true
  | .literals values, .str s => values.any fun v => s = Utf16.ofString v
  | .array item, .arr items => items.all fun v => item.admits v
  | .interface fields, .obj props => admitsFields fields props
  | _, _ => false

def admitsFields : List (String × TsType) → List (CodeUnits × Value ν) → Bool
  | [], _ => true
  | (name, type) :: rest, props =>
      (match property name props with
        | some v => type.admits v
        | none => false) && admitsFields rest props

end

def releaseWinner : TsType :=
  .interface [("rank", .number), ("teamId", .string), ("teamMemberId", .string),
    ("address", .string)]

def releaseBuildResponse : TsType :=
  .interface [("eventId", .string), ("unsignedTransactionXdr", .string),
    ("winners", .array releaseWinner)]

/-- A submit's response, with the fields a function adds to it. -/
def submitResponse (more : List (String × TsType)) : TsType :=
  .interface (("txHash", .string) :: ("status", .literals ["succeeded", "pending"]) :: more)

def releaseSubmitResponse : TsType := submitResponse []

def walletBalanceResponse : TsType := .interface [("address", .string), ("balance", .string)]

def depositBuildResponse : TsType :=
  .interface [("opId", .string), ("unsignedTransactionXdr", .string)]

def depositSubmitResponse : TsType := submitResponse []

def createBuildResponse : TsType :=
  .interface [("unsignedTransactionXdr", .string), ("reward", .number),
    ("escrowEventId", .string)]

def createSubmitResponse : TsType := submitResponse [("escrowEventId", .string)]

def startQuoteResponse : TsType :=
  .interface [("fee", .string), ("balance", .string), ("shortfall", .string)]

def startBuildResponse : TsType :=
  .interface [("unsignedTransactionXdr", .string), ("judgingDeadline", .number),
    ("fee", .number)]

def startSubmitResponse : TsType := submitResponse []

/-- What a function of the client says that it resolves to. -/
def Call.responseType : Call ν → TsType
  | .releaseBuild _ _ => releaseBuildResponse
  | .releaseSubmit _ _ => releaseSubmitResponse
  | .walletBalance _ => walletBalanceResponse
  | .depositBuild _ _ => depositBuildResponse
  | .depositSubmit _ _ _ => depositSubmitResponse
  | .createBuild _ => createBuildResponse
  | .createSubmit _ _ => createSubmitResponse
  | .startQuote _ => startQuoteResponse
  | .startBuild _ => startBuildResponse
  | .startSubmit _ _ => startSubmitResponse

/-! ## Redirects, and a call as a whole -/

/-- The request a redirect leads to.  After a 301 a `POST` becomes a `GET`. -/
def redirected (r : HttpRequest) (location : Bytes) : HttpRequest :=
  { r with
    method := if r.method = .post then .get else r.method
    path := pathname location
    body := if r.method = .post then [] else r.body }

/-- What the network makes of an exchange: it carries the request and the reply, it loses the reply
on its way back, or the request never arrives. -/
inductive Delivery where
  | carried
  | unanswered
  | unreached
  deriving DecidableEq

variable {Op : Type} {Res : Op → Type}

/-- The reply that a client gets over the network from what a server runs for its request.  The
server runs to its end whether or not anybody still waits for the reply. -/
def Delivery.carry : Delivery → Prog Op Res (Option HttpReply) → Prog Op Res (Option HttpReply)
  | .carried, served => served
  | .unanswered, served => served.bind fun _ => .ret none
  | .unreached, _ => .ret none

/-- `fetch`, which follows a limited number of redirects; `net` says what becomes of the exchanges,
in their order. -/
def fetch (server : HttpRequest → Prog Op Res (Option HttpReply)) :
    ℕ → (net : ℕ → Delivery) → HttpRequest → Prog Op Res (Option HttpReply)
  | 0, _, _ => .ret none
  | n + 1, net, r =>
      ((net 0).carry (server r)).bind fun reply =>
        match reply.bind (·.location) with
        | some location => fetch server n (fun i => net (i + 1)) (redirected r location)
        | none => .ret reply

/-- `request`: a call of the client against a server, over the network. -/
def request (N : Numbers ν) (net : ℕ → Delivery)
    (server : HttpRequest → Prog Op Res (Option HttpReply)) (env : Env) (c : Call ν)
    (wallet : CodeUnits) : Prog Op Res (Except Thrown (Value ν)) :=
  match send N env c wallet with
  | .error e => .ret (.error e)
  | .ok r => (fetch server 21 net r).bind fun reply => .ret (receive N reply)

end CoreGo
