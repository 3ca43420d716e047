/-
# The service on the wire

What the service reads of an HTTP request, and the reply it writes: the two muxes of the router
with their patterns, the headers, the JSON bodies, and the JSON of every answer.  A request for
one of the routes is served as the router serves it (`serveAuthed_row`), any other one of an
authenticated caller is not found.
-/
import Astrea.JsonText
import Astrea.Router
import Astrea.UriPath

open Interleave
open UriPath (Bytes)
open Utf16 (CodeUnits)
open JsonText (Numbers Value)

namespace Service

/-! ## Texts -/

/-- The bytes of an ASCII text. -/
def ascii (s : String) : Bytes := s.toList.map fun c => .ofNat c.toNat

/-- The string Go has for some bytes, with the replacement character for what is no UTF-8. -/
def goText (b : Bytes) : String := Utf16.string (Utf16.utf8Decode b)

/-- How the values of requests and replies are written.  `encode` is `json.Encoder`, `int64` the
`int` of a JSON number, `accountKey` the key of an account address. -/
structure Codec (ν : Type) where
  numbers : Numbers ν
  encode : Value ν → CodeUnits
  parse_encode : ∀ v, JsonText.parse numbers (encode v) = some (v.readBack numbers)
  int64 : ν → Option Int64
  ofInt64 : Int64 → ν
  isFinite_ofInt64 : ∀ n, numbers.isFinite (ofInt64 n) = true
  accountKey : String → Option (BitVec 256)
  address : Address → String
  decodeXDR : String → SignedXDR
  encodeXDR : SignedXDR → String
  txHash : TxHash → String
  eventID : EventID → String
  message : Message → String

variable {ν : Type} (w : Codec ν)

def Codec.signedXDR (text : String) : SignedXDR := if text = "" then .empty else w.decodeXDR text

/-! ## Request bodies -/

/-- What `encoding/json` compares field names by. -/
def foldUnit (u : UInt16) : UInt16 :=
  if 97 ≤ u ∧ u ≤ 122 then u - 32
  else if u = 0x17F then 83
  else if u = 0x212A then 75
  else u

def sameName (a b : CodeUnits) : Bool := a.map foldUnit = b.map foldUnit

/-- The fields of an object.  `null` sets none. -/
def fieldsOf : Value ν → Option (List (CodeUnits × Value ν))
  | .obj fields => some fields
  | .null => some []
  | _ => none

/-- A field of a struct, which has its zero value when it is missing or `null`.  Of the fields
of one name the last counts, and each must have the right type. -/
def decodeField {α : Type} (decode : Value ν → Option α) (name : String) (zero : α)
    (fields : List (CodeUnits × Value ν)) : Option α :=
  fields.foldlM (fun a field =>
    if sameName (Utf16.ofString name) field.1 then
      match field.2 with
      | .null => some a
      | v => decode v
    else some a) zero

def decodeString : Value ν → Option CodeUnits
  | .str s => some s
  | _ => none

def Codec.decodeInt : Value ν → Option Int64
  | .num x => w.int64 x
  | _ => none

def Codec.decodeAssignment (v : Value ν) : Option Assignment := do
  let fields ← fieldsOf v
  let rank ← decodeField w.decodeInt "rank" 0 fields
  let teamId ← decodeField decodeString "teamId" [] fields
  return ⟨rank, Utf16.string teamId⟩

def Codec.decodeAssignments : Value ν → Option (List Assignment)
  | .arr items => items.mapM w.decodeAssignment
  | _ => none

/-- `json.NewDecoder(r.Body).Decode`. -/
def Codec.decodeBody (body : Bytes) : Option (List (CodeUnits × Value ν)) :=
  (JsonText.firstValue w.numbers ⟨[], .value⟩ (Utf16.utf8Decode body)).bind fieldsOf

def Codec.releaseBuildRequest (body : Bytes) : Option (List Assignment) := do
  let fields ← w.decodeBody body
  decodeField w.decodeAssignments "assignments" [] fields

/-- `releaseSubmitRequest`, `createSubmitRequest` and `startSubmitRequest`. -/
def Codec.submitRequest (body : Bytes) : Option SignedXDR := do
  let fields ← w.decodeBody body
  let text ← decodeField decodeString "signedTransactionXdr" [] fields
  return w.signedXDR (Utf16.string text)

def Codec.depositBuildRequest (body : Bytes) : Option GoString := do
  let fields ← w.decodeBody body
  let amount ← decodeField decodeString "amount" [] fields
  return Utf16.utf8 amount

def Codec.depositSubmitRequest (body : Bytes) : Option (String × SignedXDR) := do
  let fields ← w.decodeBody body
  let opId ← decodeField decodeString "opId" [] fields
  let text ← decodeField decodeString "signedTransactionXdr" [] fields
  return (Utf16.string opId, w.signedXDR (Utf16.string text))

/-! ## Requests -/

structure HttpRequest where
  method : UriPath.Method
  path : Bytes
  authorization : Bytes
  wallet : Bytes
  body : Bytes
  deriving DecidableEq

inductive Endpoint where
  | releaseBuild
  | releaseSubmit
  | walletBalance
  | depositBuild
  | depositSubmit
  | createBuild
  | createSubmit
  | startQuote
  | startBuild
  | startSubmit
  deriving DecidableEq

/-- A route of the router: its path is the root, a wildcard and the rest. -/
structure Row where
  method : UriPath.Method
  root : Bytes
  rest : List Bytes
  endpoint : Endpoint
  deriving DecidableEq

def Row.pattern (r : Row) : UriPath.Pattern Endpoint :=
  ⟨some r.method, .lit r.root :: .wild :: r.rest.map .lit, false, r.endpoint⟩

def handleFunc (method : UriPath.Method) (root : String) (rest : List String)
    (endpoint : Endpoint) : Row :=
  ⟨method, ascii root, rest.map ascii, endpoint⟩

/-- The routes behind the authentication. -/
def routes : List Row :=
  [handleFunc .post "events" ["release", "build"] .releaseBuild,
    handleFunc .post "events" ["release", "submit"] .releaseSubmit,
    handleFunc .get "wallets" ["balance"] .walletBalance,
    handleFunc .post "wallets" ["deposit", "build"] .depositBuild,
    handleFunc .post "wallets" ["deposit", "submit"] .depositSubmit,
    handleFunc .post "events" ["create", "build"] .createBuild,
    handleFunc .post "events" ["create", "submit"] .createSubmit,
    handleFunc .get "events" ["start", "quote"] .startQuote,
    handleFunc .post "events" ["start", "build"] .startBuild,
    handleFunc .post "events" ["start", "submit"] .startSubmit]

/-- The mux behind the authentication. -/
def authed : List (UriPath.Pattern Endpoint) := routes.map Row.pattern

/-- The mux in front: `true` is the health check, `false` everything else. -/
def mux : List (UriPath.Pattern Bool) :=
  [⟨some .get, [.lit (ascii "healthz")], false, true⟩, ⟨none, [], true, false⟩]

/-- The route of an endpoint, with the value of its wildcard and the body. -/
def Codec.route (value : String) (body : Bytes) : Endpoint → Route
  | .releaseBuild => .releaseBuild value (w.releaseBuildRequest body)
  | .releaseSubmit => .releaseSubmit value (w.submitRequest body)
  | .walletBalance => .walletBalance (w.accountKey value)
  | .depositBuild => .depositBuild (w.accountKey value) (w.depositBuildRequest body)
  | .depositSubmit => .depositSubmit (w.accountKey value) (w.depositSubmitRequest body)
  | .createBuild => .createBuild value
  | .createSubmit => .createSubmit value (w.submitRequest body)
  | .startQuote => .startQuote value
  | .startBuild => .startBuild value
  | .startSubmit => .startSubmit value (w.submitRequest body)

/-! ## Replies -/

structure HttpReply where
  status : ℕ
  location : Option Bytes
  text : CodeUnits
  deriving DecidableEq

def textReply (status : ℕ) (text : String) : HttpReply := ⟨status, none, Utf16.ofString text⟩

/-- The value of a JSON object with these fields. -/
def object (fields : List (String × Value ν)) : Value ν :=
  .obj (fields.map fun f => (Utf16.ofString f.1, f.2))

def string (s : String) : Value ν := .str (Utf16.ofString s)

/-- The winner lines of a `releaseBuildResponse`. -/
def Codec.winner : Int64 × RowId × RowId × Address → Value ν
  | (rank, teamID, teamMemberID, address) =>
      object [("rank", .num (w.ofInt64 rank)), ("teamId", string teamID),
        ("teamMemberId", string teamMemberID), ("address", string (w.address address))]

/-- The text of a body. -/
def Codec.text : Body → CodeUnits
  | .healthz => Utf16.ofString "ok"
  | .error code message =>
      w.encode (object [("error",
        object [("code", string code), ("message", string (w.message message))])])
  | .walletBalance address balance =>
      w.encode (object [("address", string (w.address address)),
        ("balance", .str (Utf16.utf8Decode balance))])
  | .depositBuild opID unsigned =>
      w.encode (object [("opId", string opID.text),
        ("unsignedTransactionXdr", string (w.encodeXDR unsigned))])
  | .createBuild unsigned reward escrowEventID =>
      w.encode (object [("unsignedTransactionXdr", string (w.encodeXDR unsigned)),
        ("reward", .num (w.ofInt64 reward)), ("escrowEventId", string (w.eventID escrowEventID))])
  | .createSubmit txHash status escrowEventID =>
      w.encode (object [("txHash", string (w.txHash txHash)), ("status", string status),
        ("escrowEventId", string (w.eventID escrowEventID))])
  | .startQuote fee balance shortfall =>
      w.encode (object [("fee", .str (Utf16.utf8Decode fee)),
        ("balance", .str (Utf16.utf8Decode balance)),
        ("shortfall", .str (Utf16.utf8Decode shortfall))])
  | .startBuild unsigned judgingDeadline fee =>
      w.encode (object [("unsignedTransactionXdr", string (w.encodeXDR unsigned)),
        ("judgingDeadline", .num (w.ofInt64 judgingDeadline)), ("fee", .num (w.ofInt64 fee))])
  | .releaseBuild eventID unsigned winners =>
      w.encode (object [("eventId", string eventID.text),
        ("unsignedTransactionXdr", string (w.encodeXDR unsigned)),
        ("winners", .arr (winners.map w.winner))])
  | .submit txHash status =>
      w.encode (object [("txHash", string (w.txHash txHash)), ("status", string status)])

/-- What is sent for a response: nothing when the handler panicked. -/
def Codec.reply : Response → Option HttpReply
  | .reply status body => some ⟨status, none, w.text body⟩
  | .aborted => none

/-! ## The server -/

/-- The bytes Go keeps in a path. -/
def isPathByte (b : UInt8) : Bool :=
  (48 ≤ b && b ≤ 57) || (65 ≤ b && b ≤ 90) || (97 ≤ b && b ≤ 122) || b ∈ ascii "-_.~$&+,/:;=@"

/-- The bytes of a path that is well encoded. -/
def isEncodedByte (b : UInt8) : Bool := isPathByte b || b ∈ ascii "!'()*[]%"

/-- `URL.EscapedPath()` of the path of a request, `none` when the path does not parse. -/
def escapedPath (path : Bytes) : Option Bytes :=
  (UriPath.unescape path).map fun plain =>
    if path.all isEncodedByte then path else UriPath.escape isPathByte plain

/-- `http.Redirect` to a path. -/
def redirectTo (path : Bytes) : HttpReply := ⟨301, some (UriPath.escape isPathByte path), []⟩

/-- What the router is given of a request for a route. -/
def Codec.request (r : HttpRequest) (route : Route) : Request :=
  ⟨goText r.authorization, w.accountKey (goText r.wallet), route⟩

def notFound : HttpReply := textReply 404 "404 page not found\n"

def methodNotAllowed : HttpReply := textReply 405 "Method Not Allowed\n"

/-- The mux behind the authentication, for a request that has passed the one in front. -/
def serveAuthed (deps : Deps) (r : HttpRequest) (path : Bytes) :
    Prog Op Op.Res (Option HttpReply) :=
  match UriPath.findHandler authed r.method path with
  | .found endpoint values =>
      (serve deps (w.request r (w.route (goText (values.headD [])) r.body endpoint))).bind fun a =>
        .ret (w.reply a)
  | other =>
      (requireAuth deps (w.request r .healthz)).run.bind fun
        | .error a => .ret (w.reply a)
        | .ok _ =>
            match other with
            | .redirect path => .ret (some (redirectTo path))
            | .methodNotAllowed => .ret (some methodNotAllowed)
            | _ => .ret (some notFound)

/-- `New`: what the service does for a request, up to its reply. -/
def new (deps : Deps) (r : HttpRequest) : Prog Op Op.Res (Option HttpReply) :=
  match escapedPath r.path with
  | none => .ret (some (textReply 400 "400 Bad Request"))
  | some path =>
      match UriPath.findHandler mux r.method path with
      | .redirect path => .ret (some (redirectTo path))
      | .methodNotAllowed => .ret (some methodNotAllowed)
      | .notFound => .ret (some notFound)
      | .found true _ => .ret (w.reply (.reply 200 .healthz))
      | .found false _ => serveAuthed w deps r path

/-! ## What is found -/

/-- The row of a path with three segments or more, the second of which a wildcard stands for. -/
def findRow (m : UriPath.Method) (root : Bytes) (rest : List Bytes) : Option Row :=
  routes.find? fun r =>
    r.pattern.admits m && decide (UriPath.plain root = r.root ∧ rest.map UriPath.plain = r.rest)

theorem lookup_row {m : UriPath.Method} {root seg : Bytes} {rest : List Bytes} {row : Row}
    (hseg : seg ≠ []) (hvalue : UriPath.plain seg ≠ [47])
    (hrow : findRow m root rest = some row) :
    UriPath.lookup authed m (root :: seg :: rest) = .found row.endpoint [UriPath.plain seg] := by
  have hfound : authed.findSome? (fun p =>
      if p.admits m then
        (UriPath.matchSegments p.subtree p.segments (root :: seg :: rest)).map (p.handler, ·)
      else none) = (findRow m root rest).map fun r => (r.endpoint, [UriPath.plain seg]) := by
    unfold findRow authed
    generalize routes = l
    induction l with
    | nil => rfl
    | cons r l ih =>
        rw [List.map_cons, List.findSome?_cons, List.find?_cons, ih]
        have hmatch : UriPath.matchSegments r.pattern.subtree r.pattern.segments
            (root :: seg :: rest) = if UriPath.plain root = r.root ∧ rest.map UriPath.plain = r.rest
              then some [UriPath.plain seg] else none := UriPath.matchSegments_wild hseg hvalue
        rw [hmatch]
        by_cases hm : r.pattern.admits m = true
        · by_cases hsegs : UriPath.plain root = r.root ∧ rest.map UriPath.plain = r.rest
          · simp only [hm, hsegs, and_self, if_true, Option.map_some, decide_true, Bool.and_self]
            rfl
          · simp [hm, hsegs]
        · simp [hm]
  rw [UriPath.lookup, hfound, hrow]
  rfl

/-- A path with two segments or more is no health check. -/
theorem lookup_mux {m : UriPath.Method} {s t : Bytes} {rest : List Bytes} :
    UriPath.lookup mux m (s :: t :: rest) = .found false [] := by
  have hhealthz : UriPath.matchSegments false [.lit (ascii "healthz")] (s :: t :: rest) = none := by
    rw [UriPath.matchSegments]
    split <;> rfl
  rw [UriPath.lookup, mux, List.findSome?_cons, List.findSome?_cons, hhealthz, Option.map_none,
    ite_self]
  rfl

/-- No response of a handler is a redirect. -/
theorem reply_location (a : Response) : (w.reply a).bind (·.location) = none := by
  cases a <;> rfl

/-- A segment that stands in a path as it is. -/
structure Stands (s : Bytes) : Prop where
  reads : (UriPath.unescape s).isSome = true
  encoded : ∀ b ∈ s, isEncodedByte b = true ∧ b ≠ 47

theorem escapedPath_ofSegments {segs : List Bytes} (h : ∀ s ∈ segs, Stands s) :
    escapedPath (UriPath.ofSegments segs) = some (UriPath.ofSegments segs) := by
  obtain ⟨plain, hplain⟩ := Option.isSome_iff_exists.mp
    (UriPath.unescape_ofSegments fun s hs => (h s hs).reads)
  have hall : (UriPath.ofSegments segs).all isEncodedByte = true := by
    rw [List.all_eq_true]
    intro b hb
    rcases UriPath.mem_ofSegments hb with rfl | ⟨s, hs, hb⟩
    · decide
    · exact ((h s hs).encoded b hb).1
  rw [escapedPath, hplain, Option.map_some, if_pos hall]

/-- A clean path that is not the health check goes to the mux behind the authentication. -/
theorem new_ofSegments {deps : Deps} {r : HttpRequest} {segs : List Bytes}
    (hpath : r.path = UriPath.ofSegments segs) (hne : segs ≠ []) (hstands : ∀ s ∈ segs, Stands s)
    (hkept : ∀ s ∈ segs, UriPath.Kept s)
    (hmux : UriPath.lookup mux r.method segs = .found false []) :
    new w deps r = serveAuthed w deps r (UriPath.ofSegments segs) := by
  have hslash : ∀ s ∈ segs, 47 ∉ s := fun s hs hmem => ((hstands s hs).encoded 47 hmem).2 rfl
  rw [new, hpath, escapedPath_ofSegments hstands]
  simp only [UriPath.findHandler_ofSegments hne hslash hkept, hmux]

/-- A path that is not clean is redirected. -/
theorem new_redirect {deps : Deps} {r : HttpRequest} {path location : Bytes}
    (hpath : escapedPath r.path = some path)
    (hlocation : UriPath.findHandler mux r.method path = .redirect location) :
    new w deps r = .ret (some (redirectTo location)) := by
  rw [new, hpath]
  simp only [hlocation]

/-- A request that matches the row of an endpoint is served as a request for its route. -/
theorem serveAuthed_row {deps : Deps} {r : HttpRequest} {root seg value : Bytes}
    {rest : List Bytes} {row : Row} (hstands : ∀ s ∈ root :: seg :: rest, Stands s)
    (hkept : ∀ s ∈ root :: seg :: rest, UriPath.Kept s) (hvalue : UriPath.unescape seg = some value)
    (hne : value ≠ [47]) (hrow : findRow r.method root rest = some row) :
    serveAuthed w deps r (UriPath.ofSegments (root :: seg :: rest))
      = (serve deps (w.request r (w.route (goText value) r.body row.endpoint))).bind fun a =>
          .ret (w.reply a) := by
  have hslash : ∀ s ∈ root :: seg :: rest, 47 ∉ s :=
    fun s hs hmem => ((hstands s hs).encoded 47 hmem).2 rfl
  have hseg := (hkept seg (List.mem_cons_of_mem _ List.mem_cons_self)).1
  have hplain : UriPath.plain seg = value := by rw [UriPath.plain, hvalue]; rfl
  rw [serveAuthed]
  simp only [UriPath.findHandler_ofSegments (List.cons_ne_nil _ _) hslash hkept,
    lookup_row hseg (hplain ▸ hne) hrow, hplain, List.headD_cons]

/-- A path that matches no route is not found by an authenticated caller. -/
theorem serveAuthed_notFound {deps : Deps} {r : HttpRequest} {segs : List Bytes} (hne : segs ≠ [])
    (hstands : ∀ s ∈ segs, Stands s) (hkept : ∀ s ∈ segs, UriPath.Kept s)
    (hnone : UriPath.lookup authed r.method segs = .notFound) :
    serveAuthed w deps r (UriPath.ofSegments segs)
      = (requireAuth deps (w.request r .healthz)).run.bind fun
          | .error a => .ret (w.reply a)
          | .ok _ => .ret (some notFound) := by
  have hslash : ∀ s ∈ segs, 47 ∉ s := fun s hs hmem => ((hstands s hs).encoded 47 hmem).2 rfl
  rw [serveAuthed]
  simp only [UriPath.findHandler_ofSegments hne hslash hkept, hnone]

end Service
