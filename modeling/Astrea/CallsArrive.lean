/-
# Where the client's calls arrive

A call of the client is served by the service as the route it names, with the id, the caller and
the body it was made with, whatever the id is: it never reaches another route.  Only a path
component that is empty, dots or a slash is not found, and a lone surrogate is not sent at all.
-/
import Astrea.CoreGoClient

open Interleave
open UriPath (Bytes)
open Utf16 (CodeUnits)
open JsonText (Numbers Value)
open Service (Codec Deps HttpRequest HttpReply Endpoint Route ascii goText object)

namespace CoreGo

variable {ν : Type}

/-! ## What a call asks for -/

/-- The assignment the service reads; a rank that is not finite is written as `null`. -/
def ReleaseAssignment.read (w : Codec ν) (a : ReleaseAssignment ν) : Option Service.Assignment :=
  (if w.numbers.isFinite a.rank then w.int64 a.rank else some 0).map fun rank =>
    ⟨rank, Utf16.string a.teamId⟩

/-- The route of a call, with what the service makes of its arguments. -/
def Call.route (w : Codec ν) : Call ν → Route
  | .releaseBuild eventId assignments =>
      .releaseBuild (Utf16.string eventId) (assignments.mapM (·.read w))
  | .releaseSubmit eventId xdr =>
      .releaseSubmit (Utf16.string eventId) (some (w.signedXDR (Utf16.string xdr)))
  | .walletBalance address => .walletBalance (w.accountKey (Utf16.string address))
  | .depositBuild address amount =>
      .depositBuild (w.accountKey (Utf16.string address)) (some (Utf16.utf8 amount))
  | .depositSubmit address opId xdr =>
      .depositSubmit (w.accountKey (Utf16.string address))
        (some (Utf16.string opId, w.signedXDR (Utf16.string xdr)))
  | .createBuild eventId => .createBuild (Utf16.string eventId)
  | .createSubmit eventId xdr =>
      .createSubmit (Utf16.string eventId) (some (w.signedXDR (Utf16.string xdr)))
  | .startQuote eventId => .startQuote (Utf16.string eventId)
  | .startBuild eventId => .startBuild (Utf16.string eventId)
  | .startSubmit eventId xdr =>
      .startSubmit (Utf16.string eventId) (some (w.signedXDR (Utf16.string xdr)))

def Call.endpoint : Call ν → Endpoint
  | .releaseBuild _ _ => .releaseBuild
  | .releaseSubmit _ _ => .releaseSubmit
  | .walletBalance _ => .walletBalance
  | .depositBuild _ _ => .depositBuild
  | .depositSubmit _ _ _ => .depositSubmit
  | .createBuild _ => .createBuild
  | .createSubmit _ _ => .createSubmit
  | .startQuote _ => .startQuote
  | .startBuild _ => .startBuild
  | .startSubmit _ _ => .startSubmit

/-- A property of each member of a list, found by running through the list. -/
theorem forall_mem_of_all {α : Type} {s : List α} {p : α → Prop} [DecidablePred p]
    (h : (s.all fun u => decide (p u)) = true) : ∀ u ∈ s, p u := fun u hu =>
  of_decide_eq_true (List.all_eq_true.mp h u hu)

/-! ## Path components -/

/-- A byte that is kept stands in a path, and is no slash. -/
theorem encoded_byte : ∀ n < 256, isUnreserved (.ofNat n) = true →
    Service.isEncodedByte (.ofNat n) = true ∧ n ≠ 47 := by decide +kernel

/-- So does a digit of an escape. -/
theorem encoded_digit : ∀ n < 16, Service.isEncodedByte (UriPath.hexDigit n) = true ∧
    UriPath.hexDigit n ≠ 47 := by decide +kernel

/-- The bytes of an encoded component stand in a path as they are. -/
theorem component_byte {bs : Bytes} {b : UInt8} (h : b ∈ UriPath.escape isUnreserved bs) :
    Service.isEncodedByte b = true ∧ b ≠ 47 := by
  rcases UriPath.mem_escape h with hb | rfl | ⟨n, hn, rfl⟩
  · have hspec := encoded_byte b.toNat b.toNat_lt
    rw [UInt8.ofNat_toNat] at hspec
    refine ⟨(hspec hb).1, ?_⟩
    rintro rfl
    exact (hspec hb).2 rfl
  · decide
  · exact encoded_digit n hn

/-- An encoded component is read as the bytes it was made of. -/
theorem unescape_component (bs : Bytes) :
    UriPath.unescape (UriPath.escape isUnreserved bs) = some bs :=
  UriPath.unescape_escape (by decide) bs

/-- The ids that no wildcard of a path stands for: nothing, the dots, and a slash. -/
def unroutable : List CodeUnits := [[], [46], [46, 46], [47]]

/-- The bytes of the other texts are none of these either. -/
theorem utf8_routable {s : CodeUnits} (h : s ∉ unroutable) :
    Utf16.utf8 s ≠ [] ∧ Utf16.utf8 s ≠ [46] ∧ Utf16.utf8 s ≠ [46, 46] ∧ Utf16.utf8 s ≠ [47] := by
  have hall : ∀ t ∈ unroutable, (t.all fun u => decide (u.toNat < 128)) = true := by decide
  have hascii : ∀ t ∈ unroutable, Utf16.Ascii t := fun t ht => forall_mem_of_all (hall t ht)
  have hbytes : ∀ t ∈ unroutable, Utf16.utf8 s ≠ Utf16.utf8 t := fun t ht heq =>
    h (Utf16.eq_of_utf8_eq (hascii t ht) heq ▸ ht)
  exact ⟨hbytes [] (by decide), hbytes [46] (by decide), hbytes [46, 46] (by decide),
    hbytes [47] (by decide)⟩

/-- The component of any other id is kept by a client and by a server. -/
theorem component_kept {s : CodeUnits} (h : s ∉ unroutable) :
    UriPath.Kept (UriPath.escape isUnreserved (Utf16.utf8 s)) ∧
      UriPath.isSingleDot (UriPath.escape isUnreserved (Utf16.utf8 s)) = false ∧
      UriPath.isDoubleDot (UriPath.escape isUnreserved (Utf16.utf8 s)) = false := by
  obtain ⟨hempty, hdot, hdots, -⟩ := utf8_routable h
  have hshort : ∀ t : Bytes, (∀ b ∈ t, b ≠ 37) → Utf16.utf8 s ≠ t →
      UriPath.escape isUnreserved (Utf16.utf8 s) ≠ t := fun t ht hne heq =>
    hne (UriPath.escape_eq_short ht heq)
  have hnodot : ¬ (UriPath.isSingleDot (UriPath.escape isUnreserved (Utf16.utf8 s)) = true ∨
      UriPath.isDoubleDot (UriPath.escape isUnreserved (Utf16.utf8 s)) = true) := by
    intro hdotted
    have hsome := unescape_component (Utf16.utf8 s)
    rcases UriPath.unescape_dot hdotted with hone | htwo
    · exact hdot (Option.some_inj.mp (hsome.symm.trans hone))
    · exact hdots (Option.some_inj.mp (hsome.symm.trans htwo))
  rw [not_or, Bool.not_eq_true, Bool.not_eq_true] at hnodot
  exact ⟨⟨hshort [] (forall_mem_of_all rfl) hempty, hshort [46] (forall_mem_of_all rfl) hdot,
    hshort [46, 46] (forall_mem_of_all rfl) hdots⟩, hnodot⟩

/-! ## Bodies -/

section
variable {w : Codec ν}

/-- The service reads the value a body was written from. -/
theorem decodeBody_text (v : Value ν) :
    w.decodeBody (Utf16.utf8 (v.text w.numbers)) = Service.fieldsOf (v.readBack w.numbers) := by
  rw [Codec.decodeBody, Utf16.utf8Decode_utf8 (JsonText.wellFormed_text v),
    JsonText.firstValue_of_parse _ (JsonText.parse_text v), Option.bind_some]

/-- A field is found under its own name. -/
theorem sameName_refl (name : CodeUnits) : Service.sameName name name = true := decide_eq_true rfl

/-- A field on its own. -/
theorem decodeField_one {α : Type} {decode : Value ν → Option α} {name : String} {zero : α}
    {v : Value ν} (hv : v ≠ .null) :
    Service.decodeField decode name zero [(Utf16.ofString name, v)] = decode v := by
  rw [Service.decodeField, List.foldlM_cons, sameName_refl, if_pos rfl]
  cases v with
  | null => exact absurd rfl hv
  | _ => exact bind_pure _

/-- The service reads the envelope that a submit sends. -/
theorem submitRequest_text (xdr : CodeUnits) :
    w.submitRequest (Utf16.utf8 ((object [("signedTransactionXdr", .str xdr)]).text w.numbers))
      = some (w.signedXDR (Utf16.string xdr)) := by
  have hfields : Service.fieldsOf ((object [("signedTransactionXdr", .str xdr)]).readBack w.numbers)
      = some [(Utf16.ofString "signedTransactionXdr", .str xdr)] := rfl
  rw [Codec.submitRequest, decodeBody_text, hfields, Option.bind_eq_bind, Option.bind_some,
    decodeField_one (by rintro ⟨⟩)]
  rfl

/-- The service reads the amount that a deposit names. -/
theorem depositBuildRequest_text (amount : CodeUnits) :
    w.depositBuildRequest (Utf16.utf8 ((object [("amount", .str amount)]).text w.numbers))
      = some (Utf16.utf8 amount) := by
  have hfields : Service.fieldsOf ((object [("amount", .str amount)]).readBack w.numbers)
      = some [(Utf16.ofString "amount", .str amount)] := rfl
  rw [Codec.depositBuildRequest, decodeBody_text, hfields, Option.bind_eq_bind, Option.bind_some,
    decodeField_one (by rintro ⟨⟩)]
  rfl

/-- The service reads the id and the envelope that the submit of a deposit sends. -/
theorem depositSubmitRequest_text (opId xdr : CodeUnits) :
    w.depositSubmitRequest (Utf16.utf8
        ((object [("opId", .str opId), ("signedTransactionXdr", .str xdr)]).text w.numbers))
      = some (Utf16.string opId, w.signedXDR (Utf16.string xdr)) := by
  have hfields : Service.fieldsOf
      ((object [("opId", .str opId), ("signedTransactionXdr", .str xdr)]).readBack w.numbers)
        = some [(Utf16.ofString "opId", .str opId),
          (Utf16.ofString "signedTransactionXdr", .str xdr)] := rfl
  have hopId : Service.sameName (Utf16.ofString "opId") (Utf16.ofString "signedTransactionXdr")
      = false := by decide
  have hxdr : Service.sameName (Utf16.ofString "signedTransactionXdr") (Utf16.ofString "opId")
      = false := by decide
  rw [Codec.depositSubmitRequest, decodeBody_text, hfields, Option.bind_eq_bind, Option.bind_some]
  simp only [Service.decodeField, List.foldlM_cons, List.foldlM_nil, sameName_refl, hopId, hxdr,
    if_true, Service.decodeString, Option.bind_eq_bind, Option.bind_some]
  rfl

/-- The items of a list are read back one by one. -/
theorem readBackItems_map {α : Type} {f : α → Value ν} (l : List α) :
    JsonText.readBackItems w.numbers (l.map f) = l.map fun a => (f a).readBack w.numbers := by
  induction l with
  | nil => rfl
  | cons a l ih => rw [List.map_cons, JsonText.readBackItems, ih, List.map_cons]

/-- An assignment is read with its rank and its team, whatever the rank is. -/
theorem decodeAssignment_json (a : ReleaseAssignment ν) :
    w.decodeAssignment (a.json.readBack w.numbers) = a.read w := by
  have hjson : a.json.readBack w.numbers = .obj [(Utf16.ofString "rank",
      if w.numbers.isFinite a.rank then .num a.rank else .null),
      (Utf16.ofString "teamId", .str a.teamId)] := rfl
  have hrank : Service.sameName (Utf16.ofString "rank") (Utf16.ofString "teamId") = false := by
    decide
  have hteam : Service.sameName (Utf16.ofString "teamId") (Utf16.ofString "rank") = false := by
    decide
  rw [hjson, ReleaseAssignment.read]
  split
  all_goals
    rw [Codec.decodeAssignment, Service.fieldsOf, Option.bind_eq_bind, Option.bind_some]
    simp only [Service.decodeField, List.foldlM_cons, List.foldlM_nil, sameName_refl, hrank, hteam,
      if_true, Service.decodeString, Codec.decodeInt, Option.bind_eq_bind, Option.bind_some]
  · cases w.int64 a.rank <;> rfl
  · rfl

/-- The service reads the assignments that a release names, or refuses the list. -/
theorem releaseBuildRequest_text (assignments : List (ReleaseAssignment ν)) :
    w.releaseBuildRequest (Utf16.utf8
        ((object [("assignments", .arr (assignments.map (·.json)))]).text w.numbers))
      = assignments.mapM (·.read w) := by
  rw [Codec.releaseBuildRequest, decodeBody_text]
  show Service.decodeField _ _ _ [(Utf16.ofString "assignments",
    .arr (JsonText.readBackItems w.numbers (assignments.map (·.json))))] = _
  rw [decodeField_one (by rintro ⟨⟩), readBackItems_map]
  show (assignments.map fun a => a.json.readBack w.numbers).mapM w.decodeAssignment = _
  rw [List.mapM_map]
  exact congrArg (assignments.mapM ·) (funext decodeAssignment_json)

/-- The body of the request a call is sent as. -/
def Call.bytes (N : Numbers ν) (c : Call ν) : Bytes :=
  if c.method = .post then Utf16.utf8 (c.body.text N) else []

/-- An endpoint that is given the call's id and body has the call's route. -/
theorem route_of_call (c : Call ν) :
    w.route (Utf16.string c.target) (c.bytes w.numbers) c.endpoint = c.route w := by
  have hpost : ∀ {c : Call ν}, c.method = .post → c.bytes w.numbers
      = Utf16.utf8 (c.body.text w.numbers) := fun h => if_pos h
  cases c with
  | releaseBuild eventId assignments =>
      rw [hpost rfl]
      exact congrArg (Route.releaseBuild _) (releaseBuildRequest_text assignments)
  | releaseSubmit eventId xdr =>
      rw [hpost rfl]
      exact congrArg (Route.releaseSubmit _) (submitRequest_text xdr)
  | walletBalance address => rfl
  | depositBuild address amount =>
      rw [hpost rfl]
      exact congrArg (Route.depositBuild _) (depositBuildRequest_text amount)
  | depositSubmit address opId xdr =>
      rw [hpost rfl]
      exact congrArg (Route.depositSubmit _) (depositSubmitRequest_text opId xdr)
  | createBuild eventId => rfl
  | createSubmit eventId xdr =>
      rw [hpost rfl]
      exact congrArg (Route.createSubmit _) (submitRequest_text xdr)
  | startQuote eventId => rfl
  | startBuild eventId => rfl
  | startSubmit eventId xdr =>
      rw [hpost rfl]
      exact congrArg (Route.startSubmit _) (submitRequest_text xdr)

end

/-! ## Paths -/

/-- What stands before the component, and behind it. -/
def Call.root (c : Call ν) : Bytes := ascii c.template.1

def Call.rest (c : Call ν) : List Bytes := c.template.2.2.map ascii

/-- The row of the router that is meant for a call. -/
def Call.row (c : Call ν) : Service.Row := ⟨c.method, c.root, c.rest, c.endpoint⟩

/-- Every call of the client has a row in the router. -/
theorem row_mem (c : Call ν) : c.row ∈ Service.routes := by
  cases c with
  | releaseBuild => exact List.mem_of_getElem? (i := 0) rfl
  | releaseSubmit => exact List.mem_of_getElem? (i := 1) rfl
  | walletBalance => exact List.mem_of_getElem? (i := 2) rfl
  | depositBuild => exact List.mem_of_getElem? (i := 3) rfl
  | depositSubmit => exact List.mem_of_getElem? (i := 4) rfl
  | createBuild => exact List.mem_of_getElem? (i := 5) rfl
  | createSubmit => exact List.mem_of_getElem? (i := 6) rfl
  | startQuote => exact List.mem_of_getElem? (i := 7) rfl
  | startBuild => exact List.mem_of_getElem? (i := 8) rfl
  | startSubmit => exact List.mem_of_getElem? (i := 9) rfl

/-- A segment that neither a client nor a server changes. -/
structure Literal (s : Bytes) : Prop where
  kept : UriPath.Kept s
  undotted : UriPath.isSingleDot s = false ∧ UriPath.isDoubleDot s = false
  stands : Service.Stands s

/-- The segments of the router's patterns stand in a path as they are. -/
theorem literal_of_row : ∀ row ∈ Service.routes, ∀ s ∈ row.root :: row.rest, Literal s := by
  have hall : ∀ row ∈ Service.routes, ∀ s ∈ row.root :: row.rest,
      (s ≠ [] ∧ s ≠ [46] ∧ s ≠ [46, 46]) ∧
        (UriPath.isSingleDot s = false ∧ UriPath.isDoubleDot s = false) ∧
        (UriPath.unescape s).isSome = true ∧
        ∀ b ∈ s, Service.isEncodedByte b = true ∧ b ≠ 47 := by decide +kernel
  intro row hrow s hs
  obtain ⟨hkept, hundotted, hreads, hencoded⟩ := hall row hrow s hs
  exact ⟨hkept, hundotted, hreads, hencoded⟩

/-- A row is found by its own segments. -/
theorem findRow_self : ∀ row ∈ Service.routes,
    Service.findRow row.method row.root row.rest = some row := by decide +kernel

/-- A slash that is encoded. -/
def slash : Bytes := [37, 50, 70]

/-- A row's paths for the ids that no wildcard stands for: without the component, without what is
before it too, and with a slash in its place. -/
def unroutablePaths (row : Service.Row) : List (List Bytes) :=
  [row.root :: row.rest, row.rest, row.root :: slash :: row.rest]

/-- None of these paths has a route. -/
theorem lookup_unroutable : ∀ row ∈ Service.routes, ∀ segs ∈ unroutablePaths row,
    ∀ m ∈ [row.method, UriPath.Method.get],
      UriPath.lookup Service.mux m segs = .found false [] ∧
        UriPath.lookup Service.authed m segs = .notFound := by decide +kernel

/-- The component a call's id is encoded as. -/
def Call.component (c : Call ν) : Bytes := UriPath.escape isUnreserved (Utf16.utf8 c.target)

/-- So does an encoded component. -/
theorem stands_component (c : Call ν) : Service.Stands c.component :=
  ⟨by rw [Call.component, unescape_component, Option.isSome_some], fun _ hb => component_byte hb⟩

/-- The path of a call has its component between the segments of its row. -/
theorem path_of_call {c : Call ν} (h : Utf16.wellFormed c.target = true) :
    c.path = some (UriPath.ofSegments (c.root :: c.component :: c.rest)) := by
  have hpath : c.path = (encodeURIComponent c.target).map fun component =>
      UriPath.ofSegments (c.root :: component :: c.rest) := rfl
  rw [hpath, encodeURIComponent, if_pos h]
  rfl

/-- The segments of a call's path, when a wildcard stands for its id. -/
theorem segments_of_call {c : Call ν} (h : c.target ∉ unroutable) :
    ∀ s ∈ c.root :: c.component :: c.rest, Literal s := by
  obtain ⟨hkept, hundotted⟩ := component_kept h
  have hliteral := literal_of_row c.row (row_mem c)
  rw [List.forall_mem_cons] at hliteral ⊢
  exact ⟨hliteral.1, List.forall_mem_cons.mpr
    ⟨⟨hkept, hundotted, stands_component c⟩, hliteral.2⟩⟩

/-- A path without dots is the path of its URL. -/
theorem pathname_ofSegments {segs : List Bytes} (hne : segs ≠ [])
    (h : ∀ s ∈ segs, 47 ∉ s ∧ UriPath.isSingleDot s = false ∧ UriPath.isDoubleDot s = false) :
    pathname (UriPath.ofSegments segs) = UriPath.ofSegments segs := by
  rw [pathname, UriPath.segments_ofSegments hne fun s hs => (h s hs).1,
    UriPath.removeDots_plain [] fun s hs => (h s hs).2]
  rfl

/-! ## Headers -/

/-- A text of visible ASCII characters. -/
def Visible (s : CodeUnits) : Prop := ∀ u ∈ s, 32 < u.toNat ∧ u.toNat < 127

/-- A visible text is ASCII. -/
theorem Visible.ascii {s : CodeUnits} (h : Visible s) : Utf16.Ascii s := fun u hu => by
  have := h u hu
  omega

/-- A visible character is no space of a header. -/
theorem not_space {u : UInt16} (h : 32 < u.toNat) : isHttpSpace u = false := by
  simp only [isHttpSpace, Bool.or_eq_false_iff, decide_eq_false_iff_not, ← UInt16.toNat_inj,
    UInt16.reduceToNat]
  omega

/-- A visible text is sent as it is, also behind the words of a scheme. -/
theorem headerValue_append {scheme s : CodeUnits} (hs : Visible s) (hne : s ≠ [])
    (hfirst : ∀ u ∈ scheme.take 1, 32 < u.toNat)
    (hscheme : ∀ u ∈ scheme, 32 ≤ u.toNat ∧ u.toNat < 127) :
    headerValue (scheme ++ s) = some ((scheme ++ s).map UInt16.toUInt8) := by
  have hall : ∀ u ∈ scheme ++ s, 32 ≤ u.toNat ∧ u.toNat < 127 := by
    refine List.forall_mem_append.mpr ⟨hscheme, fun u hu => ?_⟩
    have := hs u hu
    omega
  have hdrop : ∀ l : CodeUnits, (∀ u ∈ l.head?, 32 < u.toNat) → l.dropWhile isHttpSpace = l := by
    intro l hl
    cases l with
    | nil => rfl
    | cons u l => rw [List.dropWhile_cons, not_space (hl u rfl), if_neg Bool.false_ne_true]
  have hhead : ∀ u ∈ (scheme ++ s).head?, 32 < u.toNat := by
    intro u hu
    cases scheme with
    | nil => exact (hs u (List.mem_of_mem_head? hu)).1
    | cons v scheme =>
        obtain rfl := Option.some_inj.mp hu
        exact hfirst v List.mem_cons_self
  have hlast : ∀ u ∈ (scheme ++ s).reverse.head?, 32 < u.toNat := by
    intro u hu
    rw [List.head?_reverse, List.getLast?_append_of_ne_nil _ hne] at hu
    exact (hs u (List.mem_of_mem_getLast? hu)).1
  have hsent : ((scheme ++ s).all fun u => u.toNat < 256 && u ≠ 0 && u ≠ 10 && u ≠ 13) = true := by
    rw [List.all_eq_true]
    intro u hu
    have hu := hall u hu
    simp only [Bool.and_eq_true, decide_eq_true_eq, ne_eq, ← UInt16.toNat_inj, UInt16.reduceToNat]
    omega
  unfold headerValue
  simp only [hdrop _ hhead, hdrop _ hlast, List.reverse_reverse, hsent, if_true]

/-- The service reads the text of a header. -/
theorem goText_ascii {s : CodeUnits} (h : Utf16.Ascii s) :
    goText (s.map UInt16.toUInt8) = Utf16.string s := by
  rw [goText, ← Utf16.utf8_ascii h, Utf16.utf8Decode_utf8 h.wellFormed]

/-- The client is configured for the service: it has its URL and its token, of visible
characters. -/
structure Env.Reaches (env : Env) (deps : Deps) : Prop where
  url : (truthy env.coreGoUrl).isSome = true
  token : env.coreGoServiceToken = some (Utf16.ofString deps.serviceToken)
  nonempty : Utf16.ofString deps.serviceToken ≠ []
  visible : Visible (Utf16.ofString deps.serviceToken)

/-- The request that a call becomes. -/
theorem send_eq {N : Numbers ν} {deps : Deps} {env : Env} (henv : env.Reaches deps) {c : Call ν}
    (hc : Utf16.wellFormed c.target = true) {wallet : CodeUnits} (hwallet : Visible wallet)
    (hne : wallet ≠ []) :
    send N env c wallet = .ok {
      method := c.method
      path := pathname (UriPath.ofSegments (c.root :: c.component :: c.rest))
      authorization := (Utf16.ofString ("Bearer " ++ deps.serviceToken)).map UInt16.toUInt8
      wallet := wallet.map UInt16.toUInt8
      body := c.bytes N } := by
  obtain ⟨url, hurl⟩ := Option.isSome_iff_exists.mp henv.url
  have htoken : truthy env.coreGoServiceToken = some (Utf16.ofString deps.serviceToken) := by
    rw [henv.token, truthy, Option.filter_some, if_pos (decide_eq_true henv.nonempty)]
  have hbearer : headerValue (Utf16.ofString "Bearer " ++ Utf16.ofString deps.serviceToken)
      = some ((Utf16.ofString ("Bearer " ++ deps.serviceToken)).map UInt16.toUInt8) := by
    rw [headerValue_append henv.visible henv.nonempty (forall_mem_of_all (by decide))
      (forall_mem_of_all (by decide)), Utf16.ofString_append]
  have hheader : headerValue wallet = some (wallet.map UInt16.toUInt8) :=
    @headerValue_append [] wallet hwallet hne (forall_mem_of_all rfl) (forall_mem_of_all rfl)
  rw [send, path_of_call hc, config, hurl, htoken, hheader]
  show (Guard.expect (headerValue _) _).bind _ = _
  rw [hbearer]
  rfl

/-! ## Replies -/

section
variable {w : Codec ν} {deps : Deps}

/-- The service's error becomes the client's, with its code and its message. -/
theorem receive_error {status : ℕ} {code : String} {message : Service.Message}
    (h : ¬ (200 ≤ status ∧ status < 300)) :
    receive w.numbers (w.reply (Service.writeError status code message))
      = .error (.coreGo status (Utf16.ofString code) (Utf16.ofString (w.message message))) := by
  have hcode : Utf16.ofString "message" ≠ Utf16.ofString "code" := by decide
  have hjson : ∀ err : Value ν, (object [("error", err)]).readBack w.numbers
      = .obj [(Utf16.ofString "error", err.readBack w.numbers)] := fun err => rfl
  have hdetail : (object [("code", Service.string code),
      ("message", Service.string (w.message message))]).readBack w.numbers
        = .obj [(Utf16.ofString "code", .str (Utf16.ofString code)),
          (Utf16.ofString "message", .str (Utf16.ofString (w.message message)))] := rfl
  simp only [Service.writeError, Codec.reply, Codec.text, receive, w.parse_encode, hjson, hdetail,
    if_neg h, errorBody, property, List.reverse_cons, List.reverse_nil, List.nil_append,
    List.singleton_append, List.find?_cons, decide_true, decide_eq_false hcode, Option.map_some]

/-- A text that is no JSON is an error of the transport. -/
theorem receive_notFound {N : Numbers ν} :
    receive N (some Service.notFound)
      = .error (.transport 404 (Utf16.ofString "404 page not found\n")) := by
  rfl

/-- What the client throws when no route is found. -/
def missed (w : Codec ν) (wallet : CodeUnits) : Thrown :=
  if (w.accountKey (Utf16.string wallet)).isSome then
    .transport 404 (Utf16.ofString "404 page not found\n")
  else .coreGo 400 (Utf16.ofString "invalid_wallet") (Utf16.ofString
    (w.message ⟨"X-Astrea-Wallet must be a valid Stellar account address", []⟩))

/-- The middleware accepts the service's own token. -/
theorem validBearer_self (token : String) :
    Service.validBearer ("Bearer " ++ token) token = true := by
  rw [Service.validBearer, String.toList_append, Bool.and_eq_true, List.isPrefixOf_iff_prefix]
  exact ⟨List.prefix_append _ _, beq_iff_eq.mpr (List.drop_left' rfl)⟩

/-- A request with the service's token and this wallet. -/
structure Sent (deps : Deps) (wallet : CodeUnits) (r : HttpRequest) : Prop where
  authorization : r.authorization
    = (Utf16.ofString ("Bearer " ++ deps.serviceToken)).map UInt16.toUInt8
  wallet : r.wallet = wallet.map UInt16.toUInt8

variable {wallet : CodeUnits} {r : HttpRequest}

/-- Who the service takes the sender for. -/
theorem Sent.request (hr : Sent deps wallet r)
    (htoken : Utf16.Ascii (Utf16.ofString deps.serviceToken)) (hwallet : Utf16.Ascii wallet)
    (route : Route) :
    w.request r route
      = ⟨"Bearer " ++ deps.serviceToken, w.accountKey (Utf16.string wallet), route⟩ := by
  have hbearer : Utf16.Ascii (Utf16.ofString ("Bearer " ++ deps.serviceToken)) := by
    rw [Utf16.ofString_append]
    exact List.forall_mem_append.mpr ⟨forall_mem_of_all (by decide), htoken⟩
  rw [Codec.request, hr.authorization, hr.wallet, goText_ascii hbearer, goText_ascii hwallet,
    Utf16.string_ofString]

/-- A path with no route, as the client hears of it. -/
theorem Sent.missed (hr : Sent deps wallet r)
    (htoken : Utf16.Ascii (Utf16.ofString deps.serviceToken)) (hwallet : Utf16.Ascii wallet) :
    ∃ reply : HttpReply, reply.location = none ∧
      receive w.numbers (some reply) = .error (missed w wallet) ∧
      (Service.requireAuth deps (w.request r .healthz)).run.bind (fun
          | .error a => .ret (w.reply a)
          | .ok _ => .ret (some Service.notFound)) = .ret (some reply) := by
  rw [hr.request htoken hwallet, CoreGo.missed]
  have hrun : ∀ key : Option (BitVec 256), (Service.requireAuth deps
      ⟨"Bearer " ++ deps.serviceToken, key, .healthz⟩).run = .ret (match key with
        | some k => .ok (.account k)
        | none => .error (Service.writeError 400 "invalid_wallet"
            ⟨"X-Astrea-Wallet must be a valid Stellar account address", []⟩)) := by
    intro key
    rw [Service.requireAuth, Interleave.Guarded.ensure, if_pos (validBearer_self _)]
    cases key <;> rfl
  rw [hrun]
  cases w.accountKey (Utf16.string wallet) with
  | some key => exact ⟨_, rfl, receive_notFound, rfl⟩
  | none => exact ⟨_, rfl, receive_error (by decide), rfl⟩

/-- The segments of the paths without a route stand in them as they are. -/
theorem literal_of_unroutable {row : Service.Row} (hrow : row ∈ Service.routes) {segs : List Bytes}
    (hsegs : segs ∈ unroutablePaths row) : segs ≠ [] ∧ ∀ s ∈ segs, Literal s := by
  have hrest : ∀ row ∈ Service.routes, row.rest ≠ [] := by decide
  have hslash : Literal slash := ⟨by unfold UriPath.Kept; decide, by decide, by decide,
    forall_mem_of_all (by decide)⟩
  have hliteral := literal_of_row row hrow
  rw [List.forall_mem_cons] at hliteral
  simp only [unroutablePaths, List.mem_cons, List.not_mem_nil, or_false] at hsegs
  rcases hsegs with rfl | rfl | rfl
  · exact ⟨List.cons_ne_nil _ _, List.forall_mem_cons.mpr hliteral⟩
  · exact ⟨hrest row hrow, hliteral.2⟩
  · refine ⟨List.cons_ne_nil _ _, List.forall_mem_cons.mpr ⟨hliteral.1, ?_⟩⟩
    exact List.forall_mem_cons.mpr ⟨hslash, hliteral.2⟩

/-- A path without a route is not found. -/
theorem Sent.new_missed (hr : Sent deps wallet r)
    (htoken : Utf16.Ascii (Utf16.ofString deps.serviceToken)) (hwallet : Utf16.Ascii wallet)
    {row : Service.Row} (hrow : row ∈ Service.routes) {segs : List Bytes}
    (hsegs : segs ∈ unroutablePaths row) (hpath : r.path = UriPath.ofSegments segs)
    (hm : r.method ∈ [row.method, UriPath.Method.get]) :
    ∃ reply : HttpReply, reply.location = none ∧
      receive w.numbers (some reply) = .error (CoreGo.missed w wallet) ∧
      Service.new w deps r = .ret (some reply) := by
  obtain ⟨hne, hliteral⟩ := literal_of_unroutable hrow hsegs
  obtain ⟨hmux, hnone⟩ := lookup_unroutable row hrow segs hsegs r.method hm
  obtain ⟨reply, hlocation, hreceive, hreply⟩ := hr.missed (w := w) htoken hwallet
  refine ⟨reply, hlocation, hreceive, ?_⟩
  rw [Service.new_ofSegments w hpath hne (fun s hs => (hliteral s hs).stands)
      (fun s hs => (hliteral s hs).kept) hmux,
    Service.serveAuthed_notFound w hne (fun s hs => (hliteral s hs).stands)
      (fun s hs => (hliteral s hs).kept) hnone]
  exact hreply

/-- The paths of these ids, and where the empty one is redirected to. -/
theorem unroutable_paths : ∀ row ∈ Service.routes,
    pathname (UriPath.ofSegments (row.root :: [46] :: row.rest))
        = UriPath.ofSegments (row.root :: row.rest) ∧
      pathname (UriPath.ofSegments (row.root :: [46, 46] :: row.rest))
        = UriPath.ofSegments row.rest ∧
      pathname (UriPath.ofSegments (row.root :: slash :: row.rest))
        = UriPath.ofSegments (row.root :: slash :: row.rest) ∧
      pathname (UriPath.ofSegments (row.root :: [] :: row.rest))
        = UriPath.ofSegments (row.root :: [] :: row.rest) ∧
      Service.escapedPath (UriPath.ofSegments (row.root :: [] :: row.rest))
        = some (UriPath.ofSegments (row.root :: [] :: row.rest)) ∧
      UriPath.findHandler Service.mux row.method (UriPath.ofSegments (row.root :: [] :: row.rest))
        = .redirect (UriPath.ofSegments (row.root :: row.rest)) ∧
      pathname (UriPath.escape Service.isPathByte (UriPath.ofSegments (row.root :: row.rest)))
        = UriPath.ofSegments (row.root :: row.rest) := by decide +kernel

/-! ## The network -/

variable {env : Env} {c : Call ν} {net : ℕ → Delivery}

section Fetch

variable {server : HttpRequest → Prog Service.Op Service.Op.Res (Option HttpReply)} {n : ℕ}
  {reply : HttpReply}

/-- A reply that is no redirect is what the client receives, if it is carried. -/
theorem fetch_reply (hlocation : reply.location = none) (hreply : server r = .ret (some reply)) :
    fetch server (n + 1) net r = .ret (if net 0 = .carried then some reply else none) := by
  rw [fetch, hreply]
  cases net 0 with
  | carried => simp only [Delivery.carry, Prog.bind, Option.bind_some, hlocation, if_true]
  | unanswered => rfl
  | unreached => rfl

/-- A redirect is followed, if it is carried. -/
theorem fetch_redirect {location : Bytes} (hlocation : reply.location = some location)
    (hreply : server r = .ret (some reply)) :
    fetch server (n + 1) net r =
      if net 0 = .carried then fetch server n (fun i => net (i + 1)) (redirected r location)
      else .ret none := by
  rw [fetch, hreply]
  cases net 0 with
  | carried => simp only [Delivery.carry, Prog.bind, Option.bind_some, hlocation, if_true]
  | unanswered => rfl
  | unreached => rfl

end Fetch

/-- A path without a route is not found, if the exchange is carried. -/
theorem Sent.fetch_missed (hr : Sent deps wallet r)
    (htoken : Utf16.Ascii (Utf16.ofString deps.serviceToken)) (hwallet : Utf16.Ascii wallet)
    {row : Service.Row} (hrow : row ∈ Service.routes) {segs : List Bytes}
    (hsegs : segs ∈ unroutablePaths row) (hpath : r.path = UriPath.ofSegments segs)
    (hm : r.method ∈ [row.method, UriPath.Method.get]) {n : ℕ} :
    (fetch (Service.new w deps) (n + 1) net r).bind (fun reply => .ret (receive w.numbers reply))
      = .ret (.error (if net 0 = .carried then CoreGo.missed w wallet else .other)) := by
  obtain ⟨reply, hnone, hreceive, hreply⟩ :=
    hr.new_missed (w := w) htoken hwallet hrow hsegs hpath hm
  rw [fetch_reply hnone hreply]
  refine congrArg Prog.ret ?_
  split_ifs
  · exact hreceive
  · rfl

/-- The network carries all the exchanges of a call: one, or two when an empty id is redirected. -/
def Call.Delivered (c : Call ν) (net : ℕ → Delivery) : Prop :=
  net 0 = .carried ∧ (c.target = [] → net 1 = .carried)

instance : Decidable (c.Delivered net) := inferInstanceAs (Decidable (_ ∧ (_ → _)))

/-- With an id that no wildcard stands for, a call is not found. -/
theorem request_unroutable (henv : env.Reaches deps) (hwallet : Visible wallet) (hne : wallet ≠ [])
    (htarget : c.target ∈ unroutable) :
    request w.numbers net (Service.new w deps) env c wallet
      = .ret (.error (if c.Delivered net then missed w wallet else .other)) := by
  have hwell : ∀ t ∈ unroutable, Utf16.wellFormed t = true := by decide
  have hrow := row_mem c
  obtain ⟨hdot, hdouble, hslash, hempty, hescaped, hredirect, hlocation⟩ :=
    unroutable_paths c.row hrow
  have hcomponent : ∀ t, c.target = t → c.component = UriPath.escape isUnreserved (Utf16.utf8 t) :=
    fun t ht => congrArg _ (congrArg _ ht)
  have hsent := send_eq (N := w.numbers) henv (hwell _ htarget) hwallet hne
  -- there is one exchange, unless the id is empty
  have hone : c.target ≠ [] → (c.Delivered net ↔ net 0 = .carried) := fun hfull =>
    and_iff_left fun hnil => absurd hnil hfull
  have hascii := henv.visible.ascii
  rw [request, hsent]
  simp only [unroutable, List.mem_cons, List.not_mem_nil, or_false] at htarget
  rcases htarget with ht | ht | ht | ht
  · -- the empty component is redirected first
    rw [hcomponent _ ht]
    have hpath : pathname (UriPath.ofSegments (c.root :: [] :: c.rest))
        = UriPath.ofSegments (c.root :: [] :: c.rest) := hempty
    have hnew : Service.new w deps {
        method := c.method
        path := UriPath.ofSegments (c.root :: [] :: c.rest)
        authorization := (Utf16.ofString ("Bearer " ++ deps.serviceToken)).map UInt16.toUInt8
        wallet := wallet.map UInt16.toUInt8
        body := c.bytes w.numbers }
          = .ret (some (Service.redirectTo (UriPath.ofSegments (c.root :: c.rest)))) :=
      Service.new_redirect w hescaped hredirect
    show (fetch _ 21 net ⟨c.method, pathname (UriPath.ofSegments (c.root :: [] :: c.rest)),
      _, _, _⟩).bind _ = _
    rw [hpath, fetch_redirect rfl hnew]
    by_cases hnet : net 0 = .carried
    · rw [if_pos hnet]
      have hdelivered : c.Delivered net ↔ net 1 = .carried :=
        ⟨fun h => h.2 ht, fun h => ⟨hnet, fun _ => h⟩⟩
      simp only [hdelivered]
      refine Sent.fetch_missed ⟨rfl, rfl⟩ hascii hwallet.ascii hrow List.mem_cons_self hlocation
        (List.mem_pair.mpr ?_)
      cases c <;> exact .inr rfl
    · rw [if_neg hnet, if_neg fun h : c.Delivered net => hnet h.1]
      rfl
  · rw [hcomponent _ ht]
    simp only [hone (ht ▸ List.cons_ne_nil _ _)]
    exact Sent.fetch_missed ⟨rfl, rfl⟩ hascii hwallet.ascii hrow List.mem_cons_self hdot
      List.mem_cons_self
  · rw [hcomponent _ ht]
    simp only [hone (ht ▸ List.cons_ne_nil _ _)]
    exact Sent.fetch_missed ⟨rfl, rfl⟩ hascii hwallet.ascii hrow
      (List.mem_cons_of_mem _ List.mem_cons_self) hdouble List.mem_cons_self
  · rw [hcomponent _ ht]
    simp only [hone (ht ▸ List.cons_ne_nil _ _)]
    refine Sent.fetch_missed ⟨rfl, rfl⟩ hascii hwallet.ascii hrow ?_ hslash List.mem_cons_self
    exact List.mem_cons_of_mem _ (List.mem_cons_of_mem _ List.mem_cons_self)

/-- With any other id, the service serves the call as the route it names, and the reply is what the
network leaves of it. -/
theorem request_served (henv : env.Reaches deps) (hwallet : Visible wallet) (hne : wallet ≠ [])
    (hwell : Utf16.wellFormed c.target = true) (htarget : c.target ∉ unroutable) :
    request w.numbers net (Service.new w deps) env c wallet
      = ((net 0).carry ((Service.serve deps ⟨"Bearer " ++ deps.serviceToken,
          w.accountKey (Utf16.string wallet), c.route w⟩).bind fun a => .ret (w.reply a))).bind
        fun reply => .ret (receive w.numbers reply) := by
  have hsegs := segments_of_call htarget
  have hstands := fun s hs => (hsegs s hs).stands
  have hkept := fun s hs => (hsegs s hs).kept
  have hslash : ∀ s ∈ c.root :: c.component :: c.rest, 47 ∉ s :=
    fun s hs hmem => ((hstands s hs).encoded 47 hmem).2 rfl
  have hpath : pathname (UriPath.ofSegments (c.root :: c.component :: c.rest))
      = UriPath.ofSegments (c.root :: c.component :: c.rest) :=
    pathname_ofSegments (List.cons_ne_nil _ _) fun s hs => ⟨hslash s hs, (hsegs s hs).undotted⟩
  rw [request, send_eq henv hwell hwallet hne, hpath]
  have hnew : Service.new w deps {
      method := c.method
      path := UriPath.ofSegments (c.root :: c.component :: c.rest)
      authorization := (Utf16.ofString ("Bearer " ++ deps.serviceToken)).map UInt16.toUInt8
      wallet := wallet.map UInt16.toUInt8
      body := c.bytes w.numbers }
        = (Service.serve deps ⟨"Bearer " ++ deps.serviceToken, w.accountKey (Utf16.string wallet),
            c.route w⟩).bind fun a => .ret (w.reply a) := by
    rw [Service.new_ofSegments w rfl (List.cons_ne_nil _ _) hstands hkept Service.lookup_mux,
      Service.serveAuthed_row w hstands hkept (unescape_component _) (utf8_routable htarget).2.2.2
        (findRow_self _ (row_mem c)),
      Sent.request ⟨rfl, rfl⟩ henv.visible.ascii hwallet.ascii, goText, Utf16.utf8Decode_utf8 hwell]
    exact congrArg (fun route => (Service.serve deps ⟨_, _, route⟩).bind _) (route_of_call c)
  show (fetch _ 21 net _).bind _ = _
  rw [fetch, hnew]
  -- whatever is carried, the service's replies are no redirects
  cases net 0 with
  | carried =>
      rw [Delivery.carry, Prog.bind_bind, Prog.bind_bind, Prog.bind_bind]
      refine congrArg _ (funext fun a => ?_)
      simp only [Prog.bind, Service.reply_location]
  | unanswered =>
      simp only [Delivery.carry, Prog.bind_bind]
      rfl
  | unreached => rfl

/-- An id with a lone surrogate is not sent. -/
theorem request_unsent {server : HttpRequest → Prog Service.Op Service.Op.Res (Option HttpReply)}
    (hwell : ¬ Utf16.wellFormed c.target = true) :
    request w.numbers net server env c wallet = .ret (.error .other) := by
  have hpath : c.path = none := by
    show (encodeURIComponent c.target).map _ = none
    rw [encodeURIComponent, if_neg hwell, Option.map_none]
  rw [request, send, hpath]
  rfl

end

/-- A call is served as the route it names, by the service that takes its wallet for the caller,
and its caller hears what the reply says, as far as the network carries it.  With an empty id, dots
or a slash it is not found; with a lone surrogate in the id it is not sent. -/
theorem calls_arrive {w : Codec ν} {deps : Deps} {env : Env} (henv : env.Reaches deps)
    {wallet : CodeUnits} (hwallet : Visible wallet) (hne : wallet ≠ []) (net : ℕ → Delivery)
    (c : Call ν) :
    request w.numbers net (Service.new w deps) env c wallet =
      if Utf16.wellFormed c.target = true then
        if c.target ∈ unroutable then
          .ret (.error (if c.Delivered net then missed w wallet else .other))
        else
          ((net 0).carry ((Service.serve deps ⟨"Bearer " ++ deps.serviceToken,
              w.accountKey (Utf16.string wallet), c.route w⟩).bind fun a => .ret (w.reply a))).bind
            fun reply => .ret (receive w.numbers reply)
      else .ret (.error .other) := by
  split
  · rename_i hwell
    split
    · exact request_unroutable henv hwallet hne ‹_›
    · rename_i htarget
      exact request_served henv hwallet hne hwell htarget
  · exact request_unsent ‹_›

/-! ## A path in an id -/

namespace Sample

/-- A codec of integers, which knows one account. -/
def codec : Codec ℤ where
  numbers := JsonText.integers
  encode := fun v => v.text JsonText.integers
  parse_encode := JsonText.parse_text
  int64 := fun z => if -2 ^ 63 ≤ z ∧ z < 2 ^ 63 then some (.ofInt z) else none
  ofInt64 := Int64.toInt
  isFinite_ofInt64 := fun _ => rfl
  accountKey := fun s => if s = "GALICE" then some 1 else none
  address := fun _ => "GALICE"
  decodeXDR := .undecodable
  encodeXDR := fun _ => ""
  txHash := fun _ => ""
  eventID := fun _ => ""
  message := (·.format)

def deps : Deps := ⟨"token", .account 0, ⟨0, 0, 0, 0⟩, true⟩

def env : Env := ⟨some (Utf16.ofString "http://localhost:8080"), some (Utf16.ofString "token")⟩

theorem reaches : env.Reaches deps :=
  ⟨by decide, rfl, by decide, forall_mem_of_all (by decide)⟩

theorem visible : Visible (Utf16.ofString "GALICE") := forall_mem_of_all (by decide)

end Sample

/-- An id that spells another path arrives as an id. -/
theorem calls_arrive_traversal :
    request JsonText.integers (fun _ => .carried) (Service.new Sample.codec Sample.deps) Sample.env
        (.createBuild (Utf16.ofString "../wallets/GBOB/balance?")) (Utf16.ofString "GALICE")
      = (Service.serve Sample.deps
          ⟨"Bearer token", some 1, .createBuild "../wallets/GBOB/balance?"⟩).bind fun a =>
          .ret (receive JsonText.integers (Sample.codec.reply a)) := by
  have h := calls_arrive (w := Sample.codec) Sample.reaches Sample.visible (by decide)
    (fun _ => .carried) (.createBuild (Utf16.ofString "../wallets/GBOB/balance?"))
  rw [if_pos (by decide +kernel), if_neg (by decide +kernel), Delivery.carry, Prog.bind_bind] at h
  exact h

end CoreGo
