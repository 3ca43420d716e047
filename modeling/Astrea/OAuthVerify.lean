/-
# Verifying a sign-in state

`verifyOAuthState` throws on the texts of two parts whose second part has the signature's 43 units
and is not ASCII, since these have more bytes than the signature, and on no other text.  What it
returns is a payload that the server signed, and a signed payload is returned when its timestamp is
a number that JSON can carry (`verifyOAuthState_spec`).
-/
import Astrea.OAuthState

open Utf16 JsonText

namespace GithubOAuth

variable {ν : Type} (srv : Server ν)

/-! ## The two parts -/

theorem splitOn_parts {m sig : CodeUnits} (hm : 46 ∉ m) (hsig : 46 ∉ sig) :
    (m ++ 46 :: sig).splitOn 46 = [m, sig] := by
  have hparts : ∀ l ∈ [m, sig], (46 : UInt16) ∉ l := by
    intro l hl
    rcases List.mem_cons.mp hl with rfl | hl
    · exact hm
    · rwa [List.mem_singleton.mp hl]
  have hsplit := List.splitOn_intercalate 46 hparts (List.cons_ne_nil _ _)
  rwa [show [46].intercalate [m, sig] = m ++ 46 :: sig from by simp [List.intercalate]] at hsplit

theorem eq_of_splitOn {s m sig : CodeUnits} (h : s.splitOn 46 = [m, sig]) :
    s = m ++ 46 :: sig := by
  have hjoin : [46].intercalate (s.splitOn 46) = s := List.intercalate_splitOn 46
  rw [h] at hjoin
  rw [← hjoin]
  simp [List.intercalate]

theorem length_signature (m : CodeUnits) : (srv.signature m).length = 43 := by
  rw [Server.signature, Base64url.length_encode, srv.length_hmacSha256]

theorem signature_ascii (m : CodeUnits) : Ascii (srv.signature m) := Base64url.encode_ascii _

/-- The comparison of two signatures of 43 units: it throws on one that is not ASCII, and finds
those that are equal. -/
theorem timingSafeEqual_signature {sig expected : CodeUnits} (hexpected : Ascii expected)
    (hlen : sig.length = expected.length) :
    (¬ Ascii sig → timingSafeEqual (utf8 sig) (utf8 expected) = .error .timingSafeEqualLength) ∧
      (Ascii sig → timingSafeEqual (utf8 sig) (utf8 expected) = .ok (sig = expected)) := by
  have hlenOf : ∀ {t : CodeUnits}, Ascii t → (utf8 t).length = t.length := by
    intro t ht
    rw [utf8_ascii ht, List.length_map]
  constructor
  · intro hwide
    have hlt := (length_utf8 sig).2 hwide
    rw [timingSafeEqual, if_pos (by rw [hlenOf hexpected]; omega)]
  · intro hascii
    have hiff : utf8 sig = utf8 expected ↔ sig = expected :=
      ⟨eq_of_utf8_eq hexpected, fun h => by rw [h]⟩
    rw [timingSafeEqual, hlenOf hexpected, hlenOf hascii, if_neg (not_not_intro hlen)]
    exact congrArg Except.ok (decide_eq_decide.mpr hiff)

variable {srv} {now : ν} {expectedWalletId : Option CodeUnits}

/-- What a text of two parts leads to. -/
theorem verify_parts {s m sig : CodeUnits} (h : s.splitOn 46 = [m, sig]) :
    srv.verifyOAuthState now s expectedWalletId
      = if sig.length ≠ 43 then .ok none
        else (timingSafeEqual (utf8 sig) (utf8 (srv.signature m))).bind fun same =>
          .ok (if same then caught (srv.readPayload now m expectedWalletId) else none) := by
  have hne : s ≠ [] := by
    rw [eq_of_splitOn h]
    exact List.append_ne_nil_of_right_ne_nil _ (List.cons_ne_nil _ _)
  rw [Server.verifyOAuthState, if_neg hne, h]
  simp only [length_signature]
  split
  · rfl
  · cases timingSafeEqual (utf8 sig) (utf8 (srv.signature m)) with
    | error e => rfl
    | ok same => cases same <;> rfl

/-- A text that has not two parts is refused. -/
theorem verify_unsplit {s : CodeUnits} (h : ∀ m sig, s.splitOn 46 ≠ [m, sig]) :
    srv.verifyOAuthState now s expectedWalletId = .ok none := by
  unfold Server.verifyOAuthState
  split
  · rfl
  · split
    · rename_i m sig hsplit
      exact absurd hsplit (h m sig)
    · rfl

/-! ## A signed payload -/

theorem keys_differ : nonceKey ≠ walletIdKey ∧ timestampKey ≠ walletIdKey ∧
    returnToKey ≠ walletIdKey ∧ timestampKey ≠ nonceKey ∧ returnToKey ≠ nonceKey ∧
    returnToKey ≠ timestampKey := by decide +kernel

/-- The payload's object, with some value for its timestamp. -/
def members (payload : OAuthStatePayload ν) (timestamp : Value ν) : Value ν :=
  .obj ([(walletIdKey, .str payload.walletId), (nonceKey, .str payload.nonce),
      (timestampKey, timestamp)]
    ++ payload.returnTo.toList.map fun returnTo => (returnToKey, .str returnTo))

theorem property_members (payload : OAuthStatePayload ν) (timestamp : Value ν) :
    property (members payload timestamp) walletIdKey = .ok (some (.str payload.walletId)) ∧
      property (members payload timestamp) nonceKey = .ok (some (.str payload.nonce)) ∧
      property (members payload timestamp) timestampKey = .ok (some timestamp) := by
  obtain ⟨hnw, htw, hrw, htn, hrn, hrt⟩ := keys_differ
  cases hreturn : payload.returnTo <;>
    simp [members, property, hreturn, hnw, htw, hrw, htn, hrn, hrt]

/-- A signed payload is read back, its timestamp as `null` when it is not finite. -/
theorem parse_encodedPayload (payload : OAuthStatePayload ν) :
    parse srv.toNumbers (utf8Decode (Base64url.decode (srv.encodedPayload payload)))
      = some (members payload
          (if srv.isFinite payload.timestamp then .num payload.timestamp else .null)) := by
  rw [Server.encodedPayload, Base64url.decode_encode, utf8Decode_utf8 (wellFormed_text _),
    parse_text]
  cases hreturn : payload.returnTo <;>
    simp only [OAuthStatePayload.value, members, hreturn, Option.toList, List.map_cons,
      List.map_nil, List.append_nil, List.cons_append, List.nil_append, Value.readBack,
      readBackFields]

/-- The `try` block on a signed payload. -/
theorem readPayload_encodedPayload (payload : OAuthStatePayload ν) :
    caught (srv.readPayload now (srv.encodedPayload payload) expectedWalletId)
      = if payload.walletId ≠ [] ∧ payload.nonce ≠ [] ∧ srv.isFinite payload.timestamp = true ∧
          srv.expired now payload.timestamp = false ∧
          (∀ w ∈ expectedWalletId, w ≠ [] → payload.walletId = w)
        then some payload.value else none := by
  obtain ⟨hwallet, hnonce, htime⟩ := property_members payload
    (if srv.isFinite payload.timestamp then .num payload.timestamp else .null)
  simp only [Server.readPayload, parse_encodedPayload, Option.elim_some, bind, Except.bind, hwallet,
    hnonce, htime, Server.isTruthy, pure, Except.pure]
  by_cases hw : payload.walletId = []
  · simp [hw, caught]
  by_cases hn : payload.nonce = []
  · simp [hw, hn, caught]
  by_cases hfin : srv.isFinite payload.timestamp = true
  · cases hexp : srv.expired now payload.timestamp with
    | true => simp [hw, hn, hfin, hexp, caught]
    | false =>
        have hvalue : members payload (.num payload.timestamp) = payload.value := rfl
        cases expectedWalletId with
        | none => simp [hw, hn, hfin, hexp, caught, hvalue]
        | some w =>
            by_cases hempty : w = []
            · simp [hw, hn, hfin, hexp, caught, hvalue, hempty]
            · by_cases hmatch : payload.walletId = w
              · simp [hn, hfin, hexp, caught, hvalue, hempty, hmatch, isText]
              · simp [hw, hn, hfin, hexp, caught, hempty, hmatch, isText]
  · simp [hw, hn, hfin, caught]

/-! ## Any text -/

variable (srv) in
/-- The HMAC cannot be forged: a text that carries one carries that of something the server has
signed. -/
def Unforged (issued : OAuthStatePayload ν → Prop) (s : CodeUnits) : Prop :=
  ∀ m, s = m ++ 46 :: srv.signature m →
    ∃ payload, issued payload ∧ utf8 m = utf8 (srv.encodedPayload payload)

/-- The text has two parts, and the second one has as many units as a signature, one of them not
ASCII. -/
def WideSignature (s : CodeUnits) : Prop :=
  ∃ m sig, s.splitOn 46 = [m, sig] ∧ sig.length = 43 ∧ ¬ Ascii sig

variable (srv) in
/-- A payload that the server issued, not expired, non-empty and of the expected wallet. -/
def Genuine (issued : OAuthStatePayload ν → Prop) (now : ν) (s : CodeUnits)
    (expectedWalletId : Option CodeUnits) (v : Value ν) : Prop :=
  ∃ payload, issued payload ∧ s = srv.signOAuthState payload ∧ v = payload.value ∧
    srv.expired now payload.timestamp = false ∧ payload.walletId ≠ [] ∧ payload.nonce ≠ [] ∧
    ∀ w ∈ expectedWalletId, w ≠ [] → payload.walletId = w

theorem splitOn_signOAuthState (payload : OAuthStatePayload ν) :
    (srv.signOAuthState payload).splitOn 46
      = [srv.encodedPayload payload, srv.signature (srv.encodedPayload payload)] := by
  rw [Server.signOAuthState, List.append_assoc, List.singleton_append]
  exact splitOn_parts (Base64url.not_mem_encode _) (Base64url.not_mem_encode _)

/-- A text that is signed gives what its first part holds. -/
theorem verify_signature {s m : CodeUnits} (h : s.splitOn 46 = [m, srv.signature m]) :
    srv.verifyOAuthState now s expectedWalletId
      = .ok (caught (srv.readPayload now m expectedWalletId)) := by
  have hsame := (timingSafeEqual_signature (signature_ascii srv m) rfl).2 (signature_ascii srv m)
  rw [verify_parts h, if_neg (not_not_intro (length_signature srv m)), hsame, decide_eq_true rfl]
  rfl

theorem verify_wide {s : CodeUnits} (h : WideSignature s) :
    srv.verifyOAuthState now s expectedWalletId = .error .timingSafeEqualLength := by
  obtain ⟨m, sig, hsplit, hlen, hwide⟩ := h
  have hthrow := (timingSafeEqual_signature (signature_ascii srv m)
    (hlen.trans (length_signature srv m).symm)).1 hwide
  rw [verify_parts hsplit, if_neg (not_not_intro hlen), hthrow]
  rfl

/-- Any other text is refused, unless it is signed. -/
theorem verify_narrow (srv : Server ν) {s : CodeUnits} (h : ¬ WideSignature s) :
    srv.verifyOAuthState now s expectedWalletId = .ok none ∨
      ∃ m, s.splitOn 46 = [m, srv.signature m] := by
  by_cases hparts : ∃ m sig, s.splitOn 46 = [m, sig]
  · obtain ⟨m, sig, hsplit⟩ := hparts
    rw [verify_parts hsplit]
    by_cases hlen : sig.length = 43
    · have hascii : Ascii sig := by
        by_contra hwide
        exact h ⟨m, sig, hsplit, hlen, hwide⟩
      rw [if_neg (not_not_intro hlen), (timingSafeEqual_signature (signature_ascii srv m)
        (hlen.trans (length_signature srv m).symm)).2 hascii]
      by_cases hsig : sig = srv.signature m
      · exact .inr ⟨m, hsig ▸ hsplit⟩
      · rw [decide_eq_false hsig]
        exact .inl rfl
    · exact .inl (if_pos hlen)
  · exact .inl (verify_unsplit fun m sig hsplit => hparts ⟨m, sig, hsplit⟩)

/-- The verification throws on nothing else. -/
theorem verify_returns_iff {s : CodeUnits} :
    (∃ r, srv.verifyOAuthState now s expectedWalletId = .ok r) ↔ ¬ WideSignature s := by
  constructor
  · rintro ⟨r, hr⟩ hwide
    rw [verify_wide hwide] at hr
    cases hr
  · intro hwide
    rcases verify_narrow srv hwide with hnone | ⟨m, hsigned⟩
    · exact ⟨_, hnone⟩
    · exact ⟨_, verify_signature hsigned⟩

/-- What is returned was issued. -/
theorem verify_genuine {issued : OAuthStatePayload ν → Prop} {s : CodeUnits}
    (hforge : Unforged srv issued s) {v : Value ν}
    (h : srv.verifyOAuthState now s expectedWalletId = .ok (some v)) :
    Genuine srv issued now s expectedWalletId v := by
  have hnarrow : ¬ WideSignature s := verify_returns_iff.mp ⟨_, h⟩
  rcases verify_narrow srv hnarrow with hnone | ⟨m, hsigned⟩
  · rw [hnone] at h
    cases h
  · obtain ⟨payload, hissued, hbytes⟩ := hforge m (eq_of_splitOn hsigned)
    have hm : m = srv.encodedPayload payload := eq_of_utf8_eq (Base64url.encode_ascii _) hbytes
    subst hm
    rw [verify_signature hsigned, readPayload_encodedPayload] at h
    split at h
    · rename_i hchecks
      obtain ⟨hwallet, hnonce, -, hfresh, hexpected⟩ := hchecks
      refine ⟨payload, hissued, ?_, (Option.some.inj (Except.ok.inj h)).symm, hfresh, hwallet,
        hnonce, hexpected⟩
      rw [eq_of_splitOn hsigned, Server.signOAuthState, List.append_assoc, List.singleton_append]
    · cases h

/-- **The verification.**  It returns on every text without a wide signature, and then only what
was issued; and it returns a fresh payload that was signed if the timestamp is finite. -/
theorem verifyOAuthState_spec (srv : Server ν) (issued : OAuthStatePayload ν → Prop) (now : ν) :
    (∀ s expectedWalletId, Unforged srv issued s →
      (((∃ r, srv.verifyOAuthState now s expectedWalletId = .ok r) ∧
        ∀ v, srv.verifyOAuthState now s expectedWalletId = .ok (some v) →
          Genuine srv issued now s expectedWalletId v) ↔ ¬ WideSignature s)) ∧
      ∀ payload : OAuthStatePayload ν, payload.walletId ≠ [] → payload.nonce ≠ [] →
        srv.expired now payload.timestamp = false →
        (srv.verifyOAuthState now (srv.signOAuthState payload) (some payload.walletId)
          = .ok (some payload.value) ↔ srv.isFinite payload.timestamp = true) := by
  constructor
  · intro s expectedWalletId hforge
    rw [verify_returns_iff]
    exact ⟨fun h => h.1, fun h => ⟨h, fun v hv => verify_genuine hforge hv⟩⟩
  · intro payload hwallet hnonce hfresh
    rw [verify_signature (splitOn_signOAuthState payload), readPayload_encodedPayload]
    constructor
    · intro h
      split at h
      · rename_i hchecks
        exact hchecks.2.2.1
      · cases h
    · intro hfin
      have hexpected : ∀ w ∈ some payload.walletId, w ≠ [] → payload.walletId = w :=
        fun w hw _ => Option.some.inj hw
      rw [if_pos ⟨hwallet, hnonce, hfin, hfresh, hexpected⟩]

/-! ## A sign-in -/

namespace Sample

/-- The HMAC-SHA256 of the encoded payload below under the fallback key. -/
def payloadMac : List UInt8 :=
  [232, 225, 228, 155, 180, 126, 244, 67, 155, 6, 153, 177, 122, 66, 237, 85, 193, 12, 11, 127, 121,
    212, 197, 203, 210, 243, 74, 179, 28, 9, 220, 137]

/-- The same of the text `x`. -/
def otherMac : List UInt8 :=
  [114, 128, 152, 102, 102, 180, 226, 39, 148, 7, 0, 68, 11, 95, 46, 211, 150, 84, 150, 122, 88, 65,
    59, 37, 195, 114, 2, 111, 139, 187, 193, 95]

/-- A server without a client secret, whose times are whole milliseconds. -/
def server : Server ℤ where
  toNumbers := integers
  ofNat := fun n => n
  sub := fun a b => a - b
  gt := fun a b => a > b
  truthy := fun a => a ≠ 0
  hmacSha256 := fun _ message => if message = [120] then otherMac else payloadMac
  length_hmacSha256 := by
    intro _ message
    split <;> rfl
  GITHUB_CLIENT_SECRET := none

def payload : OAuthStatePayload ℤ where
  walletId := ofString "wallet-abc-123"
  nonce := ofString "nonce-xyz-789"
  timestamp := 1750000000000
  returnTo := some (ofString "/events/event-1")

/-- `x`, a point, and 43 times `é`. -/
def wide : CodeUnits := 120 :: 46 :: List.replicate 43 0xE9

end Sample

/-- A signed payload carries no HMAC but its own. -/
theorem unforged_signOAuthState (srv : Server ν) (payload : OAuthStatePayload ν) :
    Unforged srv (fun p => p = payload) (srv.signOAuthState payload) := by
  intro m hm
  rw [Server.signOAuthState, List.append_assoc, List.singleton_append] at hm
  have hlen : (46 :: srv.signature (srv.encodedPayload payload)).length
      = (46 :: srv.signature m).length := by
    rw [List.length_cons, List.length_cons, length_signature, length_signature]
  exact ⟨payload, rfl, by rw [(List.append_inj' hm hlen).1]⟩

theorem not_wide_signOAuthState (srv : Server ν) (payload : OAuthStatePayload ν) :
    ¬ WideSignature (srv.signOAuthState payload) := by
  rintro ⟨m, sig, hsplit, -, hwide⟩
  rw [splitOn_signOAuthState] at hsplit
  obtain ⟨-, hsig⟩ := List.cons.inj hsplit
  exact hwide ((List.cons.inj hsig).1 ▸ signature_ascii srv _)

/-- A minute later the signed payload is returned, and only what was issued could have been. -/
theorem verifyOAuthState_sample :
    ((∃ r, Sample.server.verifyOAuthState 1750000060000 (Sample.server.signOAuthState Sample.payload)
        (some Sample.payload.walletId) = .ok r) ∧
      ∀ v, Sample.server.verifyOAuthState 1750000060000
          (Sample.server.signOAuthState Sample.payload) (some Sample.payload.walletId)
          = .ok (some v) →
        Genuine Sample.server (fun p => p = Sample.payload) 1750000060000
          (Sample.server.signOAuthState Sample.payload) (some Sample.payload.walletId) v) ∧
      Sample.server.verifyOAuthState 1750000060000 (Sample.server.signOAuthState Sample.payload)
        (some Sample.payload.walletId) = .ok (some Sample.payload.value) := by
  obtain ⟨hany, hsigned⟩ := verifyOAuthState_spec Sample.server (fun p => p = Sample.payload)
    1750000060000
  have hnonempty : Sample.payload.walletId ≠ [] ∧ Sample.payload.nonce ≠ [] := by decide
  exact ⟨(hany _ _ (unforged_signOAuthState _ _)).mpr (not_wide_signOAuthState _ _),
    (hsigned Sample.payload hnonempty.1 hnonempty.2 rfl).mpr rfl⟩

/-- A text that nobody signed makes the verification throw. -/
theorem verifyOAuthState_throws :
    Unforged Sample.server (fun _ => False) Sample.wide ∧
      Sample.server.verifyOAuthState 1750000060000 Sample.wide none
        = .error .timingSafeEqualLength := by
  have hlarge : ¬ Ascii (List.replicate 43 0xE9) := fun h =>
    absurd (h 0xE9 (List.mem_replicate.mpr ⟨by decide, rfl⟩)) (by decide)
  constructor
  · intro m hm
    have hlen : (46 :: List.replicate 43 (0xE9 : UInt16)).length
        = (46 :: Sample.server.signature m).length := by
      rw [List.length_cons, List.length_cons, length_signature, List.length_replicate]
    have hparts : [120] ++ 46 :: List.replicate 43 0xE9 = m ++ 46 :: Sample.server.signature m := hm
    have hsig := (List.append_inj' hparts hlen).2
    have hascii := signature_ascii Sample.server m
    rw [← (List.cons.inj hsig).2] at hascii
    exact absurd hascii hlarge
  · have hsplit : ([120] ++ 46 :: List.replicate 43 0xE9 : CodeUnits).splitOn 46
        = [[120], List.replicate 43 0xE9] := splitOn_parts (by decide) (by decide)
    exact verify_wide ⟨[120], _, hsplit, List.length_replicate, hlarge⟩

end GithubOAuth
