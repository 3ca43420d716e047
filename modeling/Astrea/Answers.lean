/-
# What an answer is worth

Every response of the service is a refusal with a status from 400 on, or the success of its
route.  A refusal has changed nothing but the record of a failure.  Of a success, what was built
has been saved, and what is said to have succeeded has been recorded; an outcome that is pending
has left the store as it was (`serve_answers`).
-/
import Astrea.HandlersSafe

open Guard (bind_eq_ok ensure_eq_ok expect_eq_ok pure_eq_ok)
open Interleave Interleave.Guarded

namespace Service

/-! ## Refusals -/

/-- A response that refuses: an error, or none at all. -/
def Response.Refuses : Response → Prop
  | .reply status (.error _ _) => 400 ≤ status ∧ status < 600
  | .reply _ _ => False
  | .aborted => True

/-- A call that changed nothing, or recorded a failure. -/
def Harmless : Done → Prop
  | ⟨.write (.markFailed _ _), _⟩ => True
  | ⟨.write _, r⟩ => ∃ e, r = .error e
  | _ => True

def Settled (h : List Done) : Prop := ∀ d ∈ h, Harmless d

variable {α β : Type}

/-- A part of a request whose calls are harmless.  What it stops with refuses the request. -/
def Tame (p : Handler α) : Prop :=
  ∀ h, Settled h → p.run.Safe (fun _ _ => True) h fun h' r =>
    Settled h' ∧ ∀ e, r = .error e → e.Refuses

/-- When a part of a request stops, it refuses the request after harmless calls. -/
def Refuses (p : Handler α) : Prop :=
  ∀ h, Settled h → p.run.Safe (fun _ _ => True) h fun h' r =>
    ∀ e, r = .error e → Settled h' ∧ e.Refuses

/-- A part that only goes on makes no calls. -/
theorem tame_pure {a : α} : Tame (pure a : Handler α) := fun _ hh => ⟨hh, fun _ he => by cases he⟩

/-- A part that stops at once stops with its own response. -/
theorem tame_throw {e : Response} (he : e.Refuses) : Tame (throw e : Handler α) := by
  refine fun _ hh => ⟨hh, ?_⟩
  rintro _ ⟨⟩
  exact he

/-- Harmless calls before harmless calls. -/
theorem Tame.bind {p : Handler α} {f : α → Handler β} (hp : Tame p) (hf : ∀ a, Tame (f a)) :
    Tame (p >>= f) := by
  intro h hh
  refine Prog.Safe.bind (hp h hh) fun h' r hr => ?_
  cases r with
  | ok a => exact hf a h' hr.1
  | error e => exact tame_throw (hr.2 e rfl) h' hr.1

/-- After a harmless part it is the rest of the request that matters. -/
theorem Tame.refuses {p : Handler α} {f : α → Handler β} (hp : Tame p)
    (hf : ∀ a, Refuses (f a)) : Refuses (p >>= f) := by
  intro h hh
  refine Prog.Safe.bind (hp h hh) fun h' r hr => ?_
  cases r with
  | ok a => exact hf a h' hr.1
  | error e =>
      rintro _ ⟨⟩
      exact ⟨hr.1, hr.2 e rfl⟩

/-- One call that is harmless whatever it answers. -/
theorem tame_call {op : Op} (hop : ∀ r, Harmless ⟨op, r⟩) : Tame (call op) := fun _ hh =>
  ⟨trivial, fun r => ⟨List.forall_mem_cons.mpr ⟨hop r, hh⟩, fun _ he => by cases he⟩⟩

/-- A harmless call before a harmless part. -/
theorem Tame.call {op : Op} {f : op.Res → Handler β} (hop : ∀ r, Harmless ⟨op, r⟩)
    (hf : ∀ r, Tame (f r)) : Tame (Service.call op >>= f) := (tame_call hop).bind hf

/-- A harmless call before a part that refuses when it stops. -/
theorem Refuses.call {op : Op} {f : op.Res → Handler β} (hop : ∀ r, Harmless ⟨op, r⟩)
    (hf : ∀ r, Refuses (f r)) : Refuses (Service.call op >>= f) := (tame_call hop).refuses hf

/-- What goes on does not stop. -/
theorem refuses_pure {a : α} : Refuses (pure a : Handler α) := fun _ _ _ he => by cases he

/-- A write at the end, and what follows it. -/
theorem refuses_write {w : StoreWrite} {e : StoreError → Response} {response : Response}
    (he : ∀ d, (e d).Refuses) :
    Refuses (do orStop (← call (.write w)) e; return response) := by
  refine fun h hh => ⟨trivial, fun r => ?_⟩
  cases r with
  | ok u => rintro _ ⟨⟩
  | error d =>
      rintro _ ⟨⟩
      refine ⟨List.forall_mem_cons.mpr ⟨?_, hh⟩, he d⟩
      cases w <;> first | trivial | exact ⟨d, rfl⟩

/-- A check that refuses when it fails. -/
theorem tame_ensure {p : Prop} [Decidable p] {e : Response} (he : e.Refuses) :
    Tame (ensure p e : Handler Unit) := by
  unfold ensure
  split
  · exact tame_pure
  · exact tame_throw he

/-- A value that has to be there. -/
theorem tame_expect {o : Option α} {e : Response} (he : e.Refuses) :
    Tame (expect o e : Handler α) := by
  cases o with
  | none => exact tame_throw he
  | some a => exact tame_pure

/-- A result whose error becomes a refusal. -/
theorem tame_orStop {δ : Type} {r : Except δ α} {e : δ → Response} (he : ∀ d, (e d).Refuses) :
    Tame (orStop r e : Handler α) := by
  cases r with
  | ok a => exact tame_pure
  | error d => exact tame_throw (he d)

/-- An error with a status from 400 on refuses. -/
theorem refuses_error {status : ℕ} {code : String} {message : Message}
    (h : 400 ≤ status ∧ status < 600) : (writeError status code message).Refuses := h

theorem refuses_internal : internalError.Refuses := refuses_error (by decide)

/-- A result, with the error that its own error is the message of. -/
theorem tame_orError {r : Except Message α} {status : ℕ} {code : String}
    (h : 400 ≤ status ∧ status < 600) :
    Tame (orStop r (writeError status code) : Handler α) :=
  tame_orStop fun _ => refuses_error h

/-- A check, with the error it refuses with. -/
theorem tame_check {p : Prop} [Decidable p] {status : ℕ} {code : String} {message : Message}
    (h : 400 ≤ status ∧ status < 600) :
    Tame (ensure p (writeError status code message) : Handler Unit) :=
  tame_ensure (refuses_error h)

/-- A failure of the service itself is a refusal with 500. -/
theorem tame_orInternal {ε : Type} {r : Except ε α} : Tame (orInternal r : Handler α) :=
  tame_orStop fun _ => refuses_internal

/-! ## The pieces of the handlers -/

section Pieces
variable {deps : Deps} {cfg : Config}

/-- Building a transaction reads the source account and the clock. -/
theorem tame_loadAndBuild {source : Address} {hf : HostFunction} {auth : List ℕ}
    {resources resourceFee : ℕ} :
    Tame (loadAndBuild source hf auth resources resourceFee cfg) :=
  Tame.call (fun _ => trivial) fun _ => tame_orInternal.bind fun _ =>
    Tame.call (fun _ => trivial) fun _ => tame_expect refuses_internal

/-- A simulation changes nothing. -/
theorem tame_simulate {tx : Transaction} : Tame (simulate tx) :=
  Tame.call (fun _ => trivial) fun _ => tame_orInternal.bind fun _ =>
    (tame_check (by decide)).bind fun _ => tame_pure

/-- Building a transaction is harmless. -/
theorem tame_buildUnsigned {source : Address} {hf : HostFunction} :
    Tame (buildUnsigned source hf cfg) :=
  tame_loadAndBuild.bind fun _ => tame_simulate.bind fun _ =>
    (tame_expect refuses_internal).bind fun _ => (tame_expect refuses_internal).bind fun _ =>
      tame_loadAndBuild.bind fun _ => tame_pure

theorem tame_hostFunctionXDRFrom {unsigned : SignedXDR} :
    Tame (hostFunctionXDRFrom unsigned) :=
  tame_orInternal.bind fun _ => tame_pure

/-- So is simulating a read. -/
theorem tame_simulateRead {source : Address} {hf : HostFunction} :
    Tame (simulateRead source hf cfg) :=
  tame_loadAndBuild.bind fun _ => tame_simulate.bind fun _ => tame_expect refuses_internal

/-- So is asking for the fee. -/
theorem tame_quoteGoLiveFee {eid : EventID} {source : Address} :
    Tame (quoteGoLiveFee eid source cfg) :=
  tame_simulateRead.bind fun _ => tame_expect refuses_internal

/-- So is asking for a balance. -/
theorem tame_getBalance {admin : Address} : Tame (getBalance admin cfg) :=
  tame_simulateRead.bind fun _ => tame_expect refuses_internal

/-- So is asking for the resolver. -/
theorem tame_getDefaultResolver {source : Address} : Tame (getDefaultResolver source cfg) := by
  refine tame_simulateRead.bind fun v => ?_
  cases v with
  | address a => exact tame_pure
  | _ => exact tame_throw refuses_internal

/-- The polls of a submit only ask, however many there are. -/
theorem tame_pollFrom {hash : TxHash} {deadline maxPollInterval : Time} (polls : ℕ)
    (interval : Time) : Tame (pollFrom hash deadline maxPollInterval polls interval) := by
  induction polls generalizing interval with
  | zero => exact tame_pure
  | succ polls ih =>
      unfold pollFrom
      refine Tame.call (fun _ => trivial) fun answer => ?_
      cases answer with
      | error _ => exact tame_pure
      | ok status =>
          cases status with
          | success => exact tame_pure
          | failed resultXDR => exact tame_pure
          | notFound =>
              refine Tame.call (fun _ => trivial) fun now => ?_
              split
              · exact tame_pure
              · exact Tame.call (fun _ => trivial) fun _ => ih _

/-- A submit sends, waits and asks; what it sent is on the network, not in the store. -/
theorem tame_submitSigned {signedXDR : SignedXDR} : Tame (submitSigned signedXDR cfg) := by
  unfold submitSigned
  refine Tame.call (fun _ => trivial) fun answer => ?_
  match answer with
  | .error _ => exact tame_pure
  | .ok response =>
      dsimp only
      split
      · exact tame_pure
      · refine Tame.bind (Tame.call (fun _ => trivial) fun _ => tame_pollFrom _ _) fun r => ?_
        cases r <;> exact tame_pure

/-- The classification of an outcome writes nothing but a failure. -/
theorem tame_submitAndClassify {signedXDR : SignedXDR} {k : OpKey} :
    Tame (submitAndClassify signedXDR cfg k) := by
  unfold submitAndClassify
  refine tame_submitSigned.bind fun r => ?_
  match r with
  | .ok hash => exact tame_pure
  | .error (.timeout hash) => exact tame_pure
  | .error (.submission errorResultXDR) =>
      exact Tame.bind (Tame.call (fun _ => trivial) fun _ => tame_pure) fun _ =>
        tame_throw (refuses_error (by decide))
  | .error (.onChain hash resultXDR) =>
      exact Tame.bind (Tame.call (fun _ => trivial) fun _ => tame_pure) fun _ =>
        tame_throw (refuses_error (by decide))
  | .error .other => exact tame_throw refuses_internal

/-- An id that does not parse is refused. -/
theorem tame_pathID {id : String} : Tame (pathID id) := by
  unfold pathID
  split
  · exact tame_pure
  · exact tame_throw (refuses_error (by decide))

/-- Whatever the store complains about, a load that failed is refused. -/
theorem refuses_loadEventFailed (e : StoreError) : (loadEventFailed e).Refuses := by
  cases e <;> exact refuses_error (by decide)

/-- A row that is missing is refused as its route says. -/
theorem tame_loadOpOr {k : OpKey} {missing : Response} (hm : missing.Refuses) :
    Tame (loadOpOr k missing) := by
  refine Tame.call (fun _ => trivial) fun r => tame_orStop fun e => ?_
  cases e with
  | notFound => exact hm
  | _ => exact refuses_internal

/-- A row that has its outcome already is refused. -/
theorem tame_checkPending {status : OpStatus} {s t : ℕ} {succeeded failed : String}
    {m m' : Message} (hs : 400 ≤ s ∧ s < 600) (ht : 400 ≤ t ∧ t < 600) :
    Tame (checkPending status (writeError s succeeded m) (writeError t failed m')) := by
  cases status with
  | succeeded => exact tame_throw (refuses_error hs)
  | failed => exact tame_throw (refuses_error ht)
  | pending => exact tame_pure

/-- A body without an envelope is refused. -/
theorem tame_signedBody {body : Option SignedXDR} : Tame (signedBody body) := by
  unfold signedBody
  split
  · exact tame_throw (refuses_error (by decide))
  · exact tame_throw (refuses_error (by decide))
  · exact tame_pure

/-- Checking the signed envelope is harmless, and refuses. -/
theorem tame_checkEnvelope {signedXDR : SignedXDR} {k : OpKey} {build : k.Build} :
    Tame (checkEnvelope signedXDR k build) := tame_orError (by decide)

/-- A save that failed is refused, as a conflict or as an internal error. -/
theorem refuses_saveFailed {already : Response} (ha : already.Refuses) (e : StoreError) :
    (saveFailed already e).Refuses := by
  cases e with
  | alreadySucceeded => exact ha
  | _ => exact refuses_error (by decide)

/-- Checking the conditions of a creation is harmless. -/
theorem tame_checkCreatePreconditions {wallet : Address} {p : PathID} :
    Tame (checkCreatePreconditions wallet p) :=
  Tame.call (fun _ => trivial) fun _ => (tame_orStop refuses_loadEventFailed).bind fun _ =>
    (tame_check (by decide)).bind fun _ =>
      (tame_check (by decide)).bind fun _ =>
        (tame_check (by decide)).bind fun _ =>
          (tame_check (by decide)).bind fun _ =>
            (tame_check (by decide)).bind fun _ => tame_pure

/-- So is checking those of a start. -/
theorem tame_checkStartPreconditions {wallet : Address} {p : PathID} :
    Tame (checkStartPreconditions wallet p) :=
  Tame.call (fun _ => trivial) fun _ => (tame_orStop refuses_loadEventFailed).bind fun _ =>
    (tame_check (by decide)).bind fun _ =>
      (tame_check (by decide)).bind fun _ =>
        (tame_check (by decide)).bind fun _ => tame_pure

theorem tame_checkStartDeadline {event : EventForStart} : Tame (checkStartDeadline event) :=
  (tame_expect (refuses_error (by decide))).bind fun _ => Tame.call (fun _ => trivial) fun _ =>
    (tame_check (by decide)).bind fun _ => tame_pure

/-- So is asking for the quote and the balance. -/
theorem tame_quoteAndBalance {event : EventForStart} : Tame (quoteAndBalance deps event) :=
  (tame_expect refuses_internal).bind fun _ => tame_quoteGoLiveFee.bind fun _ =>
    tame_getBalance.bind fun _ => tame_pure

theorem tame_loadStartRow {p : PathID} : Tame (loadStartRow p) := by
  unfold loadStartRow
  refine Tame.call (fun _ => trivial) fun answer => ?_
  cases answer with
  | ok op => exact tame_pure
  | error e => cases e <;> first | exact tame_pure | exact tame_throw refuses_internal

/-- So is checking those of submitting a start. -/
theorem tame_checkStartSubmitPreconditions {wallet : Address} {p : PathID} :
    Tame (checkStartSubmitPreconditions wallet p) :=
  Tame.call (fun _ => trivial) fun _ => (tame_orStop refuses_loadEventFailed).bind fun _ =>
    (tame_check (by decide)).bind fun _ => tame_loadStartRow.bind fun _ =>
      (tame_check (by decide)).bind fun _ =>
        (tame_check (by decide)).bind fun _ =>
          (tame_check (by decide)).bind fun _ =>
            (tame_expect (refuses_error (by decide))).bind fun _ =>
              (tame_checkPending (by decide) (by decide)).bind
                fun _ => tame_pure

/-- So is checking those of a release. -/
theorem tame_checkReleasePreconditions {wallet : Address} {p : PathID} :
    Tame (checkReleasePreconditions wallet p) :=
  Tame.call (fun _ => trivial) fun _ => (tame_orStop refuses_loadEventFailed).bind fun _ =>
    (tame_check (by decide)).bind fun _ =>
      (tame_check (by decide)).bind fun _ =>
        (tame_check (by decide)).bind fun _ =>
          (tame_expect refuses_internal).bind fun _ =>
            (tame_check (by decide)).bind fun _ => tame_pure

theorem tame_checkWalletOwnership {wallet : Address} {address : Option (BitVec 256)} :
    Tame (checkWalletOwnership wallet address) :=
  (tame_expect (refuses_error (by decide))).bind fun _ =>
    (tame_check (by decide)).bind fun _ => tame_pure

theorem tame_issuedOpID {text : String} : Tame (issuedOpID text) := by
  unfold issuedOpID
  split
  · exact tame_pure
  · exact tame_throw (refuses_error (by decide))

theorem tame_depositBody {body : Option (String × SignedXDR)} : Tame (depositBody body) := by
  unfold depositBody
  split
  · exact tame_throw (refuses_error (by decide))
  · exact tame_throw (refuses_error (by decide))
  · exact tame_pure

end Pieces

/-! ## The handlers -/

section Handlers
variable {deps : Deps} {wallet : Address} {id : String} {address : Option (BitVec 256)}

/-- A build of a creation that stops has saved nothing. -/
theorem refuses_handleCreateBuild : Refuses (handleCreateBuild deps wallet id) := by
  refine tame_pathID.refuses fun p => ?_
  refine tame_checkCreatePreconditions.refuses fun event => ?_
  refine tame_orInternal.refuses fun reward => ?_
  refine Refuses.call (fun _ => trivial) fun r => ?_
  refine tame_orInternal.refuses fun eid => ?_
  refine tame_getDefaultResolver.refuses fun resolver => ?_
  refine (tame_expect refuses_internal).refuses fun judge => ?_
  refine tame_buildUnsigned.refuses fun unsigned => ?_
  refine tame_hostFunctionXDRFrom.refuses fun hf => ?_
  exact refuses_write (refuses_saveFailed (refuses_error (by decide)))

/-- A submit ends as its classification and what it does with a success. -/
theorem refuses_submit {signedXDR : SignedXDR} {cfg : Config} {k : OpKey}
    {f : SubmitOutcome → Handler Response} (hp : ∀ hash, Refuses (f (.pendingHash hash)))
    (hs : ∀ hash, Refuses (f (.result hash))) :
    Refuses (submitAndClassify signedXDR cfg k >>= f) :=
  tame_submitAndClassify.refuses fun o => match o with
    | .pendingHash hash => hp hash
    | .result hash => hs hash

/-- A submit of a creation that stops has marked nothing but a failure. -/
theorem refuses_handleCreateSubmit {body : Option SignedXDR} :
    Refuses (handleCreateSubmit deps wallet id body) := by
  refine tame_pathID.refuses fun p => ?_
  refine tame_checkCreatePreconditions.refuses fun event => ?_
  refine tame_signedBody.refuses fun xdr => ?_
  refine (tame_loadOpOr (refuses_error (by decide))).refuses fun op => ?_
  refine (tame_checkPending (by decide) (by decide)).refuses fun _ => ?_
  refine tame_checkEnvelope.refuses fun tx => ?_
  refine refuses_submit (fun _ => refuses_pure) fun hash => ?_
  refine Refuses.call (fun _ => trivial) fun now => refuses_write fun e => ?_
  cases e <;> exact refuses_error (by decide)

/-- When a balance is not answered, the request is refused. -/
theorem refuses_handleWalletBalance : Refuses (handleWalletBalance deps wallet address) :=
  tame_checkWalletOwnership.refuses fun _ => tame_getBalance.refuses fun _ => refuses_pure

/-- A build of a deposit that stops has saved nothing. -/
theorem refuses_handleDepositBuild {body : Option GoString} :
    Refuses (handleDepositBuild deps wallet address body) := by
  refine tame_checkWalletOwnership.refuses fun account => ?_
  refine (tame_expect (refuses_error (by decide))).refuses fun text => ?_
  refine (tame_orError (by decide)).refuses fun amount => ?_
  refine (tame_check (by decide)).refuses fun _ => ?_
  refine tame_buildUnsigned.refuses fun unsigned => ?_
  refine tame_hostFunctionXDRFrom.refuses fun hf => ?_
  refine Refuses.call (fun _ => trivial) fun r => ?_
  refine tame_orInternal.refuses fun opID => ?_
  exact refuses_write fun _ => refuses_internal

/-- A submit of a deposit that stops has marked nothing but a failure. -/
theorem refuses_handleDepositSubmit {body : Option (String × SignedXDR)} :
    Refuses (handleDepositSubmit deps wallet address body) := by
  refine tame_checkWalletOwnership.refuses fun account => ?_
  refine tame_depositBody.refuses fun b => ?_
  obtain ⟨opIDText, signedXDR⟩ := b
  refine tame_issuedOpID.refuses fun opID => ?_
  refine (tame_loadOpOr (refuses_error (by decide))).refuses fun op => ?_
  refine (tame_checkPending (by decide) (by decide)).refuses fun _ => ?_
  refine (tame_check (by decide)).refuses fun _ => ?_
  refine tame_checkEnvelope.refuses fun tx => ?_
  exact refuses_submit (fun _ => refuses_pure) fun hash => refuses_write fun _ => refuses_internal

/-- When a quote is not answered, the request is refused. -/
theorem refuses_handleStartQuote : Refuses (handleStartQuote deps wallet id) :=
  tame_pathID.refuses fun _ => tame_checkStartPreconditions.refuses fun _ =>
    tame_quoteAndBalance.refuses fun _ => refuses_pure

/-- A build of a start that stops has saved nothing. -/
theorem refuses_handleStartBuild : Refuses (handleStartBuild deps wallet id) := by
  refine tame_pathID.refuses fun p => ?_
  refine tame_checkStartPreconditions.refuses fun event => ?_
  refine tame_checkStartDeadline.refuses fun deadline => ?_
  refine tame_quoteAndBalance.refuses fun q => ?_
  obtain ⟨eid, fee, balance⟩ := q
  refine (tame_check (by decide)).refuses fun _ => ?_
  refine tame_buildUnsigned.refuses fun unsigned => ?_
  refine tame_hostFunctionXDRFrom.refuses fun hf => ?_
  exact refuses_write (refuses_saveFailed (refuses_error (by decide)))

/-- A submit of a start that stops has marked nothing but a failure. -/
theorem refuses_handleStartSubmit {body : Option SignedXDR} :
    Refuses (handleStartSubmit deps wallet id body) := by
  refine tame_pathID.refuses fun p => ?_
  refine tame_checkStartSubmitPreconditions.refuses fun op => ?_
  refine tame_signedBody.refuses fun xdr => ?_
  refine tame_checkEnvelope.refuses fun tx => ?_
  refine refuses_submit (fun _ => refuses_pure) fun hash => ?_
  refine Refuses.call (fun _ => trivial) fun now => refuses_write fun e => ?_
  cases e <;> exact refuses_error (by decide)

/-- A build of a release that stops has saved nothing. -/
theorem refuses_handleReleaseBuild {body : Option (List Assignment)} :
    Refuses (handleReleaseBuild deps wallet id body) := by
  refine tame_pathID.refuses fun p => ?_
  refine tame_checkReleasePreconditions.refuses fun e => ?_
  obtain ⟨event, judge⟩ := e
  refine (tame_expect (refuses_error (by decide))).refuses fun assignments => ?_
  refine (tame_check (by decide)).refuses fun _ => ?_
  refine (tame_orError (by decide)).refuses fun _ => ?_
  refine tame_orInternal.refuses fun input => ?_
  obtain ⟨positions, teams, reward⟩ := input
  refine (tame_orStop fun e => ?_).refuses fun winners => ?_
  · cases e with
    | allocation e => exact refuses_error (by decide)
    | error e => exact refuses_internal
    | panicked e => trivial
  refine tame_orInternal.refuses fun releaseWinners => ?_
  refine (tame_ensure refuses_internal).refuses fun _ => ?_
  refine Refuses.call (fun _ => trivial) fun r => ?_
  refine (tame_orStop fun e => ?_).refuses fun _ => ?_
  · cases e <;> exact refuses_error (by decide)
  refine (tame_expect refuses_internal).refuses fun eid => ?_
  refine tame_orInternal.refuses fun hf => ?_
  refine tame_buildUnsigned.refuses fun unsigned => ?_
  refine tame_hostFunctionXDRFrom.refuses fun hf' => ?_
  exact refuses_write (refuses_saveFailed (refuses_error (by decide)))

/-- A submit of a release that stops has marked nothing but a failure. -/
theorem refuses_handleReleaseSubmit {body : Option SignedXDR} :
    Refuses (handleReleaseSubmit deps wallet id body) := by
  refine tame_pathID.refuses fun p => ?_
  refine tame_checkReleasePreconditions.refuses fun e => ?_
  refine tame_signedBody.refuses fun xdr => ?_
  refine (tame_loadOpOr (refuses_error (by decide))).refuses fun op => ?_
  refine (tame_checkPending (by decide) (by decide)).refuses fun _ => ?_
  refine tame_checkEnvelope.refuses fun tx => ?_
  refine refuses_submit (fun _ => refuses_pure) fun hash => ?_
  exact Refuses.call (fun _ => trivial) fun now => refuses_write fun _ => refuses_internal

/-- Every handler refuses when it stops. -/
theorem refuses_handle (route : Route) : Refuses (handle deps wallet route) := by
  cases route with
  | healthz => exact refuses_pure
  | releaseBuild id body => exact refuses_handleReleaseBuild
  | releaseSubmit id body => exact refuses_handleReleaseSubmit
  | walletBalance address => exact refuses_handleWalletBalance
  | depositBuild address body => exact refuses_handleDepositBuild
  | depositSubmit address body => exact refuses_handleDepositSubmit
  | createBuild id => exact refuses_handleCreateBuild
  | createSubmit id body => exact refuses_handleCreateSubmit
  | startQuote id => exact refuses_handleStartQuote
  | startBuild id => exact refuses_handleStartBuild
  | startSubmit id body => exact refuses_handleStartSubmit

/-- The middleware makes no calls. -/
theorem tame_requireAuth {r : Request} : Tame (requireAuth deps r) :=
  (tame_check (by decide)).bind fun _ => (tame_expect (refuses_error (by decide))).bind fun _ =>
    tame_pure

end Handlers

/-! ## Successes -/

/-- What a wallet is asked to sign is this host function. -/
def Signs (unsigned : SignedXDR) (hf : HostFunction) : Prop :=
  ∃ tx, unsigned = .envelope (.v1 tx []) ∧ tx.hostFunction = some hf

def Unwritten (h : List Done) : Prop := ∀ d ∈ h, ¬ d.op.IsWrite

/-- The write was made. -/
def Wrote (h : List Done) (w : StoreWrite) : Prop := (⟨.write w, .ok ()⟩ : Done) ∈ h

/-- The submits whose reply is a hash and a status. -/
def Route.HashOnly : Route → Prop
  | .depositSubmit _ _ | .startSubmit _ _ | .releaseSubmit _ _ => True
  | _ => False

/-- A response to a route, after the calls `h` of its request. -/
inductive Answers (h : List Done) : Route → Response → Prop
  | refused {route : Route} {r : Response} (refuses : r.Refuses) (settled : Settled h) :
      Answers h route r
  | healthz : Answers h .healthz (.reply 200 .healthz)
  | walletBalance {key : BitVec 256} {balance : GoString} :
      Answers h (.walletBalance (some key)) (.reply 200 (.walletBalance (.account key) balance))
  | startQuote {id : String} {fee balance shortfall : GoString} :
      Answers h (.startQuote id) (.reply 200 (.startQuote fee balance shortfall))
  | depositBuild {address : Option (BitVec 256)} {body : Option GoString} {opID : OpID}
      {build : DepositBuild} {unsigned : SignedXDR} (saved : Wrote h (.saveDepositBuild opID build))
      (signs : Signs unsigned build.hostFunctionXDR) :
      Answers h (.depositBuild address body) (.reply 200 (.depositBuild opID unsigned))
  | createBuild {p : PathID} {build : CreateBuild} {unsigned : SignedXDR}
      (saved : Wrote h (.saveCreateBuild p build)) (signs : Signs unsigned build.hostFunctionXDR) :
      Answers h (.createBuild p.text)
        (.reply 200 (.createBuild unsigned build.reward build.escrowEventID))
  | startBuild {p : PathID} {build : StartBuild} {unsigned : SignedXDR}
      (saved : Wrote h (.saveStartBuild p build)) (signs : Signs unsigned build.hostFunctionXDR) :
      Answers h (.startBuild p.text)
        (.reply 200 (.startBuild unsigned build.judgingDeadline build.fee))
  | releaseBuild {p : PathID} {body : Option (List Assignment)} {build : ReleaseBuild}
      {unsigned : SignedXDR} (saved : Wrote h (.saveReleaseBuild p build))
      (signs : Signs unsigned build.hostFunctionXDR) :
      Answers h (.releaseBuild p.text body) (.reply 200 (.releaseBuild p unsigned
        (build.winners.map fun w => (w.rank, w.teamID, w.teamMemberID, w.address))))
  | createSubmit {p : PathID} {body : Option SignedXDR} {hash : TxHash} {eid : EventID} {t : Time}
      (marked : Wrote h (.markCreateSucceeded p eid t)) :
      Answers h (.createSubmit p.text body) (.reply 200 (.createSubmit hash "succeeded" eid))
  | depositSubmit {address : Option (BitVec 256)} {opID : OpID} {xdr : SignedXDR} {hash : TxHash}
      (marked : Wrote h (.markDepositSucceeded opID)) :
      Answers h (.depositSubmit address (some (opID.text, xdr)))
        (.reply 200 (.submit hash "succeeded"))
  | startSubmit {p : PathID} {body : Option SignedXDR} {hash : TxHash} {hf : HostFunction}
      {t : Time} (marked : Wrote h (.markStartSucceeded p hf t)) :
      Answers h (.startSubmit p.text body) (.reply 200 (.submit hash "succeeded"))
  | releaseSubmit {p : PathID} {body : Option SignedXDR} {hash : TxHash} {t : Time}
      (marked : Wrote h (.markReleaseSucceeded p hash t)) :
      Answers h (.releaseSubmit p.text body) (.reply 200 (.submit hash "succeeded"))
  | createPending {id : String} {body : Option SignedXDR} {hash : TxHash} {eid : EventID}
      (unwritten : Unwritten h) :
      Answers h (.createSubmit id body) (.reply 202 (.createSubmit hash "pending" eid))
  | pending {route : Route} {hash : TxHash} (submit : route.HashOnly) (unwritten : Unwritten h) :
      Answers h route (.reply 202 (.submit hash "pending"))

/-- What a part of a request goes on with satisfies `Q`, whatever its calls. -/
def Yields (h : List Done) (p : Handler α) (Q : List Done → α → Prop) : Prop :=
  Keeps (fun _ _ => True) h p Q

variable {h : List Done}

/-- Nothing is said of what a part goes on with. -/
theorem yields_any {p : Handler α} : Yields h p fun _ _ => True :=
  Prog.Safe.mono (Prog.safe_any p.run) fun _ _ _ _ _ => trivial

/-- What a part goes on with is given to the next one. -/
theorem Yields.bind {p : Handler α} {f : α → Handler β} {Q : List Done → α → Prop}
    {R : List Done → β → Prop} (hp : Yields h p Q) (hf : ∀ h' a, Q h' a → Yields h' (f a) R) :
    Yields h (p >>= f) R := Keeps.bind hp hf

/-- A quiet part goes on with what it goes on with, and writes nothing. -/
theorem Quietly.yields {p : Handler α} {P : List Done → α → Prop} (hp : Quietly h p P) :
    Yields h p fun h' a => P h' a ∧ (Unwritten h → Unwritten h') :=
  Keeps.mono (Prog.Safe.weaken hp fun _ _ _ => trivial) fun _ _ hq =>
    ⟨hq.2, fun hw => hq.1.not_mem not_quiet_of_isWrite hw⟩

/-- A write at the end, and the response behind it. -/
theorem yields_write {w : StoreWrite} {e : StoreError → Response} {response : Response}
    {route : Route} (ha : ∀ h', Wrote h' w → Answers h' route response) :
    Yields h (do orStop (← call (.write w)) e; return response) fun h' a => Answers h' route a := by
  refine Keeps.bind (keeps_perform (Q := fun h' r => (⟨.write w, r⟩ : Done) ∈ h') trivial
    fun r => List.mem_cons_self) fun h₁ r hr => ?_
  refine Keeps.bind (Q := fun h' _ => Wrote h' w) (keeps_orStop fun u hu => ?_) fun h₂ _ hw =>
    keeps_pure (ha h₂ hw)
  subst hu
  exact hr

/-- A creation that is handed out to be signed was saved. -/
theorem yields_createBuild {deps : Deps} {wallet : Address} {id : String} :
    Yields h (handleCreateBuild deps wallet id) fun h' a => Answers h' (.createBuild id) a := by
  unfold handleCreateBuild
  refine Yields.bind quietly_pathID.yields fun h₁ p hid => ?_
  refine yields_any.bind fun h₂ event _ => ?_
  refine yields_any.bind fun h₃ reward _ => ?_
  refine yields_any.bind fun h₄ r _ => ?_
  refine yields_any.bind fun h₅ eid _ => ?_
  refine yields_any.bind fun h₆ resolver _ => ?_
  refine yields_any.bind fun h₇ judge _ => ?_
  refine Yields.bind quietly_buildUnsigned.yields fun h₈ unsigned hbuilt => ?_
  refine Yields.bind (quietly_hostFunctionXDRFrom hbuilt.1).yields fun h₉ hf hhf => ?_
  obtain ⟨rfl, -⟩ := hhf
  obtain ⟨rfl, -⟩ := hid
  exact yields_write fun h' hw => .createBuild hw hbuilt.1

section Yields
variable {deps : Deps} {wallet : Address} {id : String} {address : Option (BitVec 256)}

/-- A deposit that is handed out to be signed was saved under the id that is answered. -/
theorem yields_depositBuild {body : Option GoString} :
    Yields h (handleDepositBuild deps wallet address body) fun h' a =>
      Answers h' (.depositBuild address body) a := by
  unfold handleDepositBuild
  refine yields_any.bind fun h₁ account _ => ?_
  refine yields_any.bind fun h₂ text _ => ?_
  refine yields_any.bind fun h₃ amount _ => ?_
  refine yields_any.bind fun h₄ _ _ => ?_
  refine Yields.bind quietly_buildUnsigned.yields fun h₅ unsigned hbuilt => ?_
  refine Yields.bind (quietly_hostFunctionXDRFrom hbuilt.1).yields fun h₆ hf hhf => ?_
  refine yields_any.bind fun h₇ r _ => ?_
  refine yields_any.bind fun h₈ opID _ => ?_
  obtain ⟨rfl, -⟩ := hhf
  exact yields_write fun h' hw => .depositBuild hw hbuilt.1

/-- A start that is handed out to be signed was saved. -/
theorem yields_startBuild :
    Yields h (handleStartBuild deps wallet id) fun h' a => Answers h' (.startBuild id) a := by
  unfold handleStartBuild
  refine Yields.bind quietly_pathID.yields fun h₁ p hid => ?_
  refine yields_any.bind fun h₂ event _ => ?_
  refine yields_any.bind fun h₃ deadline _ => ?_
  refine yields_any.bind fun h₄ q _ => ?_
  obtain ⟨eid, fee, balance⟩ := q
  refine yields_any.bind fun h₅ _ _ => ?_
  refine Yields.bind quietly_buildUnsigned.yields fun h₆ unsigned hbuilt => ?_
  refine Yields.bind (quietly_hostFunctionXDRFrom hbuilt.1).yields fun h₇ hf hhf => ?_
  obtain ⟨rfl, -⟩ := hhf
  obtain ⟨rfl, -⟩ := hid
  exact yields_write fun h' hw => .startBuild hw hbuilt.1

/-- A release that is handed out to be signed was saved, with the winners that are answered. -/
theorem yields_releaseBuild {body : Option (List Assignment)} :
    Yields h (handleReleaseBuild deps wallet id body) fun h' a =>
      Answers h' (.releaseBuild id body) a := by
  unfold handleReleaseBuild
  refine Yields.bind quietly_pathID.yields fun h₁ p hid => ?_
  refine yields_any.bind fun h₂ e _ => ?_
  obtain ⟨event, judge⟩ := e
  refine yields_any.bind fun h₃ assignments _ => ?_
  refine yields_any.bind fun h₄ _ _ => ?_
  refine yields_any.bind fun h₅ _ _ => ?_
  refine yields_any.bind fun h₆ input _ => ?_
  obtain ⟨positions, teams, reward⟩ := input
  refine yields_any.bind fun h₇ winners _ => ?_
  refine yields_any.bind fun h₈ releaseWinners _ => ?_
  refine yields_any.bind fun h₉ _ _ => ?_
  refine yields_any.bind fun h₁₀ r _ => ?_
  refine yields_any.bind fun h₁₁ _ _ => ?_
  refine yields_any.bind fun h₁₂ eid _ => ?_
  refine yields_any.bind fun h₁₃ hf _ => ?_
  refine Yields.bind quietly_buildUnsigned.yields fun h₁₄ unsigned hbuilt => ?_
  refine Yields.bind (quietly_hostFunctionXDRFrom hbuilt.1).yields fun h₁₅ hf' hhf => ?_
  obtain ⟨rfl, -⟩ := hhf
  obtain ⟨rfl, -⟩ := hid
  exact yields_write fun h' hw => .releaseBuild hw hbuilt.1

/-! ### Submits -/

/-- A poll that ends without an outcome, or an error, has written nothing. -/
theorem yields_submitSigned {signedXDR : SignedXDR} {cfg : Config} :
    Yields h (submitSigned signedXDR cfg) fun h' _ => Unwritten h → Unwritten h' := by
  unfold submitSigned
  refine Keeps.bind (keeps_perform (Q := fun h' _ => Unwritten h → Unwritten h') trivial
    fun r hw => List.forall_mem_cons.mpr ⟨id, hw⟩) fun h₁ answer hanswer => ?_
  match answer with
  | .error _ => exact keeps_pure hanswer
  | .ok response =>
      dsimp only
      split
      · exact keeps_pure hanswer
      · refine Yields.bind quietly_pollForConfirmation.yields fun h₂ r hr => ?_
        cases r <;> exact keeps_pure fun hw => hr.2 (hanswer hw)

/-- A submission whose outcome is pending has written nothing. -/
theorem yields_submitAndClassify {signedXDR : SignedXDR} {cfg : Config} {k : OpKey} :
    Yields h (submitAndClassify signedXDR cfg k) fun h' o =>
      ∀ hash, o = .pendingHash hash → Unwritten h → Unwritten h' := by
  unfold submitAndClassify
  refine yields_submitSigned.bind fun h₁ r hr => ?_
  match r with
  | .ok hash => exact keeps_pure fun _ ho => by cases ho
  | .error (.timeout hash) => exact keeps_pure fun _ _ => hr
  | .error (.submission errorResultXDR) => exact yields_any.bind fun _ _ _ => keeps_throw
  | .error (.onChain hash resultXDR) => exact yields_any.bind fun _ _ _ => keeps_throw
  | .error .other => exact keeps_throw

/-- A submit goes on with a hash that is pending, having written nothing, or with a result. -/
theorem yields_submit {signedXDR : SignedXDR} {cfg : Config} {k : OpKey}
    {f : SubmitOutcome → Handler Response} {R : List Done → Response → Prop} (hw : Unwritten h)
    (hp : ∀ h' hash, Unwritten h' → Yields h' (f (.pendingHash hash)) R)
    (hs : ∀ h' hash, Yields h' (f (.result hash)) R) :
    Yields h (submitAndClassify signedXDR cfg k >>= f) R := by
  refine yields_submitAndClassify.bind fun h' o ho => ?_
  cases o with
  | result hash => exact hs h' hash
  | pendingHash hash => exact hp h' hash (ho hash rfl hw)

/-- A row that is read is not written. -/
theorem yields_loadOpOr {k : OpKey} {missing : Response} :
    Yields h (loadOpOr k missing) fun h' _ => Unwritten h → Unwritten h' := by
  refine Keeps.bind (keeps_perform (Q := fun h' _ => Unwritten h → Unwritten h') trivial
    fun r hw => List.forall_mem_cons.mpr ⟨id, hw⟩) fun h₁ r hr => ?_
  exact keeps_orStop fun _ _ => hr

/-- A part of a request that stops without a call has written nothing. -/
theorem yields_checkEnvelope {signedXDR : SignedXDR} {k : OpKey} {build : k.Build} :
    Yields h (checkEnvelope signedXDR k build) fun h' _ => Unwritten h → Unwritten h' :=
  keeps_orStop fun _ _ => id

/-- A creation that is answered as succeeded was marked so. -/
theorem yields_createSubmit {body : Option SignedXDR} (hw : Unwritten h) :
    Yields h (handleCreateSubmit deps wallet id body) fun h' a =>
      Answers h' (.createSubmit id body) a := by
  unfold handleCreateSubmit
  refine Yields.bind quietly_pathID.yields fun h₁ p ⟨hid, hw₁⟩ => ?_
  refine Yields.bind quietly_checkCreatePreconditions.yields fun h₂ event ⟨_, hw₂⟩ => ?_
  refine Yields.bind quietly_signedBody.yields fun h₃ xdr ⟨_, hw₃⟩ => ?_
  refine yields_loadOpOr.bind fun h₄ op hw₄ => ?_
  refine Yields.bind quietly_checkPending.yields fun h₅ _ ⟨_, hw₅⟩ => ?_
  refine yields_checkEnvelope.bind fun h₆ tx hw₆ => ?_
  subst hid
  refine yields_submit (hw₆ (hw₅ (hw₄ (hw₃ (hw₂ (hw₁ hw))))))
    (fun h' hash hw => keeps_pure (.createPending hw)) fun h' hash => ?_
  exact yields_any.bind fun _ now _ => yields_write fun _ hw => .createSubmit hw

/-- A deposit that is answered as succeeded was marked so. -/
theorem yields_depositSubmit {body : Option (String × SignedXDR)} (hw : Unwritten h) :
    Yields h (handleDepositSubmit deps wallet address body) fun h' a =>
      Answers h' (.depositSubmit address body) a := by
  unfold handleDepositSubmit
  refine Yields.bind quietly_checkWalletOwnership.yields fun h₁ account ⟨_, hw₁⟩ => ?_
  refine Yields.bind quietly_depositBody.yields fun h₂ b ⟨hbody, hw₂⟩ => ?_
  obtain ⟨text, xdr⟩ := b
  refine Yields.bind quietly_issuedOpID.yields fun h₃ opID ⟨hid, hw₃⟩ => ?_
  refine yields_loadOpOr.bind fun h₄ op hw₄ => ?_
  refine Yields.bind quietly_checkPending.yields fun h₅ _ ⟨_, hw₅⟩ => ?_
  refine Yields.bind quietly_ensure.yields fun h₆ _ ⟨_, hw₆⟩ => ?_
  refine yields_checkEnvelope.bind fun h₇ tx hw₇ => ?_
  subst hid hbody
  refine yields_submit (hw₇ (hw₆ (hw₅ (hw₄ (hw₃ (hw₂ (hw₁ hw)))))))
    (fun h' hash hw => keeps_pure (.pending trivial hw)) fun h' hash => ?_
  exact yields_write fun _ hw => .depositSubmit hw

/-- Neither is the row of a start. -/
theorem yields_loadStartRow {p : PathID} :
    Yields h (loadStartRow p) fun h' _ => Unwritten h → Unwritten h' := by
  unfold loadStartRow
  refine Keeps.bind (keeps_perform (Q := fun h' _ => Unwritten h → Unwritten h') trivial
    fun r hw => List.forall_mem_cons.mpr ⟨id, hw⟩) fun h₁ answer hanswer => ?_
  match answer with
  | .ok op => exact keeps_pure hanswer
  | .error e => cases e <;> first | exact keeps_pure hanswer | exact keeps_throw

/-- The checks before the submit of a start write nothing. -/
theorem yields_checkStartSubmitPreconditions {p : PathID} (hw : Unwritten h) :
    Yields h (checkStartSubmitPreconditions wallet p) fun h' _ => Unwritten h' := by
  unfold checkStartSubmitPreconditions
  refine Yields.bind (quietly_call (by trivial)).yields fun h₁ r ⟨_, hw₁⟩ => ?_
  refine Yields.bind quietly_orStop.yields fun h₂ event ⟨_, hw₂⟩ => ?_
  refine Yields.bind quietly_ensure.yields fun h₃ _ ⟨_, hw₃⟩ => ?_
  refine Yields.bind yields_loadStartRow fun h₄ row hw₄ => ?_
  refine Yields.bind quietly_ensure.yields fun h₅ _ ⟨_, hw₅⟩ => ?_
  refine Yields.bind quietly_ensure.yields fun h₆ _ ⟨_, hw₆⟩ => ?_
  refine Yields.bind quietly_ensure.yields fun h₇ _ ⟨_, hw₇⟩ => ?_
  refine Yields.bind quietly_expect.yields fun h₈ op ⟨_, hw₈⟩ => ?_
  refine Yields.bind quietly_checkPending.yields fun h₉ _ ⟨_, hw₉⟩ => ?_
  exact keeps_pure (hw₉ (hw₈ (hw₇ (hw₆ (hw₅ (hw₄ (hw₃ (hw₂ (hw₁ hw)))))))))

/-- A start that is answered as succeeded was marked so. -/
theorem yields_startSubmit {body : Option SignedXDR} (hw : Unwritten h) :
    Yields h (handleStartSubmit deps wallet id body) fun h' a =>
      Answers h' (.startSubmit id body) a := by
  unfold handleStartSubmit
  refine Yields.bind quietly_pathID.yields fun h₁ p ⟨hid, hw₁⟩ => ?_
  refine Yields.bind (yields_checkStartSubmitPreconditions (hw₁ hw)) fun h₂ op hw₂ => ?_
  refine Yields.bind quietly_signedBody.yields fun h₃ xdr ⟨_, hw₃⟩ => ?_
  refine yields_checkEnvelope.bind fun h₄ tx hw₄ => ?_
  subst hid
  refine yields_submit (hw₄ (hw₃ hw₂)) (fun h' hash hw => keeps_pure (.pending trivial hw))
    fun h' hash => ?_
  exact yields_any.bind fun _ now _ => yields_write fun _ hw => .startSubmit hw

/-- A release that is answered as succeeded was marked so. -/
theorem yields_releaseSubmit {body : Option SignedXDR} (hw : Unwritten h) :
    Yields h (handleReleaseSubmit deps wallet id body) fun h' a =>
      Answers h' (.releaseSubmit id body) a := by
  unfold handleReleaseSubmit
  refine Yields.bind quietly_pathID.yields fun h₁ p ⟨hid, hw₁⟩ => ?_
  refine Yields.bind quietly_checkReleasePreconditions.yields fun h₂ event ⟨_, hw₂⟩ => ?_
  refine Yields.bind quietly_signedBody.yields fun h₃ xdr ⟨_, hw₃⟩ => ?_
  refine yields_loadOpOr.bind fun h₄ op hw₄ => ?_
  refine Yields.bind quietly_checkPending.yields fun h₅ _ ⟨_, hw₅⟩ => ?_
  refine yields_checkEnvelope.bind fun h₆ tx hw₆ => ?_
  subst hid
  refine yields_submit (hw₆ (hw₅ (hw₄ (hw₃ (hw₂ (hw₁ hw))))))
    (fun h' hash hw => keeps_pure (.pending trivial hw)) fun h' hash => ?_
  exact yields_any.bind fun _ now _ => yields_write fun _ hw => .releaseSubmit hw

/-! ### Reads, and every route -/

/-- A balance is answered for the address that was asked for. -/
theorem yields_walletBalance :
    Yields h (handleWalletBalance deps wallet address) fun h' a =>
      Answers h' (.walletBalance address) a := by
  unfold handleWalletBalance
  refine Yields.bind quietly_checkWalletOwnership.yields fun h₁ account ⟨hown, _⟩ => ?_
  obtain ⟨rfl, key, rfl, rfl⟩ := hown
  exact yields_any.bind fun _ balance _ => keeps_pure .walletBalance

/-- A quote is answered with its three amounts. -/
theorem yields_startQuote :
    Yields h (handleStartQuote deps wallet id) fun h' a => Answers h' (.startQuote id) a := by
  unfold handleStartQuote
  refine yields_any.bind fun h₁ p _ => yields_any.bind fun h₂ event _ => ?_
  refine yields_any.bind fun h₃ q _ => ?_
  exact keeps_pure .startQuote

/-- Every handler answers its route as `Answers` says. -/
theorem yields_handle (route : Route) (hw : Unwritten h) :
    Yields h (handle deps wallet route) fun h' a => Answers h' route a := by
  cases route with
  | healthz => exact keeps_pure .healthz
  | releaseBuild id body => exact yields_releaseBuild
  | releaseSubmit id body => exact yields_releaseSubmit hw
  | walletBalance address => exact yields_walletBalance
  | depositBuild address body => exact yields_depositBuild
  | depositSubmit address body => exact yields_depositSubmit hw
  | createBuild id => exact yields_createBuild
  | createSubmit id body => exact yields_createSubmit hw
  | startQuote id => exact yields_startQuote
  | startBuild id => exact yields_startBuild
  | startSubmit id body => exact yields_startSubmit hw

end Yields

/-- What is refused and what is answered, together. -/
theorem safe_answers {p : Handler Response} {route : Route} (hr : Refuses p)
    (hy : Yields [] p fun h a => Answers h route a) :
    p.answer.Safe (fun _ _ => True) [] fun h a => Answers h route a := by
  have hsettled : Settled [] := fun _ hd => absurd hd List.not_mem_nil
  refine Prog.Safe.bind (Prog.Safe.and hy (hr [] hsettled)) fun h r hboth => ?_
  cases r with
  | ok a => exact hboth.1 a rfl
  | error e => exact .refused (hboth.2 e rfl).2 (hboth.2 e rfl).1

/-- Every response of the service answers its route. -/
theorem serve_answers (deps : Deps) (req : Request) :
    (serve deps req).Safe (fun _ _ => True) [] fun h a => Answers h req.route a := by
  have hunwritten : Unwritten [] := fun _ hd => absurd hd List.not_mem_nil
  have hauthed : ∀ route, (do
      let wallet ← requireAuth deps req
      handle deps wallet route).answer.Safe (fun _ _ => True) [] fun h a => Answers h route a :=
    fun route =>
      safe_answers (tame_requireAuth.refuses fun _ => refuses_handle route)
        (Yields.bind quietly_requireAuth.yields fun _ _ hw => yields_handle route (hw.2 hunwritten))
  unfold serve Service.route
  cases req.route with
  | healthz => exact safe_answers refuses_pure (keeps_pure .healthz)
  | _ => exact hauthed _

end Service
