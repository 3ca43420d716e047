/-
# Every request keeps to its obligations

One lemma per handler, along its body: the quiet stretches up to the call that matters, and
the grounds of that call.  `serve_safe` puts them together.
-/
import Astrea.Obligations

open Guard (bind_eq_ok ensure_eq_ok expect_eq_ok pure_eq_ok)
open Interleave Interleave.Guarded

namespace Service

variable {deps : Deps} {req : Request} {wallet : Address} {h : List Done}

/-- A request that has been quiet has not written. -/
theorem unwritten_of_quiet (hq : Quiet [] h) : ∀ d ∈ h, ¬ d.op.IsWrite :=
  hq.not_mem not_quiet_of_isWrite fun _ hd => absurd hd List.not_mem_nil

/-- The write of a success at the end of a submit. -/
theorem keeps_mark {w : StoreWrite} {e : StoreError → Response} {response : Response}
    (hmark : ∀ route, ¬ Route.Saves route w) (hwrite : ∀ d ∈ h, ¬ d.op.IsWrite)
    (hg : Grounds h w) :
    Keeps (MayCall deps req) h (do orStop (← call (.write w)) e; return response)
      fun _ _ => True := by
  refine Keeps.bind (keeps_write hmark hwrite hg) fun h₁ r _ => ?_
  exact Keeps.bind (Q := fun _ _ => True) (keeps_orStop fun _ _ => trivial) fun h₂ _ _ =>
    keeps_pure trivial

/-- The save at the end of a build: the one write of a request that has been quiet. -/
theorem keeps_save {w : StoreWrite} {e : StoreError → Response} {response : Response}
    (hroute : req.route.Saves w) (hq : Quiet [] h) (hg : Grounds h w) :
    Keeps (MayCall deps req) h (do orStop (← call (.write w)) e; return response)
      fun _ _ => True := by
  refine Keeps.bind (Q := fun _ _ => True)
    (keeps_perform ⟨⟨unwritten_of_quiet hq, hg⟩, .inl hroute⟩ fun _ => trivial) fun h₁ r _ => ?_
  exact Keeps.bind (Q := fun _ _ => True) (keeps_orStop fun _ _ => trivial) fun h₂ _ _ =>
    keeps_pure trivial

/-- What has been reported stays reported. -/
theorem ReportedSuccess.mono {h h' : List Done} {k : OpKey} {build : k.Build} {hash : TxHash}
    (hr : ReportedSuccess h k build hash) (hsub : ∀ d ∈ h, d ∈ h') :
    ReportedSuccess h' k build hash := by
  obtain ⟨response, ⟨tx, signatures, hv, hsent⟩, haccepted, hhash, hfound⟩ := hr
  exact ⟨response, ⟨tx, signatures, hv.mono hsub, hsub _ hsent⟩, haccepted, hhash,
    hsub _ hfound⟩

/-! ## Builds -/

/-- Building a creation makes only permitted calls. -/
theorem keeps_handleCreateBuild {id : String} (hroute : req.route = .createBuild id)
    (hq : Quiet [] h) :
    Keeps (MayCall deps req) h (handleCreateBuild deps wallet id) fun _ _ => True := by
  unfold handleCreateBuild
  refine quietly_pathID.bind fun h₁ eventID hq₁ hid => ?_
  refine quietly_checkCreatePreconditions.bind fun h₂ event hq₂ _ => ?_
  refine quietly_orStop.bind fun h₃ reward hq₃ _ => ?_
  refine (quietly_call (by trivial)).bind fun h₄ r hq₄ hr => ?_
  refine quietly_orStop.bind fun h₅ eid hq₅ heid => ?_
  refine quietly_getDefaultResolver.bind fun h₆ resolver hq₆ _ => ?_
  refine quietly_expect.bind fun h₇ judge hq₇ _ => ?_
  refine quietly_buildUnsigned.bind fun h₈ unsigned hq₈ hbuilt => ?_
  refine (quietly_hostFunctionXDRFrom hbuilt).bind fun h₉ hf hq₉ hhf => ?_
  subst heid hhf
  have hafter : Quiet h₄ h₉ := (((hq₅.trans hq₆).trans hq₇).trans hq₈).trans hq₉
  refine keeps_save (by rw [hroute]; exact hid) ?_ ⟨hafter.mem hr, _, _, _, _, _, rfl⟩
  exact (((hq.trans hq₁).trans hq₂).trans hq₃).trans (hq₄.trans hafter)

/-- Building a deposit makes only permitted calls. -/
theorem keeps_handleDepositBuild {address : Option (BitVec 256)} {body : Option GoString}
    (hroute : req.route = .depositBuild address body) (hq : Quiet [] h) :
    Keeps (MayCall deps req) h (handleDepositBuild deps wallet address body)
      fun _ _ => True := by
  unfold handleDepositBuild
  refine quietly_checkWalletOwnership.bind fun h₁ account hq₁ _ => ?_
  refine quietly_expect.bind fun h₂ text hq₂ _ => ?_
  refine quietly_orStop.bind fun h₃ amount hq₃ _ => ?_
  refine quietly_ensure.bind fun h₄ _ hq₄ _ => ?_
  refine quietly_buildUnsigned.bind fun h₅ unsigned hq₅ hbuilt => ?_
  refine (quietly_hostFunctionXDRFrom hbuilt).bind fun h₆ hf hq₆ hhf => ?_
  refine (quietly_call (by trivial)).bind fun h₇ r hq₇ _ => ?_
  refine quietly_orStop.bind fun h₈ opID hq₈ _ => ?_
  subst hhf
  refine keeps_save (by rw [hroute]; trivial) ?_ ⟨_, _, _, rfl⟩
  exact (((((((hq.trans hq₁).trans hq₂).trans hq₃).trans hq₄).trans hq₅).trans hq₆).trans
    hq₇).trans hq₈

/-- Building a start makes only permitted calls. -/
theorem keeps_handleStartBuild {id : String} (hroute : req.route = .startBuild id)
    (hq : Quiet [] h) :
    Keeps (MayCall deps req) h (handleStartBuild deps wallet id) fun _ _ => True := by
  unfold handleStartBuild
  refine quietly_pathID.bind fun h₁ eventID hq₁ hid => ?_
  refine quietly_checkStartPreconditions.bind fun h₂ event hq₂ hevent => ?_
  refine quietly_checkStartDeadline.bind fun h₃ deadline hq₃ _ => ?_
  refine quietly_quoteAndBalance.bind fun h₄ q hq₄ heid => ?_
  obtain ⟨eid, fee, balance⟩ := q
  refine quietly_ensure.bind fun h₅ _ hq₅ _ => ?_
  refine quietly_buildUnsigned.bind fun h₆ unsigned hq₆ hbuilt => ?_
  refine (quietly_hostFunctionXDRFrom hbuilt).bind fun h₇ hf hq₇ hhf => ?_
  subst hhf
  have hafter : Quiet h₂ h₇ := (((hq₃.trans hq₄).trans hq₅).trans hq₆).trans hq₇
  refine keeps_save (by rw [hroute]; exact hid) ?_ ⟨event, eid, hafter.mem hevent, heid, rfl⟩
  exact ((hq.trans hq₁).trans hq₂).trans hafter

/-- The host function of a release is a `release_reward`. -/
theorem releaseRewardHostFunction_eq_ok {judge : Address} {eid : EventID} {ws : List Winner}
    {hf : HostFunction} (hok : releaseRewardHostFunction judge eid ws = .ok hf) :
    hf = .invokeEscrow (.releaseReward judge eid (ws.map winnerScVal)) := by
  simp only [releaseRewardHostFunction, bind_eq_ok, ensure_eq_ok, pure_eq_ok] at hok
  obtain ⟨-, -, -, -, rfl⟩ := hok
  rfl

/-- Building a release makes only permitted calls. -/
theorem keeps_handleReleaseBuild {id : String} {body : Option (List Assignment)}
    (hroute : req.route = .releaseBuild id body) (hq : Quiet [] h) :
    Keeps (MayCall deps req) h (handleReleaseBuild deps wallet id body) fun _ _ => True := by
  unfold handleReleaseBuild
  refine quietly_pathID.bind fun h₁ eventID hq₁ hid => ?_
  refine quietly_checkReleasePreconditions.bind fun h₂ e hq₂ hevent => ?_
  obtain ⟨event, judge⟩ := e
  refine quietly_expect.bind fun h₃ assignments hq₃ _ => ?_
  refine quietly_ensure.bind fun h₄ _ hq₄ _ => ?_
  refine quietly_orStop.bind fun h₅ _ hq₅ _ => ?_
  refine quietly_orStop.bind fun h₆ input hq₆ _ => ?_
  obtain ⟨positions, teams, reward⟩ := input
  refine quietly_orStop.bind fun h₇ winners hq₇ _ => ?_
  refine quietly_orStop.bind fun h₈ releaseWinners hq₈ _ => ?_
  refine quietly_ensure.bind fun h₉ _ hq₉ _ => ?_
  refine (quietly_call (by trivial)).bind fun h₁₀ r hq₁₀ _ => ?_
  refine quietly_orStop.bind fun h₁₁ _ hq₁₁ _ => ?_
  refine quietly_expect.bind fun h₁₂ eid hq₁₂ heid => ?_
  refine quietly_orStop.bind fun h₁₃ hf hq₁₃ hhf => ?_
  refine quietly_buildUnsigned.bind fun h₁₄ unsigned hq₁₄ hbuilt => ?_
  refine (quietly_hostFunctionXDRFrom hbuilt).bind fun h₁₅ hf' hq₁₅ hhf' => ?_
  subst hhf'
  obtain rfl := releaseRewardHostFunction_eq_ok hhf
  have hafter : Quiet h₂ h₁₅ := ((((((hq₃.trans hq₄).trans hq₅).trans hq₆).trans hq₇).trans
    (hq₈.trans (hq₉.trans (hq₁₀.trans hq₁₁)))).trans hq₁₂).trans
    (hq₁₃.trans (hq₁₄.trans hq₁₅))
  refine keeps_save (by rw [hroute]; exact hid) ?_
    ⟨event, eid, judge, _, hafter.mem hevent.1, heid, rfl⟩
  exact ((hq.trans hq₁).trans hq₂).trans hafter

/-! ## Submits -/

theorem not_saves_markCreate {p : PathID} {eid : EventID} {t : Time} (route : Route) :
    ¬ route.Saves (.markCreateSucceeded p eid t) := by
  cases route <;> exact id

theorem not_saves_markDeposit {o : OpID} (route : Route) :
    ¬ route.Saves (.markDepositSucceeded o) := by
  cases route <;> exact id

theorem not_saves_markStart {p : PathID} {hf : HostFunction} {t : Time} (route : Route) :
    ¬ route.Saves (.markStartSucceeded p hf t) := by
  cases route <;> exact id

theorem not_saves_markRelease {p : PathID} {txHash : TxHash} {t : Time} (route : Route) :
    ¬ route.Saves (.markReleaseSucceeded p txHash t) := by
  cases route <;> exact id

theorem keeps_handleCreateSubmit {id : String} {body : Option SignedXDR}
    (hroute : req.route = .createSubmit id body) (hc : Caller deps req wallet)
    (hq : Quiet [] h) :
    Keeps (MayCall deps req) h (handleCreateSubmit deps wallet id body) fun _ _ => True := by
  unfold handleCreateSubmit
  refine quietly_pathID.bind fun h₁ eventID hq₁ hid => ?_
  refine quietly_checkCreatePreconditions.bind fun h₂ event hq₂ hevent => ?_
  refine quietly_signedBody.bind fun h₃ signedXDR hq₃ hbody => ?_
  refine Keeps.bind (keeps_loadOpOr (((hq.trans hq₁).trans hq₂).trans hq₃))
    fun h₄ op ⟨hl, hq₄⟩ => ?_
  refine quietly_checkPending.bind fun h₅ _ hq₅ hpending => ?_
  refine (quietly_checkEnvelope (hl.mono hq₅) hpending).bind fun h₆ tx hq₆ hv => ?_
  obtain ⟨signatures, rfl, hsigned, hv⟩ := hv
  have hafter : ∀ d ∈ h₂, d ∈ h₆ := fun d hd => hq₆.mem (hq₅.mem (hq₄ d (hq₃.mem hd)))
  refine keeps_submit ((hl.mono hq₅).mono hq₆)
    ⟨by rw [hroute]; exact ⟨hid, hbody⟩, hsigned, hv, wallet, hc,
      event, hafter _ hevent.1, hevent.2⟩ (fun _ _ => keeps_pure trivial) ?_
  intro h₇ hash hwrite hreport
  refine (quietly_call (by trivial)).bind fun h₈ now hq₈ _ => ?_
  exact keeps_mark not_saves_markCreate (hq₈.not_mem not_quiet_of_isWrite hwrite)
    ⟨op.build, hash, hreport.mono fun d hd => hq₈.mem hd, rfl⟩

theorem keeps_handleDepositSubmit {address : Option (BitVec 256)}
    {body : Option (String × SignedXDR)} (hroute : req.route = .depositSubmit address body)
    (hc : Caller deps req wallet) (hq : Quiet [] h) :
    Keeps (MayCall deps req) h (handleDepositSubmit deps wallet address body)
      fun _ _ => True := by
  unfold handleDepositSubmit
  refine quietly_checkWalletOwnership.bind fun h₁ account hq₁ hown => ?_
  obtain ⟨rfl, key, rfl, hkey⟩ := hown
  refine quietly_depositBody.bind fun h₂ b hq₂ hbody => ?_
  obtain ⟨opIDText, signedXDR⟩ := b
  refine quietly_issuedOpID.bind fun h₃ opID hq₃ hid => ?_
  subst hid
  refine Keeps.bind (keeps_loadOpOr (((hq.trans hq₁).trans hq₂).trans hq₃))
    fun h₄ op ⟨hl, _⟩ => ?_
  refine quietly_checkPending.bind fun h₅ _ hq₅ hpending => ?_
  refine quietly_ensure.bind fun h₆ _ hq₆ hsource => ?_
  refine (quietly_checkEnvelope ((hl.mono hq₅).mono hq₆) hpending).bind fun h₇ tx hq₇ hv => ?_
  obtain ⟨signatures, rfl, hsigned, hv⟩ := hv
  refine keeps_submit (((hl.mono hq₅).mono hq₆).mono hq₇)
    ⟨by rw [hroute]; exact hbody, hsigned, hv, account, hc, hsource, key, body, hroute, hkey⟩
    (fun _ _ => keeps_pure trivial) ?_
  intro h₈ hash hwrite hreport
  exact keeps_mark not_saves_markDeposit hwrite ⟨op.build, hash, hreport⟩

/-- A start is submitted from a pending row of an event that the caller organizes. -/
theorem keeps_checkStartSubmitPreconditions {p : PathID} (hq : Quiet [] h) :
    Keeps (MayCall deps req) h (checkStartSubmitPreconditions wallet p) fun h' op =>
      RowLoaded h' (.start p) op ∧ op.status = .pending ∧
        ∃ event, (⟨.loadEventForStart p, .ok event⟩ : Done) ∈ h' ∧
          event.organizerWalletAddress = wallet := by
  unfold checkStartSubmitPreconditions
  refine (quietly_call (by trivial)).bind fun h₁ r hq₁ hr => ?_
  refine quietly_orStop.bind fun h₂ event hq₂ hevent => ?_
  refine quietly_ensure.bind fun h₃ _ hq₃ howner => ?_
  refine Keeps.bind (keeps_loadStartRow (((hq.trans hq₁).trans hq₂).trans hq₃))
    fun h₄ row ⟨hrow, hq₄⟩ => ?_
  refine quietly_ensure.bind fun h₅ _ hq₅ _ => ?_
  refine quietly_ensure.bind fun h₆ _ hq₆ _ => ?_
  refine quietly_ensure.bind fun h₇ _ hq₇ _ => ?_
  refine quietly_expect.bind fun h₈ op hq₈ hop => ?_
  refine quietly_checkPending.bind fun h₉ _ hq₉ hpending => ?_
  subst hevent
  have hafter : Quiet h₄ h₉ := (((hq₅.trans hq₆).trans hq₇).trans hq₈).trans hq₉
  exact keeps_pure ⟨(hrow op hop).mono hafter, hpending, event,
    hafter.mem (hq₄ _ ((hq₂.trans hq₃).mem hr)), howner.symm⟩

theorem keeps_handleStartSubmit {id : String} {body : Option SignedXDR}
    (hroute : req.route = .startSubmit id body) (hc : Caller deps req wallet)
    (hq : Quiet [] h) :
    Keeps (MayCall deps req) h (handleStartSubmit deps wallet id body) fun _ _ => True := by
  unfold handleStartSubmit
  refine quietly_pathID.bind fun h₁ eventID hq₁ hid => ?_
  refine Keeps.bind (keeps_checkStartSubmitPreconditions (hq.trans hq₁)) fun h₂ op hop => ?_
  obtain ⟨hl, hpending, event, hevent, howner⟩ := hop
  refine quietly_signedBody.bind fun h₃ signedXDR hq₃ hbody => ?_
  refine (quietly_checkEnvelope (hl.mono hq₃) hpending).bind fun h₄ tx hq₄ hv => ?_
  obtain ⟨signatures, rfl, hsigned, hv⟩ := hv
  refine keeps_submit ((hl.mono hq₃).mono hq₄)
    ⟨by rw [hroute]; exact ⟨hid, hbody⟩, hsigned, hv, wallet, hc,
      event, (hq₃.trans hq₄).mem hevent, howner⟩ (fun _ _ => keeps_pure trivial) ?_
  intro h₅ hash hwrite hreport
  refine (quietly_call (by trivial)).bind fun h₆ now hq₆ _ => ?_
  exact keeps_mark not_saves_markStart (hq₆.not_mem not_quiet_of_isWrite hwrite)
    ⟨op.build, hash, hreport.mono fun d hd => hq₆.mem hd, rfl⟩

theorem keeps_handleReleaseSubmit {id : String} {body : Option SignedXDR}
    (hroute : req.route = .releaseSubmit id body) (hc : Caller deps req wallet)
    (hq : Quiet [] h) :
    Keeps (MayCall deps req) h (handleReleaseSubmit deps wallet id body) fun _ _ => True := by
  unfold handleReleaseSubmit
  refine quietly_pathID.bind fun h₁ eventID hq₁ hid => ?_
  refine quietly_checkReleasePreconditions.bind fun h₂ event hq₂ hevent => ?_
  refine quietly_signedBody.bind fun h₃ signedXDR hq₃ hbody => ?_
  refine Keeps.bind (keeps_loadOpOr (((hq.trans hq₁).trans hq₂).trans hq₃))
    fun h₄ op ⟨hl, hq₄⟩ => ?_
  refine quietly_checkPending.bind fun h₅ _ hq₅ hpending => ?_
  refine (quietly_checkEnvelope (hl.mono hq₅) hpending).bind fun h₆ tx hq₆ hv => ?_
  obtain ⟨signatures, rfl, hsigned, hv⟩ := hv
  have hafter : ∀ d ∈ h₂, d ∈ h₆ := fun d hd => hq₆.mem (hq₅.mem (hq₄ d (hq₃.mem hd)))
  refine keeps_submit ((hl.mono hq₅).mono hq₆)
    ⟨by rw [hroute]; exact ⟨hid, hbody⟩, hsigned, hv, wallet, hc,
      event.1, hafter _ hevent.1, hevent.2⟩ (fun _ _ => keeps_pure trivial) ?_
  intro h₇ hash hwrite hreport
  refine (quietly_call (by trivial)).bind fun h₈ now hq₈ _ => ?_
  exact keeps_mark not_saves_markRelease (hq₈.not_mem not_quiet_of_isWrite hwrite)
    ⟨op.build, hreport.mono fun d hd => hq₈.mem hd⟩

/-! ## Reads -/

theorem quietly_handleWalletBalance {address : Option (BitVec 256)} :
    Quietly h (handleWalletBalance deps wallet address) fun _ _ => True := by
  unfold handleWalletBalance
  refine quietly_checkWalletOwnership.then fun h₁ account _ _ => ?_
  refine quietly_getBalance.then fun h₂ balance _ _ => ?_
  exact quietly_pure trivial

theorem quietly_handleStartQuote {id : String} :
    Quietly h (handleStartQuote deps wallet id) fun _ _ => True := by
  unfold handleStartQuote
  refine quietly_pathID.then fun h₁ eventID _ _ => ?_
  refine quietly_checkStartPreconditions.then fun h₂ event _ _ => ?_
  refine quietly_quoteAndBalance.then fun h₃ q _ _ => ?_
  exact quietly_pure trivial

/-! ## Requests -/

/-- Every route makes only permitted calls. -/
theorem keeps_handle {route : Route} (hroute : req.route = route) (hc : Caller deps req wallet)
    (hq : Quiet [] h) :
    Keeps (MayCall deps req) h (handle deps wallet route) fun _ _ => True := by
  cases route with
  | healthz => exact keeps_pure trivial
  | releaseBuild id body => exact keeps_handleReleaseBuild hroute hq
  | releaseSubmit id body => exact keeps_handleReleaseSubmit hroute hc hq
  | walletBalance address =>
      exact Keeps.mono quietly_handleWalletBalance.keeps fun _ _ _ => trivial
  | depositBuild address body => exact keeps_handleDepositBuild hroute hq
  | depositSubmit address body => exact keeps_handleDepositSubmit hroute hc hq
  | createBuild id => exact keeps_handleCreateBuild hroute hq
  | createSubmit id body => exact keeps_handleCreateSubmit hroute hc hq
  | startQuote id => exact Keeps.mono quietly_handleStartQuote.keeps fun _ _ _ => trivial
  | startBuild id => exact keeps_handleStartBuild hroute hq
  | startSubmit id body => exact keeps_handleStartSubmit hroute hc hq

/-- Who gets past the token is the caller of the request. -/
theorem quietly_requireAuth : Quietly h (requireAuth deps req) fun _ wallet =>
    Caller deps req wallet := by
  unfold requireAuth
  refine quietly_ensure.then fun h₁ _ _ hbearer => ?_
  refine quietly_expect.then fun h₂ key _ hkey => ?_
  exact quietly_pure ⟨hbearer, key, hkey, rfl⟩

/-- Every request keeps to its obligation. -/
theorem serve_mayCall (deps : Deps) (req : Request) :
    (serve deps req).Safe (MayCall deps req) [] fun _ _ => True := by
  refine safe_answer ?_
  unfold route
  split
  · exact keeps_pure trivial
  · exact quietly_requireAuth.bind fun h₁ wallet hq₁ hc => keeps_handle rfl hc hq₁

/-- Every call of every request is permitted. -/
theorem serve_safe (deps : Deps) (r : Request) :
    (serve deps r).Safe Permitted [] fun _ _ => True :=
  (serve_mayCall deps r).weaken fun _ _ hop => hop.1

end Service
