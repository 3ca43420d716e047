/-
# What a request may do

The obligation every call of a request meets, stated over the calls the request made
before it: a build is saved under the id or the event that was read for it, only the
verified envelope of a pending build is sent, and an outcome is recorded only after the
network reported it (`Permitted`).  What depends on the request itself is added to it in
`MayCall`: who sends, and which routes write what.  `serve_safe` says that the program of
every request keeps to its obligation.
-/
import Astrea.Router

open Guard (bind_eq_ok ensure_eq_ok expect_eq_ok pure_eq_ok)
open Interleave Interleave.Guarded

namespace Service

/-! ## The obligation -/

/-- The request read `build` from the pending row of `k`, and `tx` is signed for it. -/
structure Verified (h : List Done) (k : OpKey) (build : k.Build) (tx : Transaction) : Prop where
  loaded : (⟨.loadOp k, .ok ⟨.pending, build⟩⟩ : Done) ∈ h
  source : tx.sourceAccount.getAddress = .plain (k.sourceAccount build)
  hostFunction : tx.hostFunction = some (k.hostFunction build)

/-- The request sent a verified envelope of `build` and got this response. -/
def Sent (h : List Done) (k : OpKey) (build : k.Build) (response : SendResponse) : Prop :=
  ∃ tx signatures, Verified h k build tx ∧
    (⟨.sendTransaction (.envelope (.v1 tx signatures)), .ok response⟩ : Done) ∈ h

/-- The request sent an envelope of `build`, and the network reported that the transaction
of this hash succeeded. -/
def ReportedSuccess (h : List Done) (k : OpKey) (build : k.Build) (hash : TxHash) : Prop :=
  ∃ response, Sent h k build response ∧ response.status ≠ .error ∧ response.hash = hash ∧
    (⟨.getTransaction hash, .ok .success⟩ : Done) ∈ h

/-- The request sent an envelope of `build`, and the network refused the transaction or
reported that it failed. -/
def ReportedFailure (h : List Done) (k : OpKey) (build : k.Build) : Prop :=
  ∃ response, Sent h k build response ∧
    (response.status = .error ∨
      ∃ resultXDR, (⟨.getTransaction response.hash, .ok (.failed resultXDR)⟩ : Done) ∈ h)

/-- What a write rests on. -/
def Grounds (h : List Done) : StoreWrite → Prop
  | .saveCreateBuild _ build =>
      (⟨.newEventID, .ok build.escrowEventID⟩ : Done) ∈ h ∧
        ∃ admin judge resolver token reward, build.hostFunctionXDR =
          createEventHostFunction admin judge resolver token reward build.escrowEventID
  | .saveDepositBuild _ build =>
      ∃ admin token amount, build.hostFunctionXDR = depositFundsHostFunction admin token amount
  | .saveStartBuild eventID build =>
      ∃ event eid, (⟨.loadEventForStart eventID, .ok event⟩ : Done) ∈ h ∧
        event.escrowEventID = some eid ∧ build.hostFunctionXDR =
          setEventInProgressHostFunction event.organizerWalletAddress eid
            build.judgingDeadline.toUInt64
  | .saveReleaseBuild eventID build =>
      ∃ event eid judge winners, (⟨.loadEventForRelease eventID, .ok event⟩ : Done) ∈ h ∧
        event.escrowEventID = some eid ∧
        build.hostFunctionXDR = .invokeEscrow (.releaseReward judge eid winners)
  | .markCreateSucceeded eventID escrowEventID _ =>
      ∃ build hash, ReportedSuccess h (.create eventID) build hash ∧
        escrowEventID = CreateBuild.escrowEventID build
  | .markDepositSucceeded opID => ∃ build hash, ReportedSuccess h (.deposit opID) build hash
  | .markStartSucceeded eventID hostFunctionXDR _ =>
      ∃ build hash, ReportedSuccess h (.start eventID) build hash ∧
        hostFunctionXDR = StartBuild.hostFunctionXDR build
  | .markReleaseSucceeded eventID txHash _ =>
      ∃ build, ReportedSuccess h (.release eventID) build txHash
  | .markFailed k _ => ∃ build, ReportedFailure h k build

/-- The call `op` may be made after the calls `h`: a request reads at most one row, sends at
most once and writes at most once, each on its grounds. -/
def Permitted (h : List Done) : Op → Prop
  | .loadOp _ => ∀ d ∈ h, ¬ d.op.IsRowRead
  | .sendTransaction signedXDR =>
      (∀ d ∈ h, ¬ d.op.IsSend) ∧
        ∃ k build tx signatures, Verified h k build tx ∧ signedXDR = .envelope (.v1 tx signatures)
  | .write w => (∀ d ∈ h, ¬ d.op.IsWrite) ∧ Grounds h w
  | _ => True

/-! ## The obligation of a request -/

/-- The key of the row and the envelope a submit names. -/
def Route.Submits : Route → OpKey → SignedXDR → Prop
  | .createSubmit id body, .create p, x => id = p.text ∧ body = some x
  | .depositSubmit _ body, .deposit o, x => body = some (o.text, x)
  | .startSubmit id body, .start p, x => id = p.text ∧ body = some x
  | .releaseSubmit id body, .release p, x => id = p.text ∧ body = some x
  | _, _, _ => False

/-- The save a build makes. -/
def Route.Saves : Route → StoreWrite → Prop
  | .createBuild id, .saveCreateBuild p _ => id = p.text
  | .depositBuild _ _, .saveDepositBuild _ _ => True
  | .startBuild id, .saveStartBuild p _ => id = p.text
  | .releaseBuild id _, .saveReleaseBuild p _ => id = p.text
  | _, _ => False

/-- The request is from an authenticated caller with this wallet. -/
structure Caller (deps : Deps) (req : Request) (wallet : Address) : Prop where
  bearer : validBearer req.authorization deps.serviceToken = true
  wallet : ∃ key, req.wallet = some key ∧ wallet = .account key

/-- As far as the request has read, `wallet` is who may submit the build of `k`: the event's
organizer or its only judge, or the wallet the deposit's path names. -/
def Entitled (h : List Done) (route : Route) (wallet : Address) : (k : OpKey) → k.Build → Prop
  | .create p, _ => ∃ event, (⟨.loadEventForCreate p, .ok event⟩ : Done) ∈ h ∧
      event.organizerWalletAddress = wallet
  | .deposit _, build => DepositBuild.sourceAccount build = wallet ∧
      ∃ key body, route = .depositSubmit (some key) body ∧ wallet = .account key
  | .start p, _ => ∃ event, (⟨.loadEventForStart p, .ok event⟩ : Done) ∈ h ∧
      event.organizerWalletAddress = wallet
  | .release p, _ => ∃ event, (⟨.loadEventForRelease p, .ok event⟩ : Done) ∈ h ∧
      event.judges = [wallet]

/-- The request may send `tx` with these signatures for the build of `k`. -/
structure Cleared (deps : Deps) (req : Request) (h : List Done) (k : OpKey) (build : k.Build)
    (tx : Transaction) (signatures : List ℕ) : Prop where
  submits : req.route.Submits k (.envelope (.v1 tx signatures))
  signed : signatures ≠ []
  verified : Verified h k build tx
  entitled : ∃ wallet, Caller deps req wallet ∧ Entitled h req.route wallet k build

/-- The call `op` may be made by this request: only a submit sends, and what it was given;
a write is the save of a build route, or comes after the send. -/
def MayCall (deps : Deps) (req : Request) (h : List Done) (op : Op) : Prop :=
  Permitted h op ∧
    match op with
    | .sendTransaction x => ∃ k build tx signatures, x = .envelope (.v1 tx signatures) ∧
        Cleared deps req h k build tx signatures
    | .write w => req.route.Saves w ∨ (∀ route : Route, ¬ route.Saves w) ∧ ∃ d ∈ h, d.op.IsSend
    | _ => True

/-- Who was entitled stays so as the history grows. -/
theorem Entitled.mono {h h' : List Done} {route : Route} {wallet : Address} {k : OpKey}
    {build : k.Build} (he : Entitled h route wallet k build) (hsub : ∀ d ∈ h, d ∈ h') :
    Entitled h' route wallet k build := by
  cases k with
  | create p =>
      obtain ⟨event, hevent, hwallet⟩ := he
      exact ⟨event, hsub _ hevent, hwallet⟩
  | deposit o => exact he
  | start p =>
      obtain ⟨event, hevent, hwallet⟩ := he
      exact ⟨event, hsub _ hevent, hwallet⟩
  | release p =>
      obtain ⟨event, hevent, hwallet⟩ := he
      exact ⟨event, hsub _ hevent, hwallet⟩

/-! ## Quiet stretches of a request -/

/-- Only quiet calls lie between two points of a request. -/
def Quiet (h h' : List Done) : Prop := ∃ more, h' = more ++ h ∧ ∀ d ∈ more, d.op.IsQuiet

theorem Quiet.refl (h : List Done) : Quiet h h := ⟨[], rfl, fun _ hd => absurd hd List.not_mem_nil⟩

theorem Quiet.trans {h₁ h₂ h₃ : List Done} (h₁₂ : Quiet h₁ h₂) (h₂₃ : Quiet h₂ h₃) :
    Quiet h₁ h₃ := by
  obtain ⟨more, rfl, hmore⟩ := h₁₂
  obtain ⟨more', rfl, hmore'⟩ := h₂₃
  refine ⟨more' ++ more, (List.append_assoc _ _ _).symm, fun d hd => ?_⟩
  rcases List.mem_append.mp hd with hd | hd
  · exact hmore' d hd
  · exact hmore d hd

theorem Quiet.cons {h : List Done} {d : Done} (hd : d.op.IsQuiet) : Quiet h (d :: h) :=
  ⟨[d], rfl, fun d' hd' => by rwa [List.mem_singleton.mp hd']⟩

theorem Quiet.mem {h h' : List Done} (hq : Quiet h h') {d : Done} (hd : d ∈ h) : d ∈ h' := by
  obtain ⟨more, rfl, -⟩ := hq
  exact List.mem_append_right _ hd

/-- A kind of call that is not quiet does not occur in a quiet stretch. -/
theorem Quiet.not_mem {h h' : List Done} (hq : Quiet h h') {P : Op → Prop}
    (hP : ∀ op, P op → ¬ op.IsQuiet) (hnot : ∀ d ∈ h, ¬ P d.op) : ∀ d ∈ h', ¬ P d.op := by
  obtain ⟨more, rfl, hmore⟩ := hq
  intro d hd hPd
  rcases List.mem_append.mp hd with hd | hd
  · exact hP d.op hPd (hmore d hd)
  · exact hnot d hd hPd

/-- A write is no quiet call. -/
theorem not_quiet_of_isWrite (op : Op) (h : op.IsWrite) : ¬ op.IsQuiet := by
  cases op <;> first | exact id | exact fun _ => h

/-- A send is no quiet call. -/
theorem not_quiet_of_isSend (op : Op) (h : op.IsSend) : ¬ op.IsQuiet := by
  cases op <;> first | exact id | exact fun _ => h

theorem not_quiet_of_isRowRead (op : Op) (h : op.IsRowRead) : ¬ op.IsQuiet := by
  cases op <;> first | exact id | exact fun _ => h

/-- A quiet call may always be made. -/
theorem mayCall_of_quiet {deps : Deps} {req : Request} {h : List Done} {op : Op}
    (hop : op.IsQuiet) : MayCall deps req h op := by
  cases op <;> first | exact ⟨trivial, trivial⟩ | exact absurd hop id

/-- A verified build stays verified. -/
theorem Verified.mono {h h' : List Done} {k : OpKey} {build : k.Build} {tx : Transaction}
    (hv : Verified h k build tx) (hsub : ∀ d ∈ h, d ∈ h') : Verified h' k build tx :=
  ⟨hsub _ hv.loaded, hv.source, hv.hostFunction⟩

/-- A part of a request that makes quiet calls only, and what it goes on with. -/
def Quietly {α : Type} (h : List Done) (p : Handler α) (P : List Done → α → Prop) : Prop :=
  Keeps (fun _ op => op.IsQuiet) h p fun h' a => Quiet h h' ∧ P h' a

variable {α β : Type} {deps : Deps} {req : Request} {h : List Done}

theorem quietly_pure {a : α} {P : List Done → α → Prop} (ha : P h a) :
    Quietly h (pure a : Handler α) P := keeps_pure ⟨.refl h, ha⟩

theorem quietly_throw {r : Response} {P : List Done → α → Prop} :
    Quietly h (throw r : Handler α) P := keeps_throw

/-- A quiet call is remembered. -/
theorem quietly_call {op : Op} (hop : op.IsQuiet) :
    Quietly h (call op) fun h' r => (⟨op, r⟩ : Done) ∈ h' :=
  keeps_perform hop fun _ => ⟨.cons hop, List.mem_cons_self⟩

theorem quietly_ensure {p : Prop} [Decidable p] {r : Response} :
    Quietly h (ensure p r : Handler Unit) fun _ _ => p :=
  keeps_ensure fun hp => ⟨.refl h, hp⟩

theorem quietly_expect {o : Option α} {r : Response} :
    Quietly h (expect o r : Handler α) fun _ a => o = some a :=
  keeps_expect fun _ ha => ⟨.refl h, ha⟩

theorem quietly_orStop {δ : Type} {x : Except δ α} {e : δ → Response} :
    Quietly h (orStop x e : Handler α) fun _ a => x = .ok a :=
  keeps_orStop fun _ ha => ⟨.refl h, ha⟩

/-- A quiet part of a request keeps to the obligation of the request. -/
theorem Quietly.keeps {p : Handler α} {P : List Done → α → Prop} (hp : Quietly h p P) :
    Keeps (MayCall deps req) h p fun h' a => Quiet h h' ∧ P h' a :=
  Prog.Safe.weaken hp fun _ _ => mayCall_of_quiet

/-- Go on after a quiet part. -/
theorem Quietly.bind {p : Handler α} {f : α → Handler β} {P : List Done → α → Prop}
    {R : List Done → β → Prop} (hp : Quietly h p P)
    (hf : ∀ h' a, Quiet h h' → P h' a → Keeps (MayCall deps req) h' (f a) R) :
    Keeps (MayCall deps req) h (p >>= f) R :=
  Keeps.bind hp.keeps fun h' a hq => hf h' a hq.1 hq.2

/-- Two quiet parts are a quiet part. -/
theorem Quietly.then {p : Handler α} {f : α → Handler β} {P : List Done → α → Prop}
    {R : List Done → β → Prop} (hp : Quietly h p P)
    (hf : ∀ h' a, Quiet h h' → P h' a → Quietly h' (f a) R) : Quietly h (p >>= f) R :=
  Keeps.bind hp fun h' a hq => Keeps.mono (hf h' a hq.1 hq.2) fun _ _ hr =>
    ⟨hq.1.trans hr.1, hr.2⟩

/-- A quiet part, whatever it goes on with. -/
theorem Quietly.any {p : Handler α} {P : List Done → α → Prop} (hp : Quietly h p P) :
    Quietly h p fun _ _ => True := Keeps.mono hp fun _ _ hq => ⟨hq.1, trivial⟩

/-! ## Building -/

/-- The transaction that is built carries the host function it is built for. -/
theorem quietly_loadAndBuild {source : Address} {hf : HostFunction} {auth : List ℕ}
    {resources resourceFee : ℕ} {cfg : Config} :
    Quietly h (loadAndBuild source hf auth resources resourceFee cfg) fun _ tx =>
      tx.hostFunction = some hf := by
  unfold loadAndBuild
  refine (quietly_call (by trivial)).then fun h₁ r _ _ => ?_
  refine quietly_orStop.then fun h₂ sequence _ _ => ?_
  refine (quietly_call (by trivial)).then fun h₃ now _ _ => ?_
  refine Keeps.mono quietly_expect fun h₄ tx htx => ⟨htx.1, ?_⟩
  cases source with
  | contract hash => exact nomatch htx.2
  | account key =>
      obtain rfl := Option.some_inj.mp htx.2
      rfl

theorem quietly_simulate {tx : Transaction} : Quietly h (simulate tx) fun _ _ => True := by
  unfold simulate
  refine (quietly_call (by trivial)).then fun h₁ r _ _ => ?_
  refine quietly_orStop.then fun h₂ simulation _ _ => ?_
  refine quietly_ensure.then fun h₃ _ _ _ => ?_
  exact quietly_pure trivial

/-- What is built is an unsigned transaction around the host function. -/
theorem quietly_buildUnsigned {source : Address} {hf : HostFunction} {cfg : Config} :
    Quietly h (buildUnsigned source hf cfg) fun _ unsigned =>
      ∃ tx, unsigned = .envelope (.v1 tx []) ∧ tx.hostFunction = some hf := by
  unfold buildUnsigned
  refine quietly_loadAndBuild.then fun h₁ simTx _ _ => ?_
  refine quietly_simulate.then fun h₂ simulation _ _ => ?_
  refine quietly_expect.then fun h₃ sorobanData _ _ => ?_
  refine quietly_expect.then fun h₄ auth _ _ => ?_
  refine quietly_loadAndBuild.then fun h₅ finalTx _ htx => ?_
  exact quietly_pure ⟨finalTx, rfl, htx⟩

/-- What a build persists is the host function it was built around. -/
theorem quietly_hostFunctionXDRFrom {unsigned : SignedXDR} {hf : HostFunction}
    (hbuilt : ∃ tx, unsigned = .envelope (.v1 tx []) ∧ tx.hostFunction = some hf) :
    Quietly h (hostFunctionXDRFrom unsigned) fun _ hf' => hf' = hf := by
  obtain ⟨tx, rfl, htx⟩ := hbuilt
  unfold hostFunctionXDRFrom
  refine Quietly.then (P := fun _ r => r.2.2 = hf) (Keeps.mono quietly_orStop ?_)
    fun h₁ r _ hr => quietly_pure hr
  rintro h₁ ⟨tx', signatures, hf'⟩ ⟨hq, hok⟩
  obtain ⟨hx, hhf⟩ := decodeSingleOpInvokeHostFunction_eq_ok.mp hok
  cases hx
  exact ⟨hq, Option.some_inj.mp (hhf.symm.trans htx)⟩

theorem quietly_simulateRead {source : Address} {hf : HostFunction} {cfg : Config} :
    Quietly h (simulateRead source hf cfg) fun _ _ => True := by
  unfold simulateRead
  refine quietly_loadAndBuild.then fun h₁ tx _ _ => ?_
  refine quietly_simulate.then fun h₂ simulation _ _ => ?_
  exact quietly_expect.any

theorem quietly_getDefaultResolver {source : Address} {cfg : Config} :
    Quietly h (getDefaultResolver source cfg) fun _ _ => True := by
  unfold getDefaultResolver
  refine quietly_simulateRead.then fun h₁ v _ _ => ?_
  cases v with
  | address a => exact quietly_pure trivial
  | _ => exact quietly_throw

theorem quietly_quoteGoLiveFee {eid : EventID} {source : Address} {cfg : Config} :
    Quietly h (quoteGoLiveFee eid source cfg) fun _ _ => True := by
  unfold quoteGoLiveFee
  exact quietly_simulateRead.then fun h₁ v _ _ => quietly_expect.any

theorem quietly_getBalance {admin : Address} {cfg : Config} :
    Quietly h (getBalance admin cfg) fun _ _ => True := by
  unfold getBalance
  exact quietly_simulateRead.then fun h₁ v _ _ => quietly_expect.any

/-! ## Submitting -/

/-- What a poll that ended reported. -/
def PollReport (h : List Done) (hash : TxHash) : Except SubmitError Unit → Prop
  | .ok () => (⟨.getTransaction hash, .ok .success⟩ : Done) ∈ h
  | .error (.onChain hash' resultXDR) =>
      hash' = hash ∧ (⟨.getTransaction hash, .ok (.failed resultXDR)⟩ : Done) ∈ h
  | .error (.submission _) => False
  | .error _ => True

/-- Polling ends with a report of what the network said of that hash. -/
theorem quietly_pollFrom {hash : TxHash} {deadline maxPollInterval : Time} (polls : ℕ)
    (interval : Time) :
    Quietly h (pollFrom hash deadline maxPollInterval polls interval) fun h' r =>
      PollReport h' hash r := by
  induction polls generalizing h interval with
  | zero => exact quietly_pure trivial
  | succ polls ih =>
      unfold pollFrom
      refine (quietly_call (by trivial)).then fun h₁ answer _ hanswer => ?_
      match answer with
      | .error _ => exact quietly_pure trivial
      | .ok .success => exact quietly_pure hanswer
      | .ok (.failed resultXDR) => exact quietly_pure ⟨rfl, hanswer⟩
      | .ok .notFound =>
          refine (quietly_call (by trivial)).then fun h₂ now _ _ => ?_
          split
          · exact quietly_pure trivial
          · exact (quietly_call (by trivial)).then fun h₃ _ _ _ => ih _

theorem quietly_pollForConfirmation {hash : TxHash} {cfg : Config} :
    Quietly h (pollForConfirmation hash cfg) fun h' r => PollReport h' hash r := by
  unfold pollForConfirmation
  exact (quietly_call (by trivial)).then fun h₁ now _ _ => quietly_pollFrom _ _

/-- What a submission that ended reported. -/
def SubmitReport (h : List Done) (k : OpKey) (build : k.Build) : Except SubmitError TxHash → Prop
  | .ok hash => ReportedSuccess h k build hash
  | .error (.submission _) => ReportedFailure h k build
  | .error (.onChain _ _) => ReportedFailure h k build
  | .error _ => True

/-- After the one send of a request: no write yet, and the outcome as reported. -/
theorem keeps_submitSigned {k : OpKey} {build : k.Build} {tx : Transaction}
    {signatures : List ℕ} {cfg : Config} (hv : Cleared deps req h k build tx signatures)
    (hsend : ∀ d ∈ h, ¬ d.op.IsSend) (hwrite : ∀ d ∈ h, ¬ d.op.IsWrite) :
    Keeps (MayCall deps req) h (submitSigned (.envelope (.v1 tx signatures)) cfg) fun h' r =>
      (∀ d ∈ h', ¬ d.op.IsWrite) ∧ SubmitReport h' k build r := by
  have hperm : MayCall deps req h (.sendTransaction (.envelope (.v1 tx signatures))) :=
    ⟨⟨hsend, k, build, tx, signatures, hv.verified, rfl⟩, k, build, tx, signatures, rfl, hv⟩
  unfold submitSigned
  refine Keeps.bind (keeps_perform (Q := fun h' r =>
    h' = ⟨.sendTransaction (.envelope (.v1 tx signatures)), r⟩ :: h) hperm fun r => rfl) ?_
  rintro h₁ answer rfl
  have hwrite₁ : ∀ d ∈ (⟨.sendTransaction (.envelope (.v1 tx signatures)), answer⟩ : Done) :: h,
      ¬ d.op.IsWrite := by
    intro d hd
    rcases List.mem_cons.mp hd with rfl | hd
    · exact id
    · exact hwrite d hd
  match answer with
  | .error _ => exact keeps_pure ⟨hwrite₁, trivial⟩
  | .ok response =>
      have hsent : ∀ h₂, Quiet (⟨.sendTransaction (.envelope (.v1 tx signatures)),
          .ok response⟩ :: h) h₂ → Sent h₂ k build response := fun h₂ hq =>
        ⟨tx, signatures, hv.verified.mono fun d hd => hq.mem (List.mem_cons_of_mem _ hd),
          hq.mem List.mem_cons_self⟩
      simp only
      split
      · rename_i herror
        exact keeps_pure ⟨hwrite₁, response, hsent _ (.refl _), .inl herror⟩
      · rename_i haccepted
        refine quietly_pollForConfirmation.bind fun h₂ r hq hr => ?_
        have hwrite₂ := hq.not_mem not_quiet_of_isWrite hwrite₁
        match r with
        | .ok () => exact keeps_pure ⟨hwrite₂, response, hsent h₂ hq, haccepted, rfl, hr⟩
        | .error (.onChain hash' resultXDR) =>
            exact keeps_pure ⟨hwrite₂, response, hsent h₂ hq, .inr ⟨resultXDR, hr.2⟩⟩
        | .error (.submission _) => exact absurd hr id
        | .error (.timeout _) => exact keeps_pure ⟨hwrite₂, trivial⟩
        | .error .other => exact keeps_pure ⟨hwrite₂, trivial⟩

/-- What is recorded on the network's report comes after the send. -/
theorem sent_of_grounds {w : StoreWrite} (hg : Grounds h w) (hmark : ∀ route, ¬ Route.Saves route w) :
    ∃ d ∈ h, d.op.IsSend := by
  have hsent : ∀ {k : OpKey} {build : k.Build} {response : SendResponse},
      Sent h k build response → ∃ d ∈ h, d.op.IsSend := by
    rintro k build response ⟨tx, signatures, -, hmem⟩
    exact ⟨_, hmem, trivial⟩
  cases w with
  | saveCreateBuild p b => exact absurd rfl (hmark (.createBuild p.text))
  | saveDepositBuild o b => exact absurd trivial (hmark (.depositBuild none none))
  | saveStartBuild p b => exact absurd rfl (hmark (.startBuild p.text))
  | saveReleaseBuild p b => exact absurd rfl (hmark (.releaseBuild p.text none))
  | markCreateSucceeded p eid t =>
      obtain ⟨build, hash, ⟨response, hs, -⟩, -⟩ := hg
      exact hsent hs
  | markDepositSucceeded o =>
      obtain ⟨build, hash, response, hs, -⟩ := hg
      exact hsent hs
  | markStartSucceeded p hf t =>
      obtain ⟨build, hash, ⟨response, hs, -⟩, -⟩ := hg
      exact hsent hs
  | markReleaseSucceeded p hash t =>
      obtain ⟨build, response, hs, -⟩ := hg
      exact hsent hs
  | markFailed k reason =>
      obtain ⟨build, response, hs, -⟩ := hg
      exact hsent hs

/-- A write that records an outcome on its grounds, when the request has not written yet. -/
theorem keeps_write {w : StoreWrite} (hmark : ∀ route, ¬ Route.Saves route w)
    (hwrite : ∀ d ∈ h, ¬ d.op.IsWrite) (hg : Grounds h w) :
    Keeps (MayCall deps req) h (call (.write w)) fun _ _ => True :=
  keeps_perform ⟨⟨hwrite, hg⟩, .inr ⟨hmark, sent_of_grounds hg hmark⟩⟩ fun _ => trivial

theorem not_saves_markFailed {k : OpKey} {reason : Message} (route : Route) :
    ¬ route.Saves (.markFailed k reason) := by
  cases route <;> exact id

/-- A submit goes on with a success only after the network reported it. -/
theorem keeps_submitAndClassify {k : OpKey} {build : k.Build} {tx : Transaction}
    {signatures : List ℕ} {cfg : Config} (hv : Cleared deps req h k build tx signatures)
    (hsend : ∀ d ∈ h, ¬ d.op.IsSend) (hwrite : ∀ d ∈ h, ¬ d.op.IsWrite) :
    Keeps (MayCall deps req) h
      (submitAndClassify (.envelope (.v1 tx signatures)) cfg k) fun h' o =>
      ∀ hash, o = .result hash →
        (∀ d ∈ h', ¬ d.op.IsWrite) ∧ ReportedSuccess h' k build hash := by
  unfold submitAndClassify
  refine Keeps.bind (keeps_submitSigned hv hsend hwrite) fun h₁ r hr => ?_
  obtain ⟨hwrite₁, hreport⟩ := hr
  match r with
  | .ok hash =>
      refine keeps_pure fun hash' heq => ?_
      cases heq
      exact ⟨hwrite₁, hreport⟩
  | .error (.timeout hash) => exact keeps_pure fun hash' heq => nomatch heq
  | .error (.submission errorResultXDR) =>
      refine Keeps.bind (Q := fun _ _ => True) ?_ fun h₂ _ _ => keeps_throw
      exact Keeps.bind (keeps_write not_saves_markFailed hwrite₁ ⟨build, hreport⟩)
        fun h₂ _ _ => keeps_pure trivial
  | .error (.onChain hash resultXDR) =>
      refine Keeps.bind (Q := fun _ _ => True) ?_ fun h₂ _ _ => keeps_throw
      exact Keeps.bind (keeps_write not_saves_markFailed hwrite₁ ⟨build, hreport⟩)
        fun h₂ _ _ => keeps_pure trivial
  | .error .other => exact keeps_throw

/-! ## The pieces of the handlers -/

/-- A path id is read from its own text. -/
theorem quietly_pathID {id : String} : Quietly h (pathID id) fun _ p => id = p.text := by
  unfold pathID
  split
  · exact quietly_pure rfl
  · exact quietly_throw

/-- Only a pending row passes. -/
theorem quietly_checkPending {status : OpStatus} {succeeded failed : Response} :
    Quietly h (checkPending status succeeded failed) fun _ _ => status = .pending := by
  cases status with
  | pending => exact quietly_pure rfl
  | succeeded => exact quietly_throw
  | failed => exact quietly_throw

theorem quietly_signedBody {body : Option SignedXDR} :
    Quietly h (signedBody body) fun _ x => body = some x := by
  unfold signedBody
  split
  · exact quietly_throw
  · exact quietly_throw
  · exact quietly_pure rfl

theorem quietly_depositBody {body : Option (String × SignedXDR)} :
    Quietly h (depositBody body) fun _ b => body = some b := by
  unfold depositBody
  split
  · exact quietly_throw
  · exact quietly_throw
  · exact quietly_pure rfl

/-- An operation id is read from its own text. -/
theorem quietly_issuedOpID {opID : String} :
    Quietly h (issuedOpID opID) fun _ o => opID = o.text := by
  unfold issuedOpID
  split
  · exact quietly_pure rfl
  · exact quietly_throw

/-- The wallet a path names is the caller's. -/
theorem quietly_checkWalletOwnership {wallet : Address} {address : Option (BitVec 256)} :
    Quietly h (checkWalletOwnership wallet address) fun _ a =>
      a = wallet ∧ ∃ key, address = some key ∧ wallet = .account key := by
  unfold checkWalletOwnership
  refine quietly_expect.then fun h₁ key _ hkey => ?_
  refine quietly_ensure.then fun h₂ _ _ howner => ?_
  exact quietly_pure ⟨howner.symm, key, hkey, howner⟩

/-- A creation's caller is the organizer of the event that was read. -/
theorem quietly_checkCreatePreconditions {wallet : Address} {p : PathID} :
    Quietly h (checkCreatePreconditions wallet p) fun h' event =>
      (⟨.loadEventForCreate p, .ok event⟩ : Done) ∈ h' ∧
        event.organizerWalletAddress = wallet := by
  unfold checkCreatePreconditions
  refine (quietly_call (by trivial)).then fun h₁ r _ hr => ?_
  refine quietly_orStop.then fun h₂ event hq₂ hevent => ?_
  refine quietly_ensure.then fun h₃ _ hq₃ howner => ?_
  refine quietly_ensure.then fun h₄ _ hq₄ _ => ?_
  refine quietly_ensure.then fun h₅ _ hq₅ _ => ?_
  refine quietly_ensure.then fun h₆ _ hq₆ _ => ?_
  refine quietly_ensure.then fun h₇ _ hq₇ _ => ?_
  subst hevent
  exact quietly_pure ⟨(hq₂.trans (hq₃.trans (hq₄.trans (hq₅.trans (hq₆.trans hq₇))))).mem hr,
    howner.symm⟩

/-- The event that passed the checks is the one that was read. -/
theorem quietly_checkStartPreconditions {wallet : Address} {p : PathID} :
    Quietly h (checkStartPreconditions wallet p) fun h' event =>
      (⟨.loadEventForStart p, .ok event⟩ : Done) ∈ h' := by
  unfold checkStartPreconditions
  refine (quietly_call (by trivial)).then fun h₁ r _ hr => ?_
  refine quietly_orStop.then fun h₂ event hq₂ hevent => ?_
  refine quietly_ensure.then fun h₃ _ hq₃ _ => ?_
  refine quietly_ensure.then fun h₄ _ hq₄ _ => ?_
  refine quietly_ensure.then fun h₅ _ hq₅ _ => ?_
  subst hevent
  exact quietly_pure ((((hq₂.trans hq₃).trans hq₄).trans hq₅).mem hr)

/-- A list of one whose head is known. -/
theorem eq_singleton_of_head {γ : Type} {l : List γ} {a : γ} (hlen : l.length = 1)
    (hhead : l.head? = some a) : l = [a] := by
  obtain ⟨b, rfl⟩ := List.length_eq_one_iff.mp hlen
  rw [Option.some_inj.mp hhead]

/-- A release's caller is the only judge of the event that was read. -/
theorem quietly_checkReleasePreconditions {wallet : Address} {p : PathID} :
    Quietly h (checkReleasePreconditions wallet p) fun h' e =>
      (⟨.loadEventForRelease p, .ok e.1⟩ : Done) ∈ h' ∧ e.1.judges = [wallet] := by
  unfold checkReleasePreconditions
  refine (quietly_call (by trivial)).then fun h₁ r _ hr => ?_
  refine quietly_orStop.then fun h₂ event hq₂ hevent => ?_
  refine quietly_ensure.then fun h₃ _ hq₃ _ => ?_
  refine quietly_ensure.then fun h₄ _ hq₄ _ => ?_
  refine quietly_ensure.then fun h₅ _ hq₅ hone => ?_
  refine quietly_expect.then fun h₆ judge hq₆ hjudge => ?_
  refine quietly_ensure.then fun h₇ _ hq₇ hcaller => ?_
  subst hevent hcaller
  exact quietly_pure
    ⟨((((((hq₂.trans hq₃).trans hq₄).trans hq₅).trans hq₆).trans hq₇).mem hr),
      eq_singleton_of_head hone hjudge⟩

/-- A quote is for the event's escrow id. -/
theorem quietly_quoteAndBalance {deps : Deps} {event : EventForStart} :
    Quietly h (quoteAndBalance deps event) fun _ q => event.escrowEventID = some q.1 := by
  unfold quoteAndBalance
  refine quietly_expect.then fun h₁ eid _ heid => ?_
  refine quietly_quoteGoLiveFee.then fun h₂ fee _ _ => ?_
  refine quietly_getBalance.then fun h₃ balance _ _ => ?_
  exact quietly_pure heid

theorem quietly_checkStartDeadline {event : EventForStart} :
    Quietly h (checkStartDeadline event) fun _ _ => True := by
  unfold checkStartDeadline
  refine quietly_expect.then fun h₁ deadline _ _ => ?_
  refine (quietly_call (by trivial)).then fun h₂ now _ _ => ?_
  refine quietly_ensure.then fun h₃ _ _ _ => ?_
  exact quietly_pure trivial

/-! ## The row a submit works on -/

/-- The request has read the row of `k` and has neither sent nor written since it began. -/
structure RowLoaded (h : List Done) (k : OpKey) (op : StoredOp k) : Prop where
  mem : (⟨.loadOp k, .ok op⟩ : Done) ∈ h
  unsent : ∀ d ∈ h, ¬ d.op.IsSend
  unwritten : ∀ d ∈ h, ¬ d.op.IsWrite

/-- A row that was loaded stays loaded over quiet calls. -/
theorem RowLoaded.mono {h h' : List Done} {k : OpKey} {op : StoredOp k}
    (hl : RowLoaded h k op) (hq : Quiet h h') : RowLoaded h' k op where
  mem := hq.mem hl.mem
  unsent := hq.not_mem not_quiet_of_isSend hl.unsent
  unwritten := hq.not_mem not_quiet_of_isWrite hl.unwritten

/-- A row that is loaded first is loaded before anything else happens. -/
theorem rowLoaded_cons (hnew : Quiet [] h) {k : OpKey} {op : StoredOp k} :
    RowLoaded (⟨.loadOp k, .ok op⟩ :: h) k op where
  mem := List.mem_cons_self
  unsent := by
    intro d hd
    rcases List.mem_cons.mp hd with rfl | hd
    · exact id
    · exact hnew.not_mem not_quiet_of_isSend (fun d hd => absurd hd List.not_mem_nil) d hd
  unwritten := by
    intro d hd
    rcases List.mem_cons.mp hd with rfl | hd
    · exact id
    · exact hnew.not_mem not_quiet_of_isWrite (fun d hd => absurd hd List.not_mem_nil) d hd

theorem permitted_loadOp (hnew : Quiet [] h) (k : OpKey) : Permitted h (.loadOp k) :=
  hnew.not_mem not_quiet_of_isRowRead fun _ hd => absurd hd List.not_mem_nil

/-- Loading a row keeps it as the loaded one. -/
theorem keeps_loadOpOr (hnew : Quiet [] h) {k : OpKey} {missing : Response} :
    Keeps (MayCall deps req) h (loadOpOr k missing) fun h' op =>
      RowLoaded h' k op ∧ ∀ d ∈ h, d ∈ h' := by
  unfold loadOpOr
  refine Keeps.bind (keeps_perform (Q := fun h' r => h' = ⟨.loadOp k, r⟩ :: h)
    ⟨permitted_loadOp hnew k, trivial⟩ fun _ => rfl) ?_
  rintro h₁ r rfl
  refine keeps_orStop fun op hop => ?_
  subst hop
  exact ⟨rowLoaded_cons hnew, fun d hd => List.mem_cons_of_mem _ hd⟩

theorem keeps_loadStartRow (hnew : Quiet [] h) {p : PathID} :
    Keeps (MayCall deps req) h (loadStartRow p) fun h' o =>
      (∀ op, o = some op → RowLoaded h' (.start p) op) ∧ ∀ d ∈ h, d ∈ h' := by
  unfold loadStartRow
  refine Keeps.bind (keeps_perform (Q := fun h' r => h' = ⟨.loadOp (.start p), r⟩ :: h)
    ⟨permitted_loadOp hnew _, trivial⟩ fun _ => rfl) ?_
  rintro h₁ r rfl
  match r with
  | .ok op =>
      refine keeps_pure ⟨fun op' heq => ?_, fun d hd => List.mem_cons_of_mem _ hd⟩
      obtain rfl := Option.some_inj.mp heq
      exact rowLoaded_cons hnew
  | .error .notFound =>
      exact keeps_pure ⟨fun op' heq => (nomatch heq), fun d hd => List.mem_cons_of_mem _ hd⟩
  | .error .alreadySucceeded => exact keeps_throw
  | .error .releaseNotPending => exact keeps_throw
  | .error .createBuildReplaced => exact keeps_throw
  | .error .depositNotPending => exact keeps_throw
  | .error .startBuildReplaced => exact keeps_throw
  | .error (.other _) => exact keeps_throw

/-- An envelope that passed the check is signed, and verified for the pending build. -/
theorem quietly_checkEnvelope {k : OpKey} {op : StoredOp k} {signedXDR : SignedXDR}
    (hl : RowLoaded h k op) (hpending : op.status = .pending) :
    Quietly h (checkEnvelope signedXDR k op.build) fun h' tx =>
      ∃ signatures, signedXDR = .envelope (.v1 tx signatures) ∧ signatures ≠ [] ∧
        Verified h' k op.build tx := by
  refine Keeps.mono quietly_orStop fun h' tx hok => ⟨hok.1, ?_⟩
  obtain ⟨signatures, hsigned, hx, hsource, hhf⟩ := verifySignedEnvelope_eq_ok.mp hok.2
  refine ⟨signatures, hx, hsigned, ?_, hsource, hhf⟩
  obtain ⟨status, build⟩ := op
  obtain rfl : status = .pending := hpending
  exact (hl.mono hok.1).mem

/-- What every submit does after its envelope is checked: send, classify, and write the
success on the network's report. -/
theorem keeps_submit {k : OpKey} {op : StoredOp k} {tx : Transaction} {signatures : List ℕ}
    {cfg : Config} {next : SubmitOutcome → Handler Response} (hl : RowLoaded h k op)
    (hv : Cleared deps req h k op.build tx signatures)
    (hpending : ∀ h' hash,
      Keeps (MayCall deps req) h' (next (.pendingHash hash)) fun _ _ => True)
    (hresult : ∀ h' hash, (∀ d ∈ h', ¬ d.op.IsWrite) → ReportedSuccess h' k op.build hash →
      Keeps (MayCall deps req) h' (next (.result hash)) fun _ _ => True) :
    Keeps (MayCall deps req) h
      (submitAndClassify (.envelope (.v1 tx signatures)) cfg k >>= next) fun _ _ => True := by
  refine Keeps.bind (keeps_submitAndClassify hv hl.unsent hl.unwritten) ?_
  intro h' o ho
  cases o with
  | pendingHash hash => exact hpending h' hash
  | result hash => exact hresult h' hash (ho hash rfl).1 (ho hash rfl).2

end Service
