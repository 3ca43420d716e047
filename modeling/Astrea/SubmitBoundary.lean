/-
# The trust boundary of the submits

What stands between a submit request and the network.  Whatever a body holds, an envelope
is sent only when it is signed, carries the host function of the build its request read as
pending, comes from the account the build was made for, and was submitted by whoever may
submit that build (`TrustedSend`); a submit that sends nothing leaves the tables as they
are.
-/
import Astrea.ServiceRun

open Interleave

namespace Service

variable {own : Address} {deps : Deps} {chain : Escrow.State} {clock : Time}
  {tr : List (ServiceTransition own)} {c c' : ServiceConfig}

/-! ## Who may submit -/

/-- The event of `p` has this organizer. -/
def Organizes (db : DB) (p : PathID) (a : Address) : Prop :=
  (db.events.lookup p.uuid).map (·.organizerWalletAddress) = some a

/-- The event of `p` has these `ACTIVE` judges. -/
def Judges (db : DB) (p : PathID) (judges : List Address) : Prop :=
  db.events.lookup p.uuid ≠ none ∧ loadJudges db p.uuid = judges

/-- As the tables stand, `wallet` may submit the build of this key over this route: the
organizer of the event, its only `ACTIVE` judge, or the wallet a deposit's path names. -/
def MaySubmit (db : DB) (route : Route) (wallet : Address) : OpKey → Prop
  | .create p => Organizes db p wallet
  | .deposit _ => ∃ key body, route = .depositSubmit (some key) body ∧ wallet = .account key
  | .start p => Organizes db p wallet
  | .release p => Judges db p [wallet]

/-- The step does not set the judges of any event. -/
def JudgesStay (t : ServiceTransition own) : Prop :=
  ∀ judges, t.label ≠ .env (.web (.setJudges judges))

/-- The organizer a call read, with its event. -/
def organizerRead : Done → Option (PathID × Address)
  | ⟨.loadEventForCreate p, .ok ev⟩ => some (p, ev.organizerWalletAddress)
  | ⟨.loadEventForStart p, .ok ev⟩ => some (p, ev.organizerWalletAddress)
  | _ => none

/-- The judges a call read, with their event. -/
def judgesRead : Done → Option (PathID × List Address)
  | ⟨.loadEventForRelease p, .ok ev⟩ => some (p, ev.judges)
  | _ => none

section Roles

variable {w w' : World} {op : Op} {r : op.Res} {p : PathID} {a : Address}
  {js : List Address}

/-- The row that is read is the key's. -/
theorem Performed.loadOp {k : OpKey} {r : Except StoreError (StoredOp k)} {op : StoredOp k}
    (hp : Performed w (.loadOp k) r w') (hr : r = .ok op) : Service.loadOp w.db k = .ok op := by
  cases hp with
  | loadedOp stored => exact stored op hr

/-- The organizer that is read is the event's. -/
theorem Performed.organizes (hp : Performed w op r w')
    (hread : organizerRead ⟨op, r⟩ = some (p, a)) : Organizes w.db p a := by
  cases hp with
  | @loadedForCreate p' r' stored =>
      cases r' with
      | error e => exact nomatch hread
      | ok ev =>
          cases hread
          exact loadEventForCreate_organizer (stored ev rfl)
  | @loadedForStart p' r' stored =>
      cases r' with
      | error e => exact nomatch hread
      | ok ev =>
          cases hread
          exact loadEventForStart_organizer (stored ev rfl)
  | _ => exact nomatch hread

/-- The judges that are read are the event's. -/
theorem Performed.judged (hp : Performed w op r w')
    (hread : judgesRead ⟨op, r⟩ = some (p, js)) : Judges w.db p js := by
  cases hp with
  | @loadedForRelease p' r' stored =>
      cases r' with
      | error e => exact nomatch hread
      | ok ev =>
          cases hread
          exact loadEventForRelease_judges (stored ev rfl)
  | _ => exact nomatch hread

/-- A call leaves every event its organizer. -/
theorem Performed.keepsOrganizer (hp : Performed w op r w') (h : Organizes w.db p a) :
    Organizes w'.db p a := by
  rcases hp.tables with heq | ⟨x, hrun⟩
  · rwa [heq]
  · rwa [Organizes, (StoreWrite.run_event hrun p.uuid).organizer]

/-- A call leaves every event its judges. -/
theorem Performed.keepsJudges (hp : Performed w op r w') (h : Judges w.db p js) :
    Judges w'.db p js := by
  rcases hp.tables with heq | ⟨x, hrun⟩
  · rwa [heq]
  · refine ⟨?_, by rw [← h.2, loadJudges, StoreWrite.run_judges hrun, loadJudges]⟩
    have hkept := (StoreWrite.run_event hrun p.uuid).organizer
    intro hnone
    rw [hnone, Option.map_none, eq_comm, Option.map_eq_none_iff] at hkept
    exact h.1 hkept

/-- A move of the environment leaves every event its organizer. -/
theorem Moved.keepsOrganizer {event : EnvEvent own} (hm : Moved w event w')
    (h : Organizes w.db p a) : Organizes w'.db p a := by
  rcases hm.db with heq | ⟨e, hrun⟩
  · rwa [heq]
  · exact (WebEvent.run_event hrun p.uuid).organizer h

/-- A move that does not set the judges leaves every event its judges. -/
theorem Moved.keepsJudges {event : EnvEvent own} (hm : Moved w event w')
    (hno : ∀ l, event ≠ .web (.setJudges l)) (h : Judges w.db p js) : Judges w'.db p js := by
  cases hm with
  | @web e db run =>
      refine ⟨?_, ?_⟩
      · intro hnone
        obtain ⟨event, hevent⟩ := Option.ne_none_iff_exists'.mp h.1
        have hkept := (WebEvent.run_event run p.uuid).organizer (a := event.organizerWalletAddress)
          (by rw [hevent]; rfl)
        rw [hnone] at hkept
        exact nomatch hkept
      · rw [← h.2]
        exact WebEvent.run_judges run (fun l heq => hno l (by rw [heq])) h.1
  | _ => exact h

end Roles

/-- In every run an organizer that was read is still the event's. -/
theorem ServiceRun.organizes (hr : ServiceRun own deps chain clock tr c) :
    ∀ t d p a, (t, d) ∈ c.log → organizerRead d = some (p, a) → Organizes c.world.db p a := by
  refine hr.invariant (C := fun _ => True)
    (I := fun w log => ∀ t d p a, (t, d) ∈ log → organizerRead d = some (p, a) →
      Organizes w.db p a) (fun _ _ => trivial) (fun _ _ _ _ h => absurd h List.not_mem_nil) ?_ ?_
  · intro c t op r w p _ _ hI _ hp t' d p' a hmem hread
    rcases List.mem_cons.mp hmem with heq | hold
    · cases heq
      exact hp.keepsOrganizer (hp.organizes hread)
    · exact hp.keepsOrganizer (hI t' d p' a hold hread)
  · intro c event w _ _ hI hm t d p a hmem hread
    exact hm.keepsOrganizer (hI t d p a hmem hread)

/-- While no judges are set, judges that were read are still the event's. -/
theorem ServiceRun.judges (hr : ServiceRun own deps chain clock tr c)
    (hstay : ∀ t ∈ tr, JudgesStay t) :
    ∀ t d p js, (t, d) ∈ c.log → judgesRead d = some (p, js) → Judges c.world.db p js := by
  refine hr.invariant (I := fun w log => ∀ t d p js, (t, d) ∈ log →
    judgesRead d = some (p, js) → Judges w.db p js) hstay
    (fun _ _ _ _ h => absurd h List.not_mem_nil) ?_ ?_
  · intro c t op r w p _ _ hI _ hp t' d p' js hmem hread
    rcases List.mem_cons.mp hmem with heq | hold
    · cases heq
      exact hp.keepsJudges (hp.judged hread)
    · exact hp.keepsJudges (hI t' d p' js hold hread)
  · intro c event w hcond _ hI hm t d p js hmem hread
    refine hm.keepsJudges (fun l heq => hcond l ?_) (hI t d p js hmem hread)
    rw [heq]

/-! ## The boundary -/

/-- What makes a send trusted: request `i` of the run is from an authenticated caller, names
the row of `k` and this envelope; the envelope is a signed V1 one whose only operation invokes
the host function of the build, from the build's account; the request read the build as
pending, and a build request stored it; and the caller may submit it. -/
structure TrustedSend (deps : Deps) (tr : List (ServiceTransition own)) (c : ServiceConfig)
    (i : ℕ) (req : Request) (x : SignedXDR) (k : OpKey) (build : k.Build) (wallet : Address)
    (tx : Transaction) (signatures : List ℕ) : Prop where
  caller : Caller deps req wallet
  submits : req.route.Submits k x
  envelope : x = .envelope (.v1 tx signatures)
  signed : signatures ≠ []
  operation : ∃ source auth,
    tx.operations = [⟨source, .invokeHostFunction (k.hostFunction build) auth⟩]
  source : tx.sourceAccount.getAddress = .plain (k.sourceAccount build)
  read : ∃ t ∈ tr, t.label = .did i ⟨.loadOp k, .ok ⟨.pending, build⟩⟩ ∧
    ∃ lastError, t.pre.world.db.opLog k = some ⟨build, .pending, lastError⟩
  built : ∃ j req', (requestsOf tr)[j]? = some req' ∧ req'.route.Saves (saveOf k build) ∧
    (j, ⟨.write (saveOf k build), .ok ()⟩) ∈ c.log
  entitled : ∃ t ∈ tr, (∃ d, t.label = .did i d) ∧ MaySubmit t.pre.world.db req.route wallet k
  stillEntitled : (∀ t ∈ tr, JudgesStay t) → MaySubmit c.world.db req.route wallet k

/-- The routes that submit. -/
def Route.IsSubmit : Route → Prop
  | .createSubmit _ _ | .depositSubmit _ _ | .startSubmit _ _ | .releaseSubmit _ _ => True
  | _ => False

theorem Route.IsSubmit.not_saves {route : Route} (h : route.IsSubmit) (w : StoreWrite) :
    ¬ route.Saves w := by
  cases route <;> first | exact absurd h id | exact id

/-- Some route saves each build. -/
theorem exists_saves (k : OpKey) (build : k.Build) :
    ∃ route : Route, route.Saves (saveOf k build) := by
  cases k with
  | create p => exact ⟨.createBuild p.text, rfl⟩
  | deposit o => exact ⟨.depositBuild none none, trivial⟩
  | start p => exact ⟨.startBuild p.text, rfl⟩
  | release p => exact ⟨.releaseBuild p.text none, rfl⟩

/-- The operation of a transaction that invokes a host function. -/
theorem Transaction.operations_of_hostFunction {tx : Transaction} {hf : HostFunction}
    (h : tx.hostFunction = some hf) :
    ∃ source auth, tx.operations = [⟨source, .invokeHostFunction hf auth⟩] := by
  unfold Transaction.hostFunction at h
  split at h
  · rename_i source hf' auth hops
    obtain rfl := Option.some_inj.mp h
    exact ⟨source, auth, hops⟩
  · exact nomatch h

/-- A call of the log was made at a transition of the run, and did there what it does. -/
theorem ServiceRun.performed (hr : ServiceRun own deps chain clock tr c) {i : ℕ} {d : Done}
    (hmem : d ∈ historyOf i c.log) :
    ∃ t ∈ tr, t.label = .did i d ∧ Performed t.pre.world d.op d.res t.post.world := by
  obtain ⟨t, ht, hlabel, choice, hperform⟩ := did_of_mem_log hr (mem_historyOf.mp hmem)
  exact ⟨t, ht, hlabel, perform_eq_some hperform⟩

/-- Who is entitled as far as a request has read may submit as the tables stood at its read,
and as long as no judges are set, still. -/
theorem ServiceRun.maySubmit (hr : ServiceRun own deps chain clock tr c) {i : ℕ} {k : OpKey}
    {build : k.Build} {route : Route} {wallet : Address} {op : StoredOp k}
    (hloaded : (⟨.loadOp k, .ok op⟩ : Done) ∈ historyOf i c.log)
    (he : Entitled (historyOf i c.log) route wallet k build) :
    (∃ t ∈ tr, (∃ d, t.label = .did i d) ∧ MaySubmit t.pre.world.db route wallet k) ∧
      ((∀ t ∈ tr, JudgesStay t) → MaySubmit c.world.db route wallet k) := by
  have horganizer : ∀ {p : PathID} {d : Done}, d ∈ historyOf i c.log →
      organizerRead d = some (p, wallet) →
      (∃ t ∈ tr, (∃ d, t.label = .did i d) ∧ Organizes t.pre.world.db p wallet) ∧
        Organizes c.world.db p wallet := by
    intro p d hmem hread
    obtain ⟨t, ht, hlabel, hp⟩ := hr.performed hmem
    exact ⟨⟨t, ht, ⟨d, hlabel⟩, hp.organizes hread⟩,
      hr.organizes i d p wallet (mem_historyOf.mp hmem) hread⟩
  cases k with
  | create p =>
      obtain ⟨event, hmem, rfl⟩ := he
      obtain ⟨hthen, hnow⟩ := horganizer hmem rfl
      exact ⟨hthen, fun _ => hnow⟩
  | deposit o =>
      obtain ⟨t, ht, hlabel, -⟩ := hr.performed hloaded
      exact ⟨⟨t, ht, ⟨_, hlabel⟩, he.2⟩, fun _ => he.2⟩
  | start p =>
      obtain ⟨event, hmem, rfl⟩ := he
      obtain ⟨hthen, hnow⟩ := horganizer hmem rfl
      exact ⟨hthen, fun _ => hnow⟩
  | release p =>
      obtain ⟨event, hmem, hjudges⟩ := he
      have hread : judgesRead ⟨.loadEventForRelease p, .ok event⟩ = some (p, [wallet]) := by
        rw [← hjudges]
        rfl
      obtain ⟨t, ht, hlabel, hp⟩ := hr.performed hmem
      exact ⟨⟨t, ht, ⟨_, hlabel⟩, hp.judged hread⟩, fun hstay =>
        hr.judges hstay i _ p _ (mem_historyOf.mp hmem) hread⟩

/-- The build a request read was stored by a build request. -/
theorem ServiceRun.built (hr : ServiceRun own deps chain clock tr c) {i : ℕ} {k : OpKey}
    {op : StoredOp k} (hloaded : (⟨.loadOp k, .ok op⟩ : Done) ∈ historyOf i c.log) :
    ∃ j req, (requestsOf tr)[j]? = some req ∧ req.route.Saves (saveOf k op.build) ∧
      (j, ⟨.write (saveOf k op.build), .ok ()⟩) ∈ c.log := by
  obtain ⟨j, hsaved⟩ := hr.consistent.loaded i k op (mem_historyOf.mp hloaded)
  obtain ⟨req, past, -, hreq, hmay⟩ := permitted_of_mem_log (serve_mayCall deps) hr hsaved
  refine ⟨j, req, hreq, ?_, hsaved⟩
  rcases hmay.2 with hsaves | ⟨hmark, -⟩
  · exact hsaves
  · obtain ⟨route, hroute⟩ := exists_saves k op.build
    exact absurd hroute (hmark route)

/-- A cleared send is trusted. -/
theorem ServiceRun.trusted (hr : ServiceRun own deps chain clock tr c) {i : ℕ} {req : Request}
    {k : OpKey} {build : k.Build} {tx : Transaction} {signatures : List ℕ}
    (hc : Cleared deps req (historyOf i c.log) k build tx signatures) :
    ∃ wallet, TrustedSend deps tr c i req (.envelope (.v1 tx signatures)) k build wallet tx
      signatures := by
  obtain ⟨wallet, hcaller, he⟩ := hc.entitled
  obtain ⟨hthen, hnow⟩ := hr.maySubmit hc.verified.loaded he
  obtain ⟨t, ht, hlabel, hp⟩ := hr.performed hc.verified.loaded
  refine ⟨wallet, hcaller, hc.submits, rfl, hc.signed,
    Transaction.operations_of_hostFunction hc.verified.hostFunction, hc.verified.source,
    ⟨t, ht, hlabel, loadOp_eq_ok.mp (hp.loadOp rfl)⟩, hr.built hc.verified.loaded, hthen, hnow⟩

/-- Every send of a run is trusted, and no call of a submit that has not sent changes the
tables. -/
theorem submit_boundary (hr : ServiceRun own deps chain clock tr c) {i : ℕ} {d : Done}
    (hs : ServiceStep own deps c (.did i d) c') :
    ∃ req, (requestsOf tr)[i]? = some req ∧
      (∀ x, d.op = .sendTransaction x → ∃ k build wallet tx signatures,
        TrustedSend deps tr c i req x k build wallet tx signatures) ∧
      (req.route.IsSubmit → (∀ e ∈ historyOf i c.log, ¬ e.op.IsSend) →
        c'.world.db = c.world.db) := by
  obtain ⟨req, hreq, hmay⟩ := permitted_of_run (serve_mayCall deps) hr hs
  refine ⟨req, hreq, fun x hx => ?_, fun hsubmit hunsent => ?_⟩
  · rw [hx] at hmay
    obtain ⟨k, build, tx, signatures, rfl, hc⟩ := hmay.2
    obtain ⟨wallet, htrusted⟩ := hr.trusted hc
    exact ⟨k, build, wallet, tx, signatures, htrusted⟩
  · cases hs with
    | @did _ op next choice r w thread performed =>
        have hp := perform_eq_some performed
        by_cases hop : op.IsWrite
        · cases op with
          | write w =>
              -- a submit writes only after its send
              rcases hmay.2 with hsaves | ⟨-, e, he, hsend⟩
              · exact absurd hsaves (hsubmit.not_saves w)
              · exact absurd hsend (hunsent e he)
          | _ => exact absurd hop id
        · exact hp.db hop

/-! ## A send of the sample -/

namespace Sample

/-- The service when the creation is about to be sent. -/
def checked : List (ServiceTransition Escrow.Sample.escrow) × ServiceConfig :=
  after begun (drafted ++ [request 3 (.createBuild eventText), .call 0 .ok,
    .call 0 (.eventID eid)] ++ simulateRead 0 (.address Escrow.Sample.resolver) ++
    buildUnsigned 0 ++ [.call 0 .ok, request 3 (.createSubmit eventText (some (signed createTx))),
    .call 1 .ok, .call 1 .ok])

theorem run_checked : ServiceRun Escrow.Sample.escrow setup contract 0 checked.1 checked.2 :=
  run_after begun _ _

/-- The send of the creation. -/
def createSend : Done :=
  ⟨.sendTransaction (signed createTx), .ok ⟨createTx, .pending, ""⟩⟩

theorem step_createSend : ∃ c', ServiceStep Escrow.Sample.escrow setup checked.2
    (.did 1 createSend) c' :=
  step_of_called (serve setup) World.perform World.environment (.sent .pending "")
    (by decide +kernel)

end Sample

/-- The creation is sent in trust. -/
theorem submit_boundary_created : ∃ req, (requestsOf Sample.checked.1)[1]? = some req ∧
    ∃ k build wallet tx signatures, TrustedSend Sample.setup Sample.checked.1 Sample.checked.2 1
      req (Sample.signed Sample.createTx) k build wallet tx signatures := by
  obtain ⟨c', hs⟩ := Sample.step_createSend
  obtain ⟨req, hreq, hsend, -⟩ := submit_boundary Sample.run_checked hs
  exact ⟨req, hreq, hsend _ rfl⟩

end Service
