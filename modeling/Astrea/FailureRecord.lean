/-
# Is `FAILED` true?

What a recorded failure says about the build its row holds.  A submit records what the
network told it, on whatever row is there, and does not know of the other submits of the
row.  The record is true in the runs in which the row still holds the build of the submit,
nothing the network accepted for the row can still succeed, nothing is accepted for it
afterwards, and the network refuses only what never succeeds.
-/
import Astrea.ServiceRun

open Interleave

namespace Service

variable {own : Address} {deps : Deps} {chain : Escrow.State} {clock : Time}
  {tr : List (ServiceTransition own)} {c : ServiceConfig}

/-! ## What the network accepted -/

/-- The send was answered `ERROR`. -/
def refused : Done → Bool
  | ⟨.sendTransaction _, .ok response⟩ => response.status = .error
  | _ => false

/-- A submit sent `tx` for `build`, and the network did not refuse it. -/
def AcceptedFor (k : OpKey) (build : k.Build) (tx : Transaction) : Log → Prop
  | [] => False
  | (t, d) :: log =>
      (d.op.sends tx ∧ refused d = false ∧ Verified (historyOf t log) k build tx) ∨
        AcceptedFor k build tx log

/-- The service sent `tx`. -/
def WasSent (tx : Transaction) (log : Log) : Prop := ∃ t d, (t, d) ∈ log ∧ d.op.sends tx

/-- The call is a `Mark*Succeeded` under `k`. -/
def Op.confirms (k : OpKey) : Op → Prop
  | .write (.markCreateSucceeded p _ _) => k = .create p
  | .write (.markDepositSucceeded o) => k = .deposit o
  | .write (.markStartSucceeded p _ _) => k = .start p
  | .write (.markReleaseSucceeded p _ _) => k = .release p
  | _ => False

section Accepted

variable {w : World} {log : Log} {k : OpKey} {build : k.Build} {tx : Transaction} {t : ℕ}
  {d : Done}

/-- What was accepted was sent. -/
theorem AcceptedFor.sentFor (h : AcceptedFor k build tx log) : SentFor k build tx log := by
  induction log with
  | nil => exact h
  | cons e log ih =>
      rcases h with ⟨hsends, -, hv⟩ | hold
      · exact .inl ⟨hsends, hv⟩
      · exact .inr (ih hold)

/-- A call that sends nothing is accepted for nothing. -/
theorem AcceptedFor.of_cons (h : AcceptedFor k build tx ((t, d) :: log))
    (hd : ¬ d.op.IsSend) : AcceptedFor k build tx log := by
  rcases h with ⟨hsends, -⟩ | hold
  · obtain ⟨signatures, heq⟩ := Op.sends_iff.mp hsends
    rw [heq] at hd
    exact absurd trivial hd
  · exact hold

theorem WasSent.of_cons (h : WasSent tx ((t, d) :: log)) (hd : ¬ d.op.sends tx) :
    WasSent tx log := by
  obtain ⟨t', d', hmem, hsends⟩ := h
  rcases List.mem_cons.mp hmem with heq | hold
  · cases heq
    exact absurd hsends hd
  · exact ⟨t', d', hold, hsends⟩

/-- A permitted send is a send for some build. -/
theorem sends_verified (hperm : Permitted (historyOf t log) d.op) (hs : d.op.sends tx) :
    ∃ k build, Verified (historyOf t log) k build tx := by
  obtain ⟨signatures, heq⟩ := Op.sends_iff.mp hs
  rw [heq] at hperm
  obtain ⟨-, k, build, tx', signatures', hv, heq'⟩ := hperm
  cases heq'
  exact ⟨k, build, hv⟩

/-- Whatever the service sent it sent for some build. -/
theorem WasSent.sentFor (hj : Justified Permitted log) (h : WasSent tx log) :
    ∃ k build, SentFor k build tx log := by
  obtain ⟨t, d, hmem, hs⟩ := h
  induction log with
  | nil => exact absurd hmem List.not_mem_nil
  | cons e log ih =>
      rcases List.mem_cons.mp hmem with rfl | hold
      · obtain ⟨k, build, hv⟩ := sends_verified hj.1 hs
        exact ⟨k, build, .inl ⟨hs, hv⟩⟩
      · obtain ⟨k, build, hsent⟩ := ih hj.2 hold
        exact ⟨k, build, .inr hsent⟩

/-- A request works on one row. -/
theorem Verified.unique (hj : Justified Permitted log) {k' : OpKey} {build' : k'.Build}
    {tx' : Transaction} (h : Verified (historyOf t log) k build tx)
    (h' : Verified (historyOf t log) k' build' tx') :
    (⟨.loadOp k, .ok ⟨.pending, build⟩⟩ : Done) = ⟨.loadOp k', .ok ⟨.pending, build'⟩⟩ :=
  hj.once (P := Op.IsRowRead)
    (fun h op hop hread d hd => by
      cases op with
      | loadOp k => exact hop d hd
      | _ => exact absurd hread id)
    (mem_historyOf.mp h.loaded) (mem_historyOf.mp h'.loaded) trivial trivial

/-- What is verified stays so. -/
theorem Verified.cons {e : ℕ × Done} (h : Verified (historyOf t log) k build tx) :
    Verified (historyOf t (e :: log)) k build tx :=
  h.mono fun _ hd => mem_historyOf.mpr (List.mem_cons_of_mem _ (mem_historyOf.mp hd))

/-- What a request sent it had verified for some build. -/
theorem verified_of_mem (hj : Justified Permitted log) (hmem : (t, d) ∈ log)
    (hs : d.op.sends tx) : ∃ k build, Verified (historyOf t log) k build tx ∧
      SentFor k build tx log ∧ (refused d = false → AcceptedFor k build tx log) := by
  induction log with
  | nil => exact absurd hmem List.not_mem_nil
  | cons e log ih =>
      rcases List.mem_cons.mp hmem with rfl | hold
      · obtain ⟨k, build, hv⟩ := sends_verified hj.1 hs
        exact ⟨k, build, hv.cons, .inl ⟨hs, hv⟩, fun haccepted => .inl ⟨hs, haccepted, hv⟩⟩
      · obtain ⟨k, build, hv, hsent, haccepted⟩ := ih hj.2 hold
        exact ⟨k, build, hv.cons, .inr hsent, fun h => .inr (haccepted h)⟩

/-- A send that was not refused was accepted for the build its request works on. -/
theorem acceptedFor_of_mem (hj : Justified Permitted log) (hmem : (t, d) ∈ log)
    (hs : d.op.sends tx) (haccepted : refused d = false)
    (hv : Verified (historyOf t log) k build tx) : AcceptedFor k build tx log := by
  obtain ⟨k', build', hv', -, hacc⟩ := verified_of_mem hj hmem hs
  cases hv.unique hj hv'
  exact hacc haccepted

/-- What a request sent it sent for the build it works on. -/
theorem sentFor_of_mem (hj : Justified Permitted log) (hmem : (t, d) ∈ log)
    (hs : d.op.sends tx) (hv : Verified (historyOf t log) k build tx) :
    SentFor k build tx log := by
  obtain ⟨k', build', hv', hsent, -⟩ := verified_of_mem hj hmem hs
  cases hv.unique hj hv'
  exact hsent

end Accepted

/-- A success is reported of what was accepted. -/
theorem ReportedSuccess.accepted {w : World} {log : Log} (hj : Justified Permitted log)
    (hcons : Consistent w log) {k : OpKey} {build : k.Build} {t : ℕ} {hash : TxHash}
    (hr : ReportedSuccess (historyOf t log) k build hash) : AcceptedFor k build hash log := by
  obtain ⟨response, ⟨tx, signatures, hv, hsent⟩, haccepted, rfl, -⟩ := hr
  obtain ⟨signatures', hx⟩ := hcons.hash t _ response (mem_historyOf.mp hsent)
  cases hx
  exact acceptedFor_of_mem hj (mem_historyOf.mp hsent) (decide_eq_true rfl)
    (decide_eq_false haccepted) hv

/-! ## The condition and the property -/

/-- The step sends only for rows that are open, and the network refuses and confirms as a submit
takes it to. -/
structure SendsInOrder (t : ServiceTransition own) : Prop where
  openRow : ∀ n d k build tx row, t.label = .did n d → d.op.sends tx → refused d = false →
    Verified (historyOf n t.pre.log) k build tx → t.pre.world.db.opLog k = some row →
    k.hostFunction row.build = k.hostFunction build → row.status ≠ .failed
  refusal : ∀ n d tx, t.label = .did n d → d.op.sends tx → refused d = true →
    t.pre.world.Confirmed tx → ∃ k build, AcceptedFor k build tx t.pre.log
  final : ∀ tx env, t.label = .env (.confirm tx env) → WasSent tx t.pre.log →
    ∃ k build, AcceptedFor k build tx t.pre.log

/-- The step sends in order, and a failure is recorded on the row of its own build when nothing
that carries the build has succeeded or, sent for the row, still can. -/
structure FailsInOrder (t : ServiceTransition own) : Prop extends SendsInOrder t where
  current : ∀ n k reason loaded,
    t.label = .did n ⟨.write (.markFailed k reason), .ok ()⟩ →
    ReportedFailure (historyOf n t.pre.log) k loaded → LastSaved t.pre.log k loaded
  settled : ∀ n k reason loaded,
    t.label = .did n ⟨.write (.markFailed k reason), .ok ()⟩ →
    ReportedFailure (historyOf n t.pre.log) k loaded →
    ∀ build tx, AcceptedFor k build tx t.pre.log →
      k.hostFunction build = k.hostFunction loaded → t.pre.world.NeverSucceeds tx
  elsewhere : ∀ n k reason loaded,
    t.label = .did n ⟨.write (.markFailed k reason), .ok ()⟩ →
    ReportedFailure (historyOf n t.pre.log) k loaded →
    ∀ k' build tx, k' ≠ k → SentFor k' build tx t.pre.log →
      k'.hostFunction build = k.hostFunction loaded → ¬ t.pre.world.Confirmed tx

/-- A failure is recorded on the row of the build whose submit failed, nothing the service
sent with the build's host function has been confirmed then, and no success of the build
finds the row failed. -/
structure FailsTruly (t : ServiceTransition own) : Prop where
  ofBuild : ∀ n k reason row, t.label = .did n ⟨.write (.markFailed k reason), .ok ()⟩ →
    t.pre.world.db.opLog k = some row → ReportedFailure (historyOf n t.pre.log) k row.build
  unconfirmed : ∀ n k reason row, t.label = .did n ⟨.write (.markFailed k reason), .ok ()⟩ →
    t.pre.world.db.opLog k = some row → ∀ tx, WasSent tx t.pre.log →
      tx.hostFunction = some (k.hostFunction row.build) → ¬ t.pre.world.Confirmed tx
  recorded : ∀ n d k build hash row, t.label = .did n d → d.op.confirms k →
    ReportedSuccess (historyOf n t.pre.log) k build hash → t.pre.world.db.opLog k = some row →
    k.hostFunction row.build = k.hostFunction build → row.status ≠ .failed

/-- What the condition keeps true: nothing accepted for a failed row's build can succeed, and
what the service sent was confirmed only if it was accepted. -/
structure FailuresSettled (w : World) (log : Log) : Prop where
  dead : ∀ k row, w.db.opLog k = some row → row.status = .failed →
    ∀ build tx, AcceptedFor k build tx log → k.hostFunction build = k.hostFunction row.build →
      w.NeverSucceeds tx
  accepted : ∀ tx, WasSent tx log → w.Confirmed tx → ∃ k build, AcceptedFor k build tx log

/-- A row is failed after a write only if it was before, or the write records the failure. -/
theorem StoreWrite.run_failed {db db' : DB} {x : StoreWrite} (h : x.run db = .ok db')
    {k : OpKey} {row' : OpRow k} (hrow' : db'.opLog k = some row') (hst : row'.status = .failed) :
    db.opLog k = some row' ∨
      ∃ reason row, x = .markFailed k reason ∧ db.opLog k = some row ∧ row'.build = row.build := by
  obtain ⟨hother, htakes⟩ := StoreWrite.run_opLog h
  by_cases hk : k = x.key
  · subst hk
    -- a save leaves the row pending and a success leaves it succeeded
    have hsaved : ∀ {b}, db'.opLog x.key ≠ some ⟨b, .pending, none⟩ := by
      intro b hnew
      rw [← Option.some_inj.mp (hnew.symm.trans hrow')] at hst
      exact nomatch hst
    have hsucceeded : ∀ {row : OpRow x.key},
        db'.opLog x.key ≠ some { row with status := .succeeded } := by
      intro row hnew
      rw [← Option.some_inj.mp (hnew.symm.trans hrow')] at hst
      exact nomatch hst
    cases x with
    | saveCreateBuild p b => exact absurd htakes.2 hsaved
    | saveDepositBuild o b => exact absurd htakes.2 hsaved
    | saveStartBuild p b => exact absurd htakes.2 hsaved
    | saveReleaseBuild p b => exact absurd htakes.2 hsaved
    | markCreateSucceeded p eid t =>
        obtain ⟨row, -, -, hnew⟩ := htakes
        exact absurd hnew hsucceeded
    | markDepositSucceeded o =>
        obtain ⟨row, -, -, hnew⟩ := htakes
        exact absurd hnew hsucceeded
    | markStartSucceeded p hf t =>
        obtain ⟨row, -, -, hnew⟩ := htakes
        exact absurd hnew hsucceeded
    | markReleaseSucceeded p hash t =>
        obtain ⟨row, -, -, hnew⟩ := htakes
        exact absurd hnew hsucceeded
    | markFailed k reason =>
        obtain ⟨row, hrow, hnew⟩ := htakes
        refine .inr ⟨reason, row, rfl, hrow, ?_⟩
        rw [← Option.some_inj.mp (hnew.symm.trans hrow')]
  · exact .inl (by rw [← hother k hk, hrow'])

section Step

variable {w w' : World} {log : Log} {t : ℕ}

/-- No call of a request applies a transaction. -/
theorem Performed.neverSucceeds {op : Op} {r : op.Res} {tx : Transaction}
    (hp : Performed w op r w') (h : w.NeverSucceeds tx) : w'.NeverSucceeds tx := by
  rwa [World.NeverSucceeds, World.Unused, World.Confirmed, hp.network.2]

/-- The row a failure is recorded on holds the build of the failed submit. -/
theorem FailsInOrder.row_build {t : ServiceTransition own} (h : FailsInOrder t)
    (hcons : Consistent t.pre.world t.pre.log) {n : ℕ} {k : OpKey} {reason : Message}
    {loaded : k.Build} {row : OpRow k}
    (hlabel : t.label = .did n ⟨.write (.markFailed k reason), .ok ()⟩)
    (hfail : ReportedFailure (historyOf n t.pre.log) k loaded)
    (hrow : t.pre.world.db.opLog k = some row) : row.build = loaded :=
  (hcons.row k row hrow).unique (h.current n k reason loaded hlabel hfail)

/-- A permitted call in order keeps what is settled. -/
theorem FailuresSettled.call {c : ServiceConfig} {op : Op} {r : op.Res}
    {p : Prog Op Op.Res Response}
    (hC : FailsInOrder
      (⟨c, .did t ⟨op, r⟩, c.advance t ⟨op, r⟩ w p⟩ : ServiceTransition own))
    (hcons : Consistent c.world c.log) (hI : FailuresSettled c.world c.log)
    (hperm : Permitted (historyOf t c.log) op) (hp : Performed c.world op r w) :
    FailuresSettled w ((t, ⟨op, r⟩) :: c.log) where
  dead := by
    intro k row hrow hst build tx hacc hhf
    -- a write may make a row failed, any other call only adds a send
    by_cases hop : op.IsWrite
    · have hold := hacc.of_cons (d := ⟨op, r⟩)
        (by cases op <;> first | exact id | exact absurd hop id)
      cases hp with
      | wrote run =>
          rcases StoreWrite.run_failed run hrow hst with hbefore | ⟨reason, row₀, rfl, hrow₀, hb⟩
          · exact hI.dead k row hbefore hst build tx hold hhf
          · obtain ⟨loaded, hfail⟩ := hperm.2
            have hbuild := hC.row_build hcons rfl hfail hrow₀
            exact hC.settled t k reason loaded rfl hfail build tx hold (by rw [hhf, hb, hbuild])
      | refused => exact hI.dead k row hrow hst build tx hold hhf
      | _ => exact absurd hop id
    · rw [hp.db hop] at hrow
      rcases hacc with ⟨hsends, haccepted, hv⟩ | hold
      · exact absurd hst (hC.openRow t _ k build tx row rfl hsends haccepted hv hrow hhf.symm)
      · exact hp.neverSucceeds (hI.dead k row hrow hst build tx hold hhf)
  accepted := by
    intro tx hsent hc
    rw [World.Confirmed, hp.network.2] at hc
    have hcons' : (∃ k build, AcceptedFor k build tx c.log) →
        ∃ k build, AcceptedFor k build tx ((t, ⟨op, r⟩) :: c.log) := by
      rintro ⟨k, build, hacc⟩
      exact ⟨k, build, .inr hacc⟩
    by_cases hs : op.sends tx
    · cases hrefused : refused ⟨op, r⟩ with
      | true => exact hcons' (hC.refusal t _ tx rfl hs hrefused hc)
      | false =>
          obtain ⟨k, build, hv⟩ := sends_verified (d := ⟨op, r⟩) hperm hs
          exact ⟨k, build, .inl ⟨hs, hrefused, hv⟩⟩
    · exact hcons' (hI.accepted tx (hsent.of_cons hs) hc)

/-- What happens outside the service in order keeps failures settled. -/
theorem FailuresSettled.moved {c : ServiceConfig} {event : EnvEvent own}
    (hC : FailsInOrder ⟨c, .env event, c.moved w⟩) (hI : FailuresSettled c.world c.log)
    (hm : Moved c.world event w) : FailuresSettled w c.log where
  dead := by
    intro k row hrow hst build tx hacc hhf
    have hold : c.world.db.opLog k = some row := by
      rcases hm.db with heq | ⟨e, hrun⟩
      · rwa [← heq]
      · rwa [← (WebEvent.run_tables hrun).1]
    exact hm.neverSucceeds (hI.dead k row hold hst build tx hacc hhf)
  accepted := by
    intro tx hsent hc
    rcases hm.confirmed hc with hold | ⟨⟨env, rfl⟩, -⟩
    · exact hI.accepted tx hsent hold
    · exact hC.final tx env rfl hsent

end Step

/-- In a run in order what is settled stays so. -/
theorem ServiceRun.failuresSettled (hr : ServiceRun own deps chain clock tr c)
    (hC : ∀ t ∈ tr, FailsInOrder t) : FailuresSettled c.world c.log := by
  have hboth : Consistent c.world c.log ∧ FailuresSettled c.world c.log := by
    refine hr.invariant (I := fun w log => Consistent w log ∧ FailuresSettled w log) hC
      ⟨consistent_deployment, ?_, ?_⟩ ?_ ?_
    · exact fun _ _ h => nomatch h
    · exact fun _ _ h => absurd h List.not_mem_nil
    · rintro c t op r w p hcond hj ⟨hcons, hI⟩ hperm hp
      exact ⟨hp.consistent hcons, hI.call hcond hcons hperm hp⟩
    · rintro c event w hcond hj ⟨hcons, hI⟩ hm
      exact ⟨hm.consistent hcons, hI.moved hcond hm⟩
  exact hboth.2

/-- In a run in order every recorded failure is true. -/
theorem failure_record (hr : ServiceRun own deps chain clock tr c)
    (hC : ∀ t ∈ tr, FailsInOrder t) : ∀ t ∈ tr, FailsTruly t := by
  intro t ht
  obtain ⟨tr', hsub, hrun, hstep⟩ := run_to_pre hr ht
  have hI := ServiceRun.failuresSettled hrun fun t' ht' => hC t' (hsub ht')
  have hcons := ServiceRun.consistent hrun
  have hj := ServiceRun.justified hrun
  have hreport : ∀ n k reason row, t.label = .did n ⟨.write (.markFailed k reason), .ok ()⟩ →
      t.pre.world.db.opLog k = some row → ReportedFailure (historyOf n t.pre.log) k row.build := by
    intro n k reason row hlabel hrow
    rw [hlabel] at hstep
    obtain ⟨loaded, hfail⟩ := (ServiceRun.permitted hrun hstep).2
    rwa [(hC t ht).row_build hcons hlabel hfail hrow]
  refine ⟨hreport, ?_, ?_⟩
  · intro n k reason row hlabel hrow tx hsent hhf hc
    have hfail := hreport n k reason row hlabel hrow
    obtain ⟨k', build, hacc⟩ := hI.accepted tx hsent hc
    have hhf' : k'.hostFunction build = k.hostFunction row.build :=
      Option.some_inj.mp ((hacc.sentFor.saved hcons).1.symm.trans hhf)
    by_cases hk : k' = k
    · subst hk
      exact ((hC t ht).settled n k' reason _ hlabel hfail build tx hacc hhf').2 hc
    · exact (hC t ht).elsewhere n k reason _ hlabel hfail k' build tx hk hacc.sentFor hhf' hc
  · intro n d k build hash row hlabel hconfirms hsuccess hrow hhf hst
    obtain ⟨hc, -⟩ := hsuccess.confirmed hcons
    exact (hI.dead k row hrow hst build hash (hsuccess.accepted hj hcons) hhf.symm).2 hc

/-! ## Runs with a failure -/

/-- The failure a step records. -/
def recordedFailure (t : ServiceTransition own) : Option (ℕ × OpKey × Message) :=
  match t.label with
  | .did n ⟨.write (.markFailed k reason), .ok ()⟩ => some (n, k, reason)
  | _ => none

/-- The step neither sends, nor records a failure, nor confirms. -/
def idle (t : ServiceTransition own) : Bool :=
  match t.label with
  | .did _ ⟨.sendTransaction _, _⟩ | .did _ ⟨.write (.markFailed ..), _⟩
  | .env (.confirm ..) => false
  | _ => true

/-- The step is a send that was refused. -/
def refusedSend (t : ServiceTransition own) : Bool :=
  match t.label with
  | .did _ ⟨.sendTransaction signedXDR, r⟩ => refused ⟨.sendTransaction signedXDR, r⟩
  | _ => false

theorem label_of_recordedFailure {t : ServiceTransition own} {n : ℕ} {k : OpKey}
    {reason : Message} (h : recordedFailure t = some (n, k, reason)) :
    t.label = .did n ⟨.write (.markFailed k reason), .ok ()⟩ := by
  unfold recordedFailure at h
  split at h
  · rename_i hlabel
    cases h
    exact hlabel
  · exact nomatch h

/-- A send is an answered call with the transaction in its envelope. -/
theorem sends_eq {d : Done} {tx : Transaction} (h : d.op.sends tx) :
    ∃ signedXDR r, d = ⟨.sendTransaction signedXDR, r⟩ := by
  obtain ⟨op, r⟩ := d
  obtain ⟨signatures, heq⟩ := Op.sends_iff.mp h
  simp only at heq
  subst heq
  exact ⟨_, r, rfl⟩

/-- A step that neither saves nor sends nor fails is in order. -/
theorem failsInOrder_of_idle {t : ServiceTransition own} (h : idle t = true) :
    FailsInOrder t where
  current := fun n k reason loaded hlabel => by simp [idle, hlabel] at h
  settled := fun n k reason loaded hlabel => by simp [idle, hlabel] at h
  elsewhere := fun n k reason loaded hlabel => by simp [idle, hlabel] at h
  openRow := fun n d k build tx row hlabel hs => by
    obtain ⟨signedXDR, r, rfl⟩ := sends_eq hs
    simp [idle, hlabel] at h
  refusal := fun n d tx hlabel hs => by
    obtain ⟨signedXDR, r, rfl⟩ := sends_eq hs
    simp [idle, hlabel] at h
  final := fun tx env hlabel => by simp [idle, hlabel] at h

/-- A send that is refused while nothing has been confirmed is in order. -/
theorem failsInOrder_of_refusedSend {t : ServiceTransition own} (h : refusedSend t = true)
    (hledger : t.pre.world.ledger = []) : FailsInOrder t where
  current := fun n k reason loaded hlabel => by simp [refusedSend, hlabel] at h
  settled := fun n k reason loaded hlabel => by simp [refusedSend, hlabel] at h
  elsewhere := fun n k reason loaded hlabel => by simp [refusedSend, hlabel] at h
  openRow := fun n d k build tx row hlabel hs haccepted => by
    obtain ⟨signedXDR, r, rfl⟩ := sends_eq hs
    simp only [refusedSend, hlabel] at h
    rw [h] at haccepted
    exact nomatch haccepted
  refusal := fun n d tx hlabel hs hrefused hc => by
    rw [World.Confirmed, hledger] at hc
    exact absurd hc List.not_mem_nil
  final := fun tx env hlabel => by simp [refusedSend, hlabel] at h

/-- A failure recorded on the row of its own build, while every send was refused and nothing
has been confirmed, is in order. -/
theorem failsInOrder_of_recordedFailure {t : ServiceTransition own} {n : ℕ} {k : OpKey}
    {reason : Message} {build : k.Build} {tx : Transaction}
    (h : recordedFailure t = some (n, k, reason)) (hledger : t.pre.world.ledger = [])
    (hj : Justified Permitted t.pre.log)
    (hverified : Verified (historyOf n t.pre.log) k build tx)
    (hlast : LastSaved t.pre.log k build)
    (hrefused : ∀ build tx, ¬ AcceptedFor k build tx t.pre.log) : FailsInOrder t := by
  have hlabel := label_of_recordedFailure h
  refine ⟨⟨?_, ?_, ?_⟩, ?_, ?_, ?_⟩
  · intro n' d k' build' tx' row hlabel' hs
    cases hlabel.symm.trans hlabel'
    cases hs
  · intro n' d tx' hlabel' hs
    cases hlabel.symm.trans hlabel'
    cases hs
  · intro tx' env hlabel'
    cases hlabel.symm.trans hlabel'
  · intro n' k' reason' loaded hlabel' hfail
    cases hlabel.symm.trans hlabel'
    obtain ⟨response, ⟨tx', signatures, hv, -⟩, -⟩ := hfail
    cases hv.unique hj hverified
    exact hlast
  · intro n' k' reason' loaded hlabel' hfail build' tx' hacc
    cases hlabel.symm.trans hlabel'
    exact absurd hacc (hrefused build' tx')
  · intro n' k' reason' loaded hlabel' hfail k'' build' tx' hk hsent hhf hc
    rw [World.Confirmed, hledger] at hc
    exact absurd hc List.not_mem_nil

/-- The call is a send that was not refused. -/
def unrefusedSend : Done → Bool
  | ⟨.sendTransaction signedXDR, r⟩ => !refused ⟨.sendTransaction signedXDR, r⟩
  | _ => false

theorem not_acceptedFor {k : OpKey} {build : k.Build} {tx : Transaction} {log : Log}
    (h : ∀ e ∈ log, unrefusedSend e.2 = false) : ¬ AcceptedFor k build tx log := by
  induction log with
  | nil => exact id
  | cons e log ih =>
      rintro (⟨hs, haccepted, -⟩ | hold)
      · obtain ⟨signedXDR, r, heq⟩ := sends_eq hs
        have hnow := h e List.mem_cons_self
        rw [heq] at haccepted hnow
        simp [unrefusedSend, haccepted] at hnow
      · exact ih (fun e he => h e (List.mem_cons_of_mem _ he)) hold

namespace Sample

/-- A submit reads the pending deposit, is refused, and records it. -/
def opened : List (ServiceTransition Escrow.Sample.escrow) × ServiceConfig :=
  after begun (depositBuild ++ [depositSubmit 41, .call 1 .ok])

def turnedDown : List (ServiceTransition Escrow.Sample.escrow) × ServiceConfig :=
  after opened.2 [.call 1 (.sent .error "txINSUFFICIENT_BALANCE")]

def written : List (ServiceTransition Escrow.Sample.escrow) × ServiceConfig :=
  after turnedDown.2 [.call 1 .ok]

theorem run_turnedDown : ServiceRun Escrow.Sample.escrow setup contract 0
    (opened.1 ++ turnedDown.1) turnedDown.2 :=
  Run.append (run_after begun _ _) (run_after opened.2 _ _)

theorem run_written : ServiceRun Escrow.Sample.escrow setup contract 0
    (opened.1 ++ turnedDown.1 ++ written.1) written.2 :=
  run_turnedDown.append (run_after turnedDown.2 _ _)

/-- What the last step of that run finds. -/
theorem written_step : ∀ t ∈ written.1,
    (recordedFailure t = some (1, .deposit opID,
        SubmitError.error (.submission "txINSUFFICIENT_BALANCE"))) ∧
      t.pre.world.ledger = [] ∧
      Verified (historyOf 1 t.pre.log) (.deposit opID) depositRow (deposit 41) ∧
      ((t.pre.world.db.opLog (.deposit opID)).map (·.build) = some depositRow) ∧
      ∀ e ∈ t.pre.log, unrefusedSend e.2 = false := by
  decide +kernel

theorem written_inOrder : ∀ t ∈ opened.1 ++ turnedDown.1 ++ written.1, FailsInOrder t := by
  intro t ht
  obtain ⟨tr', -, hrun, -⟩ := run_to_pre run_written ht
  rcases List.mem_append.mp ht with ht | hw
  · rcases List.mem_append.mp ht with ho | hd
    · have hidle : ∀ t ∈ opened.1, idle t = true := by decide +kernel
      exact failsInOrder_of_idle (hidle t ho)
    · have hrefused : ∀ t ∈ turnedDown.1, refusedSend t = true ∧ t.pre.world.ledger = [] := by
        decide +kernel
      exact failsInOrder_of_refusedSend (hrefused t hd).1 (hrefused t hd).2
  · obtain ⟨hfail, hledger, hverified, hrow, hsends⟩ := written_step t hw
    obtain ⟨row, hrow, hbuild⟩ := Option.map_eq_some_iff.mp hrow
    refine failsInOrder_of_recordedFailure hfail hledger (ServiceRun.justified hrun) hverified ?_
      fun _ _ => not_acceptedFor hsends
    rw [← hbuild]
    exact (ServiceRun.consistent hrun).row _ row hrow

/-- The first submit's transaction is accepted but not found before the time is up; the
ledger includes it, and a retry of the same envelope is refused. -/
def retried : List (ServiceTransition Escrow.Sample.escrow) × ServiceConfig :=
  after begun (depositBuild ++
    [depositSubmit 41, .call 1 .ok, .call 1 (.sent .pending ""), .call 1 .ok,
     .call 1 (.found .notFound), .event (.tick 40000000000), .call 1 .ok,
     depositConfirmed 41, depositSubmit 41, .call 2 .ok, .call 2 (.sent .error "txBAD_SEQ")])

/-- The refusal is recorded. -/
def misrecorded : List (ServiceTransition Escrow.Sample.escrow) × ServiceConfig :=
  after retried.2 [.call 2 .ok]

theorem run_misrecorded : ServiceRun Escrow.Sample.escrow setup contract 0
    (retried.1 ++ misrecorded.1) misrecorded.2 :=
  Run.append (run_after begun _ _) (run_after retried.2 _ _)

/-- What its recording finds: the deposit was sent and confirmed. -/
theorem misrecorded_step : ∃ t ∈ misrecorded.1,
    (recordedFailure t = some (2, .deposit opID, SubmitError.error (.submission "txBAD_SEQ"))) ∧
      t.pre.world.Confirmed (deposit 41) ∧
      ((t.pre.world.db.opLog (.deposit opID)).map (·.build) = some depositRow) ∧
      ∃ e ∈ t.pre.log, e.2.op.sends (deposit 41) := by
  decide +kernel

end Sample

theorem failure_record_written :
    Sample.written.2.world.db.opStatus (.deposit Sample.opID) = some .failed ∧
      ∀ t ∈ Sample.opened.1 ++ Sample.turnedDown.1 ++ Sample.written.1, FailsTruly t :=
  ⟨by decide +kernel, failure_record Sample.run_written Sample.written_inOrder⟩

/-- The deposit's row is failed while its transaction has been confirmed. -/
theorem failed_though_confirmed : ∃ tr c,
    ServiceRun Escrow.Sample.escrow Sample.setup Sample.contract 0 tr c ∧
      ∃ t ∈ tr, ¬ FailsTruly t := by
  refine ⟨_, _, Sample.run_misrecorded, ?_⟩
  obtain ⟨t, ht, hfail, hconfirmed, hrow, ⟨n, d⟩, hmem, hsends⟩ := Sample.misrecorded_step
  obtain ⟨row, hrow, hbuild⟩ := Option.map_eq_some_iff.mp hrow
  refine ⟨t, List.mem_append_right _ ht, fun htruly => ?_⟩
  refine htruly.unconfirmed 2 _ _ row (label_of_recordedFailure hfail) hrow (Sample.deposit 41)
    ⟨n, d, hmem, hsends⟩ ?_ hconfirmed
  rw [hbuild]
  rfl

end Service
