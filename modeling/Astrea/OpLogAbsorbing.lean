/-
# Is `SUCCEEDED` final?

Every write of the op log but one leaves a succeeded row alone: a save refuses it and a
success needs a pending row.  `Mark*Failed` has no such guard.  So succeeded rows are final
in exactly the runs in which no failure is recorded on one, and racing submits of one
envelope make a run in which it is.
-/
import Astrea.ServiceRun

open Interleave

namespace Service

variable {own : Address} {deps : Deps} {chain : Escrow.State} {clock : Time}
  {tr : List (ServiceTransition own)} {c : ServiceConfig}

/-- From any point of the run on, a row that has succeeded is the same at every later
point. -/
def SucceededFinal (own : Address) (deps : Deps) (tr : List (ServiceTransition own)) : Prop :=
  ∀ tr₁ tr₂ tr₃ c₁ c₂, tr = tr₁ ++ (tr₂ ++ tr₃) → Run (ServiceStep own deps) c₁ tr₂ c₂ →
    ∀ k row, c₁.world.db.opLog k = some row → row.status = .succeeded →
      c₂.world.db.opLog k = some row

/-- Whether the step records a failure on a row that has succeeded. -/
def failsSucceeded (t : ServiceTransition own) : Bool :=
  match t.label with
  | .did _ ⟨.write (.markFailed k _), .ok ()⟩ => t.pre.world.db.opStatus k = some .succeeded
  | _ => false

theorem failsSucceeded_iff {t : ServiceTransition own} :
    failsSucceeded t ↔ ∃ n k reason, t.label = .did n ⟨.write (.markFailed k reason), .ok ()⟩ ∧
      t.pre.world.db.opStatus k = some .succeeded := by
  unfold failsSucceeded
  constructor
  · intro h
    split at h
    · exact ⟨_, _, _, ‹_›, of_decide_eq_true h⟩
    · exact nomatch h
  · rintro ⟨n, k, reason, hlabel, hst⟩
    rw [hlabel]
    exact decide_eq_true hst

/-- A write leaves a succeeded row, unless it records a failure on it. -/
theorem StoreWrite.run_succeeded {db db' : DB} {x : StoreWrite} (h : x.run db = .ok db')
    {k : OpKey} {row : OpRow k} (hrow : db.opLog k = some row) (hst : row.status = .succeeded) :
    db'.opLog k = some row ∨ ∃ reason, x = .markFailed k reason := by
  obtain ⟨hother, htakes⟩ := StoreWrite.run_opLog h
  by_cases hk : k = x.key
  · subst hk
    have hpending : ∀ {row'}, db.opLog x.key = some row' → row'.status ≠ .pending := by
      intro row' hrow' hst'
      obtain rfl := Option.some_inj.mp (hrow.symm.trans hrow')
      exact nomatch hst.symm.trans hst'
    cases x with
    | saveCreateBuild p b => exact absurd hst (htakes.1 row hrow)
    | saveDepositBuild o b => exact absurd hst (htakes.1 row hrow)
    | saveStartBuild p b => exact absurd hst (htakes.1 row hrow)
    | saveReleaseBuild p b => exact absurd hst (htakes.1 row hrow)
    | markCreateSucceeded p eid t =>
        obtain ⟨row', hrow', hst', -⟩ := htakes
        exact absurd hst' (hpending hrow')
    | markDepositSucceeded o =>
        obtain ⟨row', hrow', hst', -⟩ := htakes
        exact absurd hst' (hpending hrow')
    | markStartSucceeded p hf t =>
        obtain ⟨row', hrow', hst', -⟩ := htakes
        exact absurd hst' (hpending hrow')
    | markReleaseSucceeded p hash t =>
        obtain ⟨row', hrow', hst', -⟩ := htakes
        exact absurd hst' (hpending hrow')
    | markFailed k reason => exact .inr ⟨reason, rfl⟩
  · exact .inl (by rw [hother k hk, hrow])

/-- A step leaves a succeeded row, unless it records a failure on it. -/
theorem ServiceStep.keeps_succeeded {c c' : ServiceConfig} {l : ServiceLabel own}
    (hs : ServiceStep own deps c l c') (hno : ¬ failsSucceeded ⟨c, l, c'⟩) {k : OpKey}
    {row : OpRow k} (hrow : c.world.db.opLog k = some row) (hst : row.status = .succeeded) :
    c'.world.db.opLog k = some row := by
  cases hs with
  | spawn => exact hrow
  | @did t op next choice r w thread performed =>
      have hp := perform_eq_some performed
      by_cases hop : op.IsWrite
      · cases hp with
        | wrote run =>
            rcases StoreWrite.run_succeeded run hrow hst with hkeep | ⟨reason, rfl⟩
            · exact hkeep
            · exact absurd (failsSucceeded_iff.mpr
                ⟨t, k, reason, rfl, DB.opStatus_eq_some.mpr ⟨row, hrow, hst⟩⟩) hno
        | refused => exact hrow
        | _ => exact absurd hop id
      · show w.db.opLog k = some row
        rw [hp.db hop]
        exact hrow
  | env moved =>
      rcases (environment_eq_some moved).db with heq | ⟨e, hrun⟩
      · exact heq ▸ hrow
      · show _ = some row
        rw [Interleave.Config.moved, (WebEvent.run_tables hrun).1]
        exact hrow

/-- A recorded failure is on the row. -/
theorem ServiceStep.fails_succeeded {c c' : ServiceConfig} {l : ServiceLabel own}
    (hs : ServiceStep own deps c l c') (hf : failsSucceeded ⟨c, l, c'⟩) :
    ∃ k row, c.world.db.opLog k = some row ∧ row.status = .succeeded ∧
      c'.world.db.opLog k ≠ some row := by
  obtain ⟨n, k, reason, hlabel, hst⟩ := failsSucceeded_iff.mp hf
  simp only at hlabel hst
  subst hlabel
  obtain ⟨row, hrow, hst⟩ := DB.opStatus_eq_some.mp hst
  refine ⟨k, row, hrow, hst, fun hpost => ?_⟩
  cases hs with
  | did thread performed =>
      cases perform_eq_some performed with
      | wrote run =>
          obtain ⟨-, row', hrow', hnew⟩ := StoreWrite.run_opLog run
          rw [← Option.some_inj.mp (hnew.symm.trans hpost)] at hst
          exact nomatch hst

/-- Succeeded rows are final in exactly the runs that never record a failure on one. -/
theorem succeeded_absorbing (hr : ServiceRun own deps chain clock tr c) :
    SucceededFinal own deps tr ↔ ∀ t ∈ tr, ¬ failsSucceeded t := by
  constructor
  · intro hfinal t ht hf
    obtain ⟨-, -, -, hstep⟩ := run_to_pre hr ht
    obtain ⟨k, row, hrow, hst, hpost⟩ := ServiceStep.fails_succeeded hstep hf
    obtain ⟨tr₁, tr₃, rfl⟩ := List.append_of_mem ht
    exact hpost (hfinal tr₁ [t] tr₃ t.pre t.post rfl (Run.single hstep) k row hrow hst)
  · rintro hno tr₁ tr₂ tr₃ c₁ c₂ rfl hrun k row hrow hst
    refine (hrun.restrict (C := fun t => ¬ failsSucceeded t) fun t ht => hno t ?_).invariant
      (I := fun c => c.world.db.opLog k = some row) hrow fun s l s' hkept hs =>
        hs.1.keeps_succeeded hs.2 hkept hst
    exact List.mem_append_right _ (List.mem_append_left _ ht)

/-! ## Two submits of one envelope -/

namespace Sample

/-- Two submits read the pending row; the first one's transaction is confirmed and recorded. -/
def first : List (ServiceTransition Escrow.Sample.escrow) × ServiceConfig :=
  after begun (depositBuild ++
    [depositSubmit 41, depositSubmit 41, .call 1 .ok, .call 2 .ok, .call 1 (.sent .pending ""),
     depositConfirmed 41, .call 1 .ok, .call 1 (.found .success), .call 1 .ok])

/-- The second one's send is then refused, and that is recorded too. -/
def second : List (ServiceTransition Escrow.Sample.escrow) × ServiceConfig :=
  after first.2 [.call 2 (.sent .error "txBAD_SEQ"), .call 2 .ok]

theorem run_first : ServiceRun Escrow.Sample.escrow setup contract 0 first.1 first.2 :=
  run_after begun _ _

theorem run_second : Run (ServiceStep Escrow.Sample.escrow setup) first.2 second.1 second.2 :=
  run_after first.2 _ _

end Sample

theorem succeeded_absorbing_first :
    SucceededFinal Escrow.Sample.escrow Sample.setup Sample.first.1 :=
  (succeeded_absorbing Sample.run_first).mpr (by decide +kernel)

/-- The deposit's row succeeds and then fails. -/
theorem succeeded_overwritten : ∃ tr c,
    ServiceRun Escrow.Sample.escrow Sample.setup Sample.contract 0 tr c ∧
      ¬ SucceededFinal Escrow.Sample.escrow Sample.setup tr := by
  refine ⟨_, _, Sample.run_first.append Sample.run_second, fun hfinal => ?_⟩
  have hsucceeded : Sample.first.2.world.db.opStatus (.deposit Sample.opID) = some .succeeded := by
    decide +kernel
  have hfailed : Sample.second.2.world.db.opStatus (.deposit Sample.opID) = some .failed := by
    decide +kernel
  obtain ⟨row, hrow, hst⟩ := DB.opStatus_eq_some.mp hsucceeded
  have hkept := hfinal Sample.first.1 Sample.second.1 [] _ _ (by rw [List.append_nil])
    Sample.run_second _ row hrow hst
  rw [DB.opStatus_eq_some.mpr ⟨row, hkept, hst⟩] at hfailed
  exact nomatch hfailed

end Service
