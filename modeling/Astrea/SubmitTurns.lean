/-
# Submits that take turns

A condition on the submits under which failures are recorded in order.  No build is saved for a row
while a submit of the row is under way; a submit sends only when no other submit of the build has
sent and not recorded its outcome, and when nothing the network accepted for the build has succeeded
or still can; and no two rows send one host function.  What the service has to know of a row when it
records a failure follows by induction over the run (`failsInOrder_of_turns`).
-/
import Astrea.FailureRecord

open Interleave

namespace Service

variable {own : Address} {deps : Deps} {chain : Escrow.State} {clock : Time}
  {tr : List (ServiceTransition own)} {c : ServiceConfig}

/-! ## Turns -/

/-- The request has read `build` from the pending row of `k`, and has written nothing yet. -/
structure UnderWay (h : List Done) (k : OpKey) (build : k.Build) : Prop where
  loaded : (⟨.loadOp k, .ok ⟨.pending, build⟩⟩ : Done) ∈ h
  unwritten : ∀ d ∈ h, ¬ d.op.IsWrite

/-- The step sends in order, and in its turn: a save finds no submit of its row under way, and a
send finds no other submit of its build between its own send and its record, nothing accepted for
the build that has succeeded or still can, and no other row whose host function was sent. -/
structure TakesTurns (t : ServiceTransition own) : Prop extends SendsInOrder t where
  saves : ∀ n k build, t.label = .did n ⟨.write (saveOf k build), .ok ()⟩ →
    ∀ m build', m ≠ n → ¬ UnderWay (historyOf m t.pre.log) k build'
  alone : ∀ n d k build tx, t.label = .did n d → d.op.sends tx →
    Verified (historyOf n t.pre.log) k build tx →
    ∀ m build', m ≠ n → UnderWay (historyOf m t.pre.log) k build' →
      k.hostFunction build' = k.hostFunction build → ∀ d' ∈ historyOf m t.pre.log, ¬ d'.op.IsSend
  settled : ∀ n d k build tx, t.label = .did n d → d.op.sends tx →
    Verified (historyOf n t.pre.log) k build tx →
    ∀ build' tx', AcceptedFor k build' tx' t.pre.log →
      k.hostFunction build' = k.hostFunction build → t.pre.world.NeverSucceeds tx'
  oneRow : ∀ n d k build tx, t.label = .did n d → d.op.sends tx →
    Verified (historyOf n t.pre.log) k build tx →
    ∀ k' build' tx', k' ≠ k → SentFor k' build' tx' t.pre.log →
      k'.hostFunction build' ≠ k.hostFunction build

/-- What taking turns keeps true: a submit that is under way works on the last build of its row,
what the network accepted for the build of a submit that has sent is what this submit sent or can
never succeed, and no two rows have sent one host function. -/
structure TurnsSound (w : World) (log : Log) : Prop where
  current : ∀ n k build, UnderWay (historyOf n log) k build → LastSaved log k build
  settled : ∀ n k build tx d, Verified (historyOf n log) k build tx →
    (∀ d ∈ historyOf n log, ¬ d.op.IsWrite) → d ∈ historyOf n log → d.op.sends tx →
    ∀ build' tx', AcceptedFor k build' tx' log → k.hostFunction build' = k.hostFunction build →
      (tx' = tx ∧ refused d = false) ∨ w.NeverSucceeds tx'
  oneRow : ∀ k k' build build' tx tx', k' ≠ k → SentFor k build tx log →
    SentFor k' build' tx' log → k'.hostFunction build' ≠ k.hostFunction build

/-! ## Steps -/

section Step

variable {w : World} {log : Log} {h : List Done} {k : OpKey} {build : k.Build} {tx tx' : Transaction}
  {t : ℕ} {op : Op} {r : op.Res}

theorem isSend_of_sends (hs : op.sends tx) : op.IsSend := by
  obtain ⟨signatures, rfl⟩ := Op.sends_iff.mp hs
  trivial

/-- An envelope has one transaction. -/
theorem sends_unique (hs : op.sends tx) (hs' : op.sends tx') : tx' = tx := by
  obtain ⟨signatures, rfl⟩ := Op.sends_iff.mp hs
  obtain ⟨signatures', heq⟩ := Op.sends_iff.mp hs'
  cases heq
  rfl

/-- Only the read of a row verifies anything. -/
theorem Verified.of_cons (hv : Verified (⟨op, r⟩ :: h) k build tx) (hop : ¬ op.IsRowRead) :
    Verified h k build tx := by
  refine ⟨?_, hv.source, hv.hostFunction⟩
  rcases List.mem_cons.mp hv.loaded with heq | hold
  · cases heq
    exact absurd trivial hop
  · exact hold

/-- A request reads its row before it sends. -/
theorem Permitted.reads_before (hperm : Permitted (historyOf t log) op) (hop : op.IsRowRead)
    (hj : Justified Permitted log) {d : Done} (hd : d ∈ historyOf t log) : ¬ d.op.sends tx := by
  intro hs
  obtain ⟨k, build, hv, -⟩ := verified_of_mem hj (mem_historyOf.mp hd) hs
  cases op with
  | loadOp k' => exact hperm _ hv.loaded trivial
  | _ => exact absurd hop id

/-- A call in its turn leaves every submit that is under way with the last build of its row. -/
theorem TurnsSound.current_call {c : ServiceConfig} {p : Prog Op Op.Res Response}
    (hT : TakesTurns (⟨c, .did t ⟨op, r⟩, c.advance t ⟨op, r⟩ w p⟩ : ServiceTransition own))
    (hcons : Consistent c.world c.log) (hI : TurnsSound c.world c.log)
    (hp : Performed c.world op r w) {n : ℕ}
    (hu : UnderWay (historyOf n ((t, ⟨op, r⟩) :: c.log)) k build) :
    LastSaved ((t, ⟨op, r⟩) :: c.log) k build := by
  by_cases hn : n = t
  · subst hn
    rw [historyOf_cons_self] at hu
    have hop : ¬ op.IsWrite := hu.unwritten _ List.mem_cons_self
    refine LastSaved.cons ?_ (not_saves_of_not_isWrite hop)
    rcases List.mem_cons.mp hu.loaded with heq | hold
    · -- the row that is read now holds the last build
      cases heq
      cases hp with
      | loadedOp stored =>
          obtain ⟨lastError, hrow⟩ := loadOp_eq_ok.mp (stored _ rfl)
          exact hcons.row _ _ hrow
    · exact hI.current n k build ⟨hold, fun d hd => hu.unwritten d (List.mem_cons_of_mem _ hd)⟩
  · rw [historyOf_cons_ne (Ne.symm hn)] at hu
    refine (hI.current n k build hu).cons ?_
    rintro ⟨saved, heq⟩
    exact hT.saves t k saved (congrArg (Label.did t) heq) n build hn hu

/-- A call in its turn leaves what was accepted for the build of a submit settled. -/
theorem TurnsSound.settled_call {c : ServiceConfig} {p : Prog Op Op.Res Response}
    (hT : TakesTurns (⟨c, .did t ⟨op, r⟩, c.advance t ⟨op, r⟩ w p⟩ : ServiceTransition own))
    (hj : Justified Permitted c.log) (hI : TurnsSound c.world c.log)
    (hperm : Permitted (historyOf t c.log) op) (hp : Performed c.world op r w) {n : ℕ} {d : Done}
    (hv : Verified (historyOf n ((t, ⟨op, r⟩) :: c.log)) k build tx)
    (hunwritten : ∀ d ∈ historyOf n ((t, ⟨op, r⟩) :: c.log), ¬ d.op.IsWrite)
    (hd : d ∈ historyOf n ((t, ⟨op, r⟩) :: c.log)) (hs : d.op.sends tx) {build' : k.Build}
    (hacc : AcceptedFor k build' tx' ((t, ⟨op, r⟩) :: c.log))
    (hhf : k.hostFunction build' = k.hostFunction build) :
    (tx' = tx ∧ refused d = false) ∨ w.NeverSucceeds tx' := by
  by_cases hn : n = t
  · subst hn
    rw [historyOf_cons_self] at hv hunwritten hd
    have hrest : ∀ d ∈ historyOf n c.log, ¬ d.op.IsWrite := fun d hd =>
      hunwritten d (List.mem_cons_of_mem _ hd)
    rcases List.mem_cons.mp hd with rfl | hold
    · -- the submit sends now, when all that was accepted before is settled
      have hread : ¬ op.IsRowRead := by
        obtain ⟨signatures, rfl⟩ := Op.sends_iff.mp hs
        exact id
      rcases hacc with ⟨hsends, haccepted, -⟩ | hbefore
      · exact .inl ⟨sends_unique hs hsends, haccepted⟩
      · exact .inr (hp.neverSucceeds
          (hT.settled n _ k build tx rfl hs (hv.of_cons hread) build' tx' hbefore hhf))
    · -- it sent before, and sends and reads no more
      have hread : ¬ op.IsRowRead := fun hop => hperm.reads_before hop hj hold hs
      have hsend : ¬ op.IsSend := by
        intro hop
        cases op with
        | sendTransaction signedXDR => exact hperm.1 d hold (isSend_of_sends hs)
        | _ => exact absurd hop id
      exact (hI.settled n k build tx d (hv.of_cons hread) hrest hold hs build' tx'
        (hacc.of_cons (d := ⟨op, r⟩) hsend) hhf).imp_right hp.neverSucceeds
  · rw [historyOf_cons_ne (Ne.symm hn)] at hv hunwritten hd
    rcases hacc with ⟨hsends, -, hv'⟩ | hbefore
    · -- another submit of the build sends while this one is between send and record
      exact absurd (isSend_of_sends hs)
        (hT.alone t _ k build' tx' rfl hsends hv' n build hn ⟨hv.loaded, hunwritten⟩ hhf.symm d hd)
    · exact (hI.settled n k build tx d hv hunwritten hd hs build' tx' hbefore hhf).imp_right
        hp.neverSucceeds

/-- A send in its turn carries no host function that another row has sent. -/
theorem TurnsSound.oneRow_call {c : ServiceConfig} {p : Prog Op Op.Res Response}
    (hT : TakesTurns (⟨c, .did t ⟨op, r⟩, c.advance t ⟨op, r⟩ w p⟩ : ServiceTransition own))
    (hj : Justified Permitted c.log) (hI : TurnsSound c.world c.log) {k' : OpKey}
    {build' : k'.Build} (hne : k' ≠ k) (hsent : SentFor k build tx ((t, ⟨op, r⟩) :: c.log))
    (hsent' : SentFor k' build' tx' ((t, ⟨op, r⟩) :: c.log)) :
    k'.hostFunction build' ≠ k.hostFunction build := by
  rcases hsent with ⟨hs, hv⟩ | hold <;> rcases hsent' with ⟨hs', hv'⟩ | hold'
  · -- one request works on one row
    obtain rfl := sends_unique hs hs'
    cases hv.unique hj hv'
    exact absurd rfl hne
  · exact hT.oneRow t _ k build tx rfl hs hv k' build' tx' hne hold'
  · exact (hT.oneRow t _ k' build' tx' rfl hs' hv' k build tx hne.symm hold).symm
  · exact hI.oneRow k k' build build' tx tx' hne hold hold'

end Step

/-! ## Runs -/

/-- In a run of turns they stay sound. -/
theorem ServiceRun.turnsSound (hr : ServiceRun own deps chain clock tr c)
    (hT : ∀ t ∈ tr, TakesTurns t) : TurnsSound c.world c.log := by
  have hboth : Consistent c.world c.log ∧ TurnsSound c.world c.log := by
    refine hr.invariant (I := fun w log => Consistent w log ∧ TurnsSound w log) hT
      ⟨consistent_deployment, ?_, ?_, ?_⟩ ?_ ?_
    · exact fun _ _ _ hu => absurd hu.loaded List.not_mem_nil
    · exact fun _ _ _ _ _ _ _ hd => absurd hd List.not_mem_nil
    · exact fun _ _ _ _ _ _ _ hsent => hsent.elim
    · rintro c t op r w p hturn hj ⟨hcons, hI⟩ hperm hp
      refine ⟨hp.consistent hcons, ?_, ?_, ?_⟩
      · exact fun _ _ _ hu => TurnsSound.current_call hturn hcons hI hp hu
      · exact fun _ _ _ _ _ hv hunwritten hd hs _ _ hacc hhf =>
          TurnsSound.settled_call hturn hj hI hperm hp hv hunwritten hd hs hacc hhf
      · exact fun _ _ _ _ _ _ hne hsent hsent' =>
          TurnsSound.oneRow_call hturn hj hI hne hsent hsent'
    · rintro c event w hturn hj ⟨hcons, hI⟩ hm
      refine ⟨hm.consistent hcons, hI.current, ?_, hI.oneRow⟩
      exact fun n k build tx d hv hunwritten hd hs build' tx' hacc hhf =>
        (hI.settled n k build tx d hv hunwritten hd hs build' tx' hacc hhf).imp_right
          hm.neverSucceeds
  exact hboth.2

/-- When submits take turns, failures are recorded in order. -/
theorem failsInOrder_of_turns (hr : ServiceRun own deps chain clock tr c)
    (hT : ∀ t ∈ tr, TakesTurns t) : ∀ t ∈ tr, FailsInOrder t := by
  intro t ht
  obtain ⟨tr', hsub, hrun, hstep⟩ := run_to_pre hr ht
  have hI := ServiceRun.turnsSound hrun fun t' ht' => hT t' (hsub ht')
  have hcons := ServiceRun.consistent hrun
  have hj := ServiceRun.justified hrun
  -- a submit that records a failure has written nothing before
  have hunwritten : ∀ {n k reason}, t.label = .did n ⟨.write (.markFailed k reason), .ok ()⟩ →
      ∀ d ∈ historyOf n t.pre.log, ¬ d.op.IsWrite := by
    intro n k reason hlabel
    rw [hlabel] at hstep
    exact (ServiceRun.permitted hrun hstep).1
  refine ⟨(hT t ht).toSendsInOrder, ?_, ?_, ?_⟩
  · rintro n k reason loaded hlabel ⟨response, ⟨tx, signatures, hv, -⟩, -⟩
    exact hI.current n k loaded ⟨hv.loaded, hunwritten hlabel⟩
  · rintro n k reason loaded hlabel ⟨response, ⟨tx, signatures, hv, hsent⟩, hfailed⟩ build tx' hacc
      hhf
    have hs : (⟨.sendTransaction (.envelope (.v1 tx signatures)), .ok response⟩ : Done).op.sends tx :=
      decide_eq_true rfl
    rcases hI.settled n k loaded tx _ hv (hunwritten hlabel) hsent hs build tx' hacc hhf with
      ⟨rfl, haccepted⟩ | hnever
    · -- the submit's own transaction was accepted, so it was found to have failed
      rcases hfailed with herror | ⟨resultXDR, hfound⟩
      · exact absurd (decide_eq_false_iff_not.mp haccepted) (not_not.mpr herror)
      · obtain ⟨signatures', hx⟩ := hcons.hash n _ response (mem_historyOf.mp hsent)
        cases hx
        exact hcons.ledger.neverSucceeds (hcons.failed n _ resultXDR (mem_historyOf.mp hfound))
    · exact hnever
  · rintro n k reason loaded hlabel ⟨response, ⟨tx, signatures, hv, hsent⟩, -⟩ k' build tx' hne
      hsent' hhf
    have hmine : SentFor k loaded tx t.pre.log :=
      sentFor_of_mem hj (mem_historyOf.mp hsent) (decide_eq_true rfl) hv
    exact absurd hhf (hI.oneRow k k' loaded build tx tx' hne hmine hsent')

/-! ### A sample -/

/-- The call is a send. -/
def isSendCall : Done → Bool
  | ⟨.sendTransaction _, _⟩ => true
  | _ => false

/-- The step saves or sends, if it does, when no other request has called anything and nothing has
been sent. -/
def firstTurn (t : ServiceTransition own) : Bool :=
  match t.label with
  | .did _ ⟨.write (.markFailed _ _), _⟩ => true
  | .did n ⟨.write _, _⟩ => t.pre.log.all fun e => e.1 = n
  | .did _ ⟨.sendTransaction _, _⟩ => t.pre.log.all fun e => !isSendCall e.2
  | _ => true

/-- Then nothing is sent before a send. -/
theorem not_sends_of_first {t : ServiceTransition own} {n : ℕ} {d : Done} {tx : Transaction}
    (h : firstTurn t = true) (hlabel : t.label = .did n d) (hs : d.op.sends tx) :
    ∀ e ∈ t.pre.log, ¬ e.2.op.IsSend := by
  obtain ⟨signedXDR, r, rfl⟩ := sends_eq hs
  intro e he hsend
  rw [firstTurn, hlabel] at h
  have hnot := List.all_eq_true.mp h e he
  obtain ⟨m, op, r'⟩ := e
  cases op with
  | sendTransaction => exact absurd hnot Bool.false_ne_true
  | _ => exact absurd hsend id

/-- What was never sent was sent for no build. -/
theorem not_sentFor {k : OpKey} {build : k.Build} {tx : Transaction} {log : Log}
    (h : ∀ e ∈ log, ¬ e.2.op.IsSend) : ¬ SentFor k build tx log := by
  induction log with
  | nil => exact id
  | cons e log ih =>
      rintro (⟨hs, -⟩ | hold)
      · exact h e List.mem_cons_self (isSend_of_sends hs)
      · exact ih (fun e he => h e (List.mem_cons_of_mem _ he)) hold

/-- Who comes first takes its turn. -/
theorem takesTurns_of_first {t : ServiceTransition own} (hinOrder : SendsInOrder t)
    (h : firstTurn t = true) : TakesTurns t where
  toSendsInOrder := hinOrder
  saves := by
    intro n k build hlabel m build' hne hu
    rw [firstTurn, hlabel] at h
    have hmine : ∀ e ∈ t.pre.log, decide (e.1 = n) = true := by
      cases k <;> exact List.all_eq_true.mp h
    exact hne (of_decide_eq_true (hmine _ (mem_historyOf.mp hu.loaded)))
  alone := by
    intro n d k build tx hlabel hs hv m build' hne hu hhf d' hd'
    exact not_sends_of_first h hlabel hs _ (mem_historyOf.mp hd')
  settled := by
    intro n d k build tx hlabel hs hv build' tx' hacc
    exact absurd hacc.sentFor (not_sentFor (not_sends_of_first h hlabel hs))
  oneRow := by
    intro n d k build tx hlabel hs hv k' build' tx' hne hsent
    exact absurd hsent (not_sentFor (not_sends_of_first h hlabel hs))

/-- The run in which the only submit is refused and records it. -/
example : ∀ t ∈ Sample.opened.1 ++ Sample.turnedDown.1 ++ Sample.written.1, TakesTurns t := by
  have hfirst : ∀ t ∈ Sample.opened.1 ++ Sample.turnedDown.1 ++ Sample.written.1,
      firstTurn t = true := by decide +kernel
  exact fun t ht => takesTurns_of_first (Sample.written_inOrder t ht).toSendsInOrder (hfirst t ht)

end Service
