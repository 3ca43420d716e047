/-
# One effect per build

How many transactions sent for one build can succeed.  A create, start or release build
names a call that succeeds once, so the contract lets one through.  A deposit succeeds as
often as it is applied: here only the sequence numbers of the transactions can tell, and a
submit does not look at what was sent before it.
-/
import Astrea.ServiceRun

open Interleave

namespace Service

variable {own : Address} {deps : Deps} {chain : Escrow.State} {clock : Time}
  {tr : List (ServiceTransition own)} {c : ServiceConfig}

/-- Outside the deposit lane a saved build names a call that succeeds once. -/
theorem oneShot_of_saved {log : Log} (hj : Justified Permitted log) {t : ℕ} {k : OpKey}
    {build : k.Build} (hk : ∀ o, k ≠ .deposit o)
    (hmem : (t, ⟨.write (saveOf k build), .ok ()⟩) ∈ log) :
    ∃ call, k.hostFunction build = .invokeEscrow call ∧ call.OneShot := by
  cases k with
  | create p =>
      obtain ⟨-, admin, judge, resolver, token, reward, hhf⟩ := saved_create hj hmem
      exact ⟨_, hhf, trivial⟩
  | deposit o => exact absurd rfl (hk o)
  | start p =>
      obtain ⟨event, eid, -, -, hhf⟩ := saved_start hj hmem
      exact ⟨_, hhf, trivial⟩
  | release p =>
      obtain ⟨event, eid, judge, winners, -, -, hhf⟩ := saved_release hj hmem
      exact ⟨_, hhf, trivial⟩

/-- Outside the deposit lane the contract lets one transaction of a build through. -/
theorem one_effect_of_oneShot {w : World} {log : Log} (hj : Justified Permitted log)
    (hcons : Consistent w log) {k : OpKey} {build : k.Build} {tx tx' : Transaction}
    (hk : ∀ o, k ≠ .deposit o) (h : SentFor k build tx log) (h' : SentFor k build tx' log)
    (hc : w.Confirmed tx) (hc' : w.Confirmed tx') : tx = tx' := by
  obtain ⟨hhf, t, hmem⟩ := h.saved hcons
  obtain ⟨hhf', -⟩ := h'.saved hcons
  obtain ⟨call, hcall, hone⟩ := oneShot_of_saved hj hk hmem
  rw [hcall] at hhf hhf'
  exact hcons.ledger.single tx tx' call hc hc' hhf hhf' hone

/-! ## The deposit lane -/

/-- At most one of the two transactions ever succeeds. -/
def Exclusive (w : World) (tx tx' : Transaction) : Prop :=
  tx = tx' ∨ SameSequence tx tx' ∨ w.NeverSucceeds tx ∨ w.NeverSucceeds tx'

instance (w : World) (tx tx' : Transaction) : Decidable (Exclusive w tx tx') :=
  inferInstanceAs (Decidable (_ ∨ _ ∨ _ ∨ _))

/-- When the step sends a transaction for a deposit, every other transaction sent for that
deposit before excludes it. -/
def DepositsOnce (t : ServiceTransition own) : Prop :=
  ∀ n o build tx signatures r,
    t.label = .did n ⟨.sendTransaction (.envelope (.v1 tx signatures)), r⟩ →
    Verified (historyOf n t.pre.log) (.deposit o) build tx →
    ∀ build' tx', SentFor (.deposit o) build' tx' t.pre.log → Exclusive t.pre.world tx tx'

/-- All transactions sent for one deposit exclude each other. -/
def DepositsExclusive (w : World) (log : Log) : Prop :=
  ∀ o build build' tx tx', SentFor (.deposit o) build tx log →
    SentFor (.deposit o) build' tx' log → Exclusive w tx tx'

theorem Exclusive.symm {w : World} {tx tx' : Transaction} (h : Exclusive w tx tx') :
    Exclusive w tx' tx := by
  rcases h with rfl | hs | hn | hn
  · exact .inl rfl
  · exact .inr (.inl ⟨hs.1.symm, hs.2.symm⟩)
  · exact .inr (.inr (.inr hn))
  · exact .inr (.inr (.inl hn))

/-- Transactions that exclude each other are not both confirmed. -/
theorem Exclusive.confirmed {w : World} {tx tx' : Transaction} (h : Exclusive w tx tx')
    (hl : LedgerSound w) (hc : w.Confirmed tx) (hc' : w.Confirmed tx') : tx = tx' := by
  rcases h with rfl | hs | hn | hn
  · rfl
  · exact hl.confirmed_unique hc hc' hs
  · exact absurd hc hn.2
  · exact absurd hc' hn.2

theorem Exclusive.of_ledger {w w' : World} {tx tx' : Transaction} (h : Exclusive w tx tx')
    (hledger : w'.ledger = w.ledger) : Exclusive w' tx tx' := by
  rwa [Exclusive, World.NeverSucceeds, World.NeverSucceeds, World.Unused, World.Unused,
    World.Confirmed, World.Confirmed, hledger]

theorem Moved.exclusive {w w' : World} {event : EnvEvent own} (hm : Moved w event w')
    {tx tx' : Transaction} (h : Exclusive w tx tx') : Exclusive w' tx tx' := by
  rcases h with rfl | hs | hn | hn
  · exact .inl rfl
  · exact .inr (.inl hs)
  · exact .inr (.inr (.inl (hm.neverSucceeds hn)))
  · exact .inr (.inr (.inr (hm.neverSucceeds hn)))

/-- A guarded send keeps the transactions of a deposit exclusive. -/
theorem DepositsExclusive.cons {w : World} {log : Log} (h : DepositsExclusive w log) {t : ℕ}
    {d : Done}
    (hsend : ∀ o build tx signatures, d.op = .sendTransaction (.envelope (.v1 tx signatures)) →
      Verified (historyOf t log) (.deposit o) build tx →
      ∀ build' tx', SentFor (.deposit o) build' tx' log → Exclusive w tx tx') :
    DepositsExclusive w ((t, d) :: log) := by
  rintro o build build' tx tx' (⟨hsends, hv⟩ | hold) (⟨hsends', hv'⟩ | hold')
  · obtain ⟨signatures, heq⟩ := Op.sends_iff.mp hsends
    obtain ⟨signatures', heq'⟩ := Op.sends_iff.mp hsends'
    cases heq.symm.trans heq'
    exact .inl rfl
  · obtain ⟨signatures, heq⟩ := Op.sends_iff.mp hsends
    exact hsend o build tx signatures heq hv build' tx' hold'
  · obtain ⟨signatures', heq'⟩ := Op.sends_iff.mp hsends'
    exact (hsend o build' tx' signatures' heq' hv' build tx hold).symm
  · exact h o build build' tx tx' hold hold'

/-- In a run whose deposit submits are guarded, the transactions of each deposit exclude
each other. -/
theorem ServiceRun.depositsExclusive (hr : ServiceRun own deps chain clock tr c)
    (hC : ∀ t ∈ tr, DepositsOnce t) : DepositsExclusive c.world c.log := by
  refine hr.invariant (I := DepositsExclusive) hC (fun _ _ _ _ _ h => absurd h id) ?_ ?_
  · intro c t op r w p hcond hj hI hperm hp
    have hkept : DepositsExclusive w c.log := fun o build build' tx tx' h h' =>
      (hI o build build' tx tx' h h').of_ledger hp.network.2
    refine hkept.cons fun o build tx signatures heq hv build' tx' hsent => ?_
    simp only at heq
    subst heq
    exact (hcond t o build tx signatures r rfl hv build' tx' hsent).of_ledger hp.network.2
  · intro c event w hcond hj hI hm o build build' tx tx' h h'
    exact hm.exclusive (hI o build build' tx tx' h h')

/-- Of the transactions sent for a build at most one is ever confirmed: always outside the
deposit lane, and in it when every submit sends only what excludes the transactions sent for
the deposit before. -/
theorem single_effect (hr : ServiceRun own deps chain clock tr c) (k : OpKey) (build : k.Build)
    (tx tx' : Transaction) (h : SentFor k build tx c.log) (h' : SentFor k build tx' c.log)
    (hc : c.world.Confirmed tx) (hc' : c.world.Confirmed tx')
    (hguard : (∀ o, k ≠ .deposit o) ∨ ∀ t ∈ tr, DepositsOnce t) : tx = tx' := by
  rcases hguard with hk | hC
  · exact one_effect_of_oneShot hr.justified hr.consistent hk h h' hc hc'
  · cases k with
    | deposit o =>
        exact (hr.depositsExclusive hC o build build tx tx' h h').confirmed hr.consistent.ledger
          hc hc'
    | _ =>
        refine one_effect_of_oneShot hr.justified hr.consistent ?_ h h' hc hc'
        exact fun _ heq => nomatch heq

/-- The creation that was sent and confirmed is the only one of its build. -/
theorem single_effect_created :
    SentFor (.create Sample.eventID) Sample.createRow Sample.createTx Sample.live.2.log ∧
      ∀ tx, SentFor (.create Sample.eventID) Sample.createRow tx Sample.live.2.log →
        Sample.live.2.world.Confirmed tx → tx = Sample.createTx :=
  ⟨by decide +kernel, fun tx h hc => single_effect Sample.run_live (.create Sample.eventID) _ tx
    Sample.createTx h (by decide +kernel) hc (by decide +kernel) (.inl fun _ heq => nomatch heq)⟩

/-! ## Two envelopes around one deposit -/

namespace Sample

/-- Two submits read the pending row and send envelopes of different sequence numbers; both
transactions are confirmed. -/
def twice : List (ServiceTransition Escrow.Sample.escrow) × ServiceConfig :=
  after begun (depositBuild ++
    [depositSubmit 41, depositSubmit 42, .call 1 .ok, .call 2 .ok, .call 1 (.sent .pending ""),
     depositConfirmed 41, .call 2 (.sent .pending ""), depositConfirmed 42])

theorem run_twice : ServiceRun Escrow.Sample.escrow setup contract 0 twice.1 twice.2 :=
  run_after begun _ _

end Sample

/-- One build, two confirmed deposits. -/
theorem deposited_twice : ∃ tr c, ServiceRun Escrow.Sample.escrow Sample.setup Sample.contract 0 tr c ∧
    SentFor (.deposit Sample.opID) Sample.depositRow (Sample.deposit 41) c.log ∧
    SentFor (.deposit Sample.opID) Sample.depositRow (Sample.deposit 42) c.log ∧
    c.world.Confirmed (Sample.deposit 41) ∧ c.world.Confirmed (Sample.deposit 42) ∧
    Sample.deposit 41 ≠ Sample.deposit 42 :=
  ⟨_, _, Sample.run_twice, by decide +kernel, by decide +kernel, by decide +kernel,
    by decide +kernel, by decide +kernel⟩

end Service
