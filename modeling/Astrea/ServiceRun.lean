/-
# Runs of the service

The service from its deployment on: requests arrive in any number, their programs take
turns in any order, the network and the web application move in between.  What the log of
such a run says is true of the world (`Consistent`), and what a submit reports is what its
own calls found out (`ReportedSuccess.confirmed`).
-/
import Astrea.HandlersSafe
import Astrea.NetworkMoves

open Interleave

namespace Service

variable {own : Address} {deps : Deps}

/-! ## Runs -/

/-- The tables before anything is written. -/
def emptyTables : DB where
  events := ∅
  judges := []
  prizes := ∅
  teams := ∅
  teamMembers := ∅
  payouts := []
  opLog := fun _ => none

/-- The service is deployed next to a contract in any state. -/
def deployment (chain : Escrow.State) (clock : Time) : World := ⟨emptyTables, chain, [], [], clock⟩

/-- A configuration of the service. -/
abbrev ServiceConfig : Type := Interleave.Config World Op Op.Res Response

/-- What a step of a run is. -/
abbrev ServiceLabel (own : Address) : Type :=
  Interleave.Label Op Op.Res Request (EnvEvent own)

/-- One step of the service and its world. -/
abbrev ServiceStep (own : Address) (deps : Deps) :
    ServiceConfig → ServiceLabel own → ServiceConfig → Prop :=
  Interleave.Step (serve deps) World.perform World.environment

abbrev ServiceTransition (own : Address) : Type := Transition ServiceConfig (ServiceLabel own)

/-- A run of the service from its deployment. -/
abbrev ServiceRun (own : Address) (deps : Deps) (chain : Escrow.State) (clock : Time)
    (tr : List (ServiceTransition own)) (c : ServiceConfig) : Prop :=
  Run (ServiceStep own deps) (start (deployment chain clock)) tr c

variable {chain : Escrow.State} {clock : Time} {tr : List (ServiceTransition own)}
  {c : ServiceConfig}

/-- The invariant rule of the service: a property of the world and the log is kept by every
permitted call and by every move of the environment. -/
theorem ServiceRun.invariant {C : ServiceTransition own → Prop} {I : World → Log → Prop}
    (hr : ServiceRun own deps chain clock tr c) (hC : ∀ t ∈ tr, C t)
    (h₀ : I (deployment chain clock) [])
    (hcall : ∀ (c : ServiceConfig) t op r w p,
      C ⟨c, .did t ⟨op, r⟩, c.advance t ⟨op, r⟩ w p⟩ → Justified Permitted c.log →
      I c.world c.log → Permitted (historyOf t c.log) op → Performed c.world op r w →
      I w ((t, ⟨op, r⟩) :: c.log))
    (henv : ∀ (c : ServiceConfig) event w, C ⟨c, .env event, c.moved w⟩ →
      Justified Permitted c.log → I c.world c.log → Moved c.world event w → I w c.log) :
    I c.world c.log :=
  invariant_of_calls (serve_safe deps) hr hC h₀
    (fun c t op _ r w p hcond hj hI hop hperf =>
      hcall c t op r w p hcond hj hI hop (perform_eq_some hperf))
    (fun c event w hcond hj hI hmove => henv c event w hcond hj hI (environment_eq_some hmove))

/-- Every call of a run was permitted. -/
theorem ServiceRun.justified (hr : ServiceRun own deps chain clock tr c) :
    Justified Permitted c.log := (obeys_of_run (serve_safe deps) hr).justified

/-- The next call of a run is permitted. -/
theorem ServiceRun.permitted (hr : ServiceRun own deps chain clock tr c) {c' : ServiceConfig}
    {t : ℕ} {d : Done} (hs : ServiceStep own deps c (.did t d) c') :
    Permitted (historyOf t c.log) d.op := by
  cases hs with
  | did thread performed => exact (obeys_of_run (serve_safe deps) hr).permitted thread

/-! ## Saves -/

/-- The save of a build under a key. -/
def saveOf : (k : OpKey) → k.Build → StoreWrite
  | .create p, build => .saveCreateBuild p build
  | .deposit o, build => .saveDepositBuild o build
  | .start p, build => .saveStartBuild p build
  | .release p, build => .saveReleaseBuild p build

/-- A build was saved under `k`. -/
def Saves (k : OpKey) (d : Done) : Prop := ∃ build, d = ⟨.write (saveOf k build), .ok ()⟩

/-- The last build saved under `k`. -/
def LastSaved (log : Log) (k : OpKey) (build : k.Build) : Prop :=
  ∃ t, Newest (Saves k) log t ⟨.write (saveOf k build), .ok ()⟩

/-- A save tells its build. -/
theorem saveOf_injective {k : OpKey} {b b' : k.Build} (h : saveOf k b = saveOf k b') : b = b' := by
  cases k <;> cases h <;> rfl

theorem key_saveOf (k : OpKey) (b : k.Build) : (saveOf k b).key = k := by
  cases k <;> rfl

/-- There is one last build. -/
theorem LastSaved.unique {log : Log} {k : OpKey} {b b' : k.Build} (h : LastSaved log k b)
    (h' : LastSaved log k b') : b = b' := by
  obtain ⟨t, ht⟩ := h
  obtain ⟨t', ht'⟩ := h'
  exact saveOf_injective (Op.write.inj (Interleave.Done.mk.inj (ht.unique ht').2).1)

/-- A write that is no save under `k` leaves the last one. -/
theorem LastSaved.cons {log : Log} {k : OpKey} {b : k.Build} (h : LastSaved log k b) {t : ℕ}
    {d : Done} (hd : ¬ Saves k d) : LastSaved ((t, d) :: log) k b := by
  obtain ⟨t', ht'⟩ := h
  exact ⟨t', ht'.cons hd⟩

/-- A write that is no save under `k`. -/
theorem not_saves {k : OpKey} {x : StoreWrite} {r : Except StoreError Unit}
    (h : ∀ build, x ≠ saveOf k build) : ¬ Saves k ⟨.write x, r⟩ := by
  rintro ⟨build, heq⟩
  exact h build (Op.write.inj (Interleave.Done.mk.inj heq).1)

/-- A save that failed saves nothing. -/
theorem not_saves_error {k : OpKey} {x : StoreWrite} {e : StoreError} :
    ¬ Saves k ⟨.write x, .error e⟩ := by
  rintro ⟨build, heq⟩
  cases heq

theorem not_saves_of_not_isWrite {k : OpKey} {op : Op} {r : op.Res} (h : ¬ op.IsWrite) :
    ¬ Saves k ⟨op, r⟩ := by
  rintro ⟨build, heq⟩
  exact h ((Interleave.Done.mk.inj heq).1 ▸ trivial)

/-- The build of `k`'s row is the same in two states of the tables. -/
def SameBuild (db db' : DB) (k : OpKey) : Prop :=
  (db'.opLog k).map (·.build) = (db.opLog k).map (·.build)

/-- Two rows with one build have the same build. -/
theorem sameBuild_of_rows {db db' : DB} {k : OpKey} {row row' : OpRow k}
    (hrow : db.opLog k = some row) (hrow' : db'.opLog k = some row')
    (hbuild : row'.build = row.build) : SameBuild db db' k := by
  rw [SameBuild, hrow, hrow', Option.map_some, Option.map_some, hbuild]

theorem SameBuild.row {db db' : DB} {k : OpKey} (h : SameBuild db db' k) {row : OpRow k}
    (hrow : db.opLog k = some row) : ∃ row', db'.opLog k = some row' ∧ row'.build = row.build := by
  rw [SameBuild, hrow, Option.map_some] at h
  exact Option.map_eq_some_iff.mp h

theorem SameBuild.symm {db db' : DB} {k : OpKey} (h : SameBuild db db' k) :
    SameBuild db' db k := Eq.symm h

/-- A successful write either saves a build under `k`, or leaves the build of `k`'s row. -/
theorem StoreWrite.run_build {db db' : DB} {x : StoreWrite} (h : x.run db = .ok db') (k : OpKey) :
    (∃ build, x = saveOf k build ∧ db'.opLog k = some ⟨build, .pending, none⟩) ∨
      (∀ build, x ≠ saveOf k build) ∧ SameBuild db db' k := by
  obtain ⟨hother, htakes⟩ := StoreWrite.run_opLog h
  by_cases hk : k = x.key
  · subst hk
    cases x with
    | saveCreateBuild p b => exact .inl ⟨b, rfl, htakes.2⟩
    | saveDepositBuild o b => exact .inl ⟨b, rfl, htakes.2⟩
    | saveStartBuild p b => exact .inl ⟨b, rfl, htakes.2⟩
    | saveReleaseBuild p b => exact .inl ⟨b, rfl, htakes.2⟩
    | markCreateSucceeded p eid t =>
        obtain ⟨row, hrow, -, hnew⟩ := htakes
        exact .inr ⟨fun _ => nofun, sameBuild_of_rows hrow hnew rfl⟩
    | markDepositSucceeded o =>
        obtain ⟨row, hrow, -, hnew⟩ := htakes
        exact .inr ⟨fun _ => nofun, sameBuild_of_rows hrow hnew rfl⟩
    | markStartSucceeded p hf t =>
        obtain ⟨row, hrow, -, hnew⟩ := htakes
        exact .inr ⟨fun _ => nofun, sameBuild_of_rows hrow hnew rfl⟩
    | markReleaseSucceeded p hash t =>
        obtain ⟨row, hrow, -, hnew⟩ := htakes
        exact .inr ⟨fun _ => nofun, sameBuild_of_rows hrow hnew rfl⟩
    | markFailed k reason =>
        obtain ⟨row, hrow, hnew⟩ := htakes
        refine .inr ⟨fun b heq => ?_, sameBuild_of_rows hrow hnew rfl⟩
        cases k <;> exact nomatch heq
  · refine .inr ⟨fun b heq => hk ?_, by rw [SameBuild, hother k hk]⟩
    rw [heq, key_saveOf]

/-! ## What the log says is true -/

/-- The log agrees with the world: a row holds the last build saved under its key and a read
found it so, a reported outcome is on the ledger, an answered hash is the transaction's, and
an event id was drawn once. -/
structure Consistent (w : World) (log : Log) : Prop where
  ledger : LedgerSound w
  row : ∀ k row, w.db.opLog k = some row → LastSaved log k row.build
  loaded : ∀ t k op, (t, ⟨.loadOp k, .ok op⟩) ∈ log →
    ∃ t', (t', ⟨.write (saveOf k op.build), .ok ()⟩) ∈ log
  reported : ∀ t hash, (t, ⟨.getTransaction hash, .ok .success⟩) ∈ log → w.Confirmed hash
  failed : ∀ t hash xdr, (t, ⟨.getTransaction hash, .ok (.failed xdr)⟩) ∈ log →
    w.FailedOnChain hash
  hash : ∀ t signedXDR response, (t, ⟨.sendTransaction signedXDR, .ok response⟩) ∈ log →
    ∃ signatures, signedXDR = .envelope (.v1 response.hash signatures)
  drawn : ∀ t id, (t, ⟨.newEventID, .ok id⟩) ∈ log → id ∈ w.issued
  drawnOnce : ∀ t t' id, (t, ⟨.newEventID, .ok id⟩) ∈ log → (t', ⟨.newEventID, .ok id⟩) ∈ log →
    t = t'

theorem consistent_deployment : Consistent (deployment chain clock) [] where
  ledger := ⟨fun _ h => absurd h List.not_mem_nil, fun _ _ h => absurd h List.not_mem_nil,
    fun _ _ _ h => absurd h List.not_mem_nil⟩
  row := fun _ _ h => nomatch h
  loaded := fun _ _ _ h => absurd h List.not_mem_nil
  reported := fun _ _ h => absurd h List.not_mem_nil
  failed := fun _ _ _ h => absurd h List.not_mem_nil
  hash := fun _ _ _ h => absurd h List.not_mem_nil
  drawn := fun _ _ h => absurd h List.not_mem_nil
  drawnOnce := fun _ _ _ h => absurd h List.not_mem_nil

section Step

variable {w w' : World} {log : Log} {t : ℕ} {op : Op} {r : op.Res}

/-- The rows after a call. -/
theorem Performed.row (hp : Performed w op r w') (h : Consistent w log) (k : OpKey)
    (row : OpRow k) (hrow : w'.db.opLog k = some row) :
    LastSaved ((t, ⟨op, r⟩) :: log) k row.build := by
  by_cases hop : op.IsWrite
  · cases hp with
    | wrote run =>
        rcases StoreWrite.run_build run k with ⟨build, rfl, hnew⟩ | ⟨hno, hsame⟩
        · obtain rfl := Option.some_inj.mp (hnew.symm.trans hrow)
          exact ⟨t, newest_cons_self ⟨build, rfl⟩⟩
        · obtain ⟨old, hold, hbuild⟩ := hsame.symm.row hrow
          rw [← hbuild]
          exact (h.row k old hold).cons (not_saves hno)
    | refused => exact (h.row k row hrow).cons not_saves_error
    | _ => exact absurd hop id
  · rw [hp.db hop] at hrow
    exact (h.row k row hrow).cons (not_saves_of_not_isWrite hop)

/-- A call keeps the log and the world in agreement. -/
theorem Performed.consistent (hp : Performed w op r w') (h : Consistent w log) :
    Consistent w' ((t, ⟨op, r⟩) :: log) where
  ledger := by
    -- no call of a request touches the chain or the ledger
    obtain ⟨hchain, hledger⟩ := hp.network
    refine ⟨?_, ?_, ?_⟩
    · rw [hledger]
      exact h.ledger.once
    · intro tx call hc hhf
      rw [hchain]
      exact h.ledger.effected tx call (by rwa [World.Confirmed, hledger] at hc) hhf
    · intro tx tx' call hc hc'
      rw [World.Confirmed, hledger] at hc hc'
      exact h.ledger.single tx tx' call hc hc'
  row := hp.row h
  loaded := by
    intro t' k op' hmem
    rcases List.mem_cons.mp hmem with heq | hold
    · cases heq
      cases hp with
      | loadedOp stored =>
          obtain ⟨lastError, hrow⟩ := loadOp_eq_ok.mp (stored _ rfl)
          obtain ⟨t₁, hnewest⟩ := h.row _ _ hrow
          exact ⟨t₁, List.mem_cons_of_mem _ hnewest.mem⟩
    · obtain ⟨t₁, hsaved⟩ := h.loaded t' k op' hold
      exact ⟨t₁, List.mem_cons_of_mem _ hsaved⟩
  reported := by
    intro t' hash hmem
    rw [World.Confirmed, hp.network.2]
    rcases List.mem_cons.mp hmem with heq | hold
    · cases heq
      cases hp with
      | found reported => exact reported
    · exact h.reported t' hash hold
  failed := by
    intro t' hash xdr hmem
    rw [World.FailedOnChain, hp.network.2]
    rcases List.mem_cons.mp hmem with heq | hold
    · cases heq
      cases hp with
      | found reported => exact reported
    · exact h.failed t' hash xdr hold
  hash := by
    intro t' signedXDR response hmem
    rcases List.mem_cons.mp hmem with heq | hold
    · cases heq
      cases hp with
      | sent => exact ⟨_, rfl⟩
    · exact h.hash t' signedXDR response hold
  drawn := by
    intro t' id hmem
    rcases List.mem_cons.mp hmem with heq | hold
    · cases heq
      cases hp with
      | drew fresh => exact List.mem_cons_self
    · exact hp.issued id (h.drawn t' id hold)
  drawnOnce := by
    intro t₁ t₂ id h₁ h₂
    -- an id drawn now was not drawn before
    rcases List.mem_cons.mp h₁ with heq | hold
    · cases heq
      rcases List.mem_cons.mp h₂ with heq' | hold'
      · cases heq'
        rfl
      · cases hp with
        | drew fresh => exact absurd (h.drawn t₂ id hold') fresh
    · rcases List.mem_cons.mp h₂ with heq' | hold'
      · cases heq'
        cases hp with
        | drew fresh => exact absurd (h.drawn t₁ id hold) fresh
      · exact h.drawnOnce t₁ t₂ id hold hold'

/-- A move of the environment keeps them in agreement. -/
theorem Moved.consistent {event : EnvEvent own} (hm : Moved w event w') (h : Consistent w log) :
    Consistent w' log where
  ledger := hm.ledgerSound h.ledger
  row := by
    intro k row hrow
    rcases hm.db with heq | ⟨e, hrun⟩
    · rw [heq] at hrow
      exact h.row k row hrow
    · rw [(WebEvent.run_tables hrun).1] at hrow
      exact h.row k row hrow
  loaded := h.loaded
  reported := fun t hash hmem => hm.mem_ledger (h.reported t hash hmem)
  failed := fun t hash xdr hmem => hm.mem_ledger (h.failed t hash xdr hmem)
  hash := h.hash
  drawn := fun t id hmem => by
    rw [hm.issued]
    exact h.drawn t id hmem
  drawnOnce := h.drawnOnce

end Step

/-- In every run the log agrees with the world. -/
theorem ServiceRun.consistent (hr : ServiceRun own deps chain clock tr c) :
    Consistent c.world c.log :=
  hr.invariant (C := fun _ => True) (fun _ _ => trivial) consistent_deployment
    (fun _ _ _ _ _ _ _ _ hI _ hp => hp.consistent hI) fun _ _ _ _ _ hI hm => hm.consistent hI

/-! ## What a submit reports -/

section Reports

variable {w : World} {log : Log} {t : ℕ} {k : OpKey} {build : k.Build} {hash : TxHash}

/-- What a request was permitted to write it wrote on its grounds. -/
theorem grounds_of_mem (hj : Justified Permitted log) {x : StoreWrite}
    {r : Except StoreError Unit} (hmem : (t, ⟨.write x, r⟩) ∈ log) :
    ∃ past, past ⊆ log ∧ Grounds (historyOf t past) x := by
  obtain ⟨past, hsub, hperm⟩ := hj.of_mem hmem
  exact ⟨past, hsub, hperm.2⟩

/-- A request writes once. -/
theorem write_unique (hj : Justified Permitted log) {x x' : StoreWrite}
    {r r' : Except StoreError Unit} (hmem : (t, ⟨.write x, r⟩) ∈ log)
    (hmem' : (t, ⟨.write x', r'⟩) ∈ log) : x = x' := by
  have heq := hj.once (P := Op.IsWrite)
    (fun h op hop hw d hd => by
      cases op with
      | write x => exact hop.1 d hd
      | _ => exact absurd hw id)
    hmem hmem' trivial trivial
  exact Op.write.inj (Interleave.Done.mk.inj heq).1

/-- A transaction reported successful is on the ledger and carries the build that was sent. -/
theorem ReportedSuccess.confirmed (h : Consistent w log)
    (hr : ReportedSuccess (historyOf t log) k build hash) :
    w.Confirmed hash ∧ hash.hostFunction = some (k.hostFunction build) := by
  obtain ⟨response, ⟨tx, signatures, hv, hsent⟩, -, rfl, hfound⟩ := hr
  obtain ⟨signatures', hx⟩ := h.hash t _ response (mem_historyOf.mp hsent)
  cases hx
  exact ⟨h.reported t _ (mem_historyOf.mp hfound), hv.hostFunction⟩

/-- The build a submit works on was saved. -/
theorem Verified.saved (h : Consistent w log) {tx : Transaction}
    (hv : Verified (historyOf t log) k build tx) :
    ∃ t', (t', ⟨.write (saveOf k build), .ok ()⟩) ∈ log :=
  h.loaded t k _ (mem_historyOf.mp hv.loaded)

/-- What is reported was saved before. -/
theorem ReportedSuccess.saved (h : Consistent w log)
    (hr : ReportedSuccess (historyOf t log) k build hash) :
    ∃ t', (t', ⟨.write (saveOf k build), .ok ()⟩) ∈ log := by
  obtain ⟨response, ⟨tx, signatures, hv, -⟩, -⟩ := hr
  exact hv.saved h

/-- A create build carries an event id its request has drawn. -/
theorem saved_create (hj : Justified Permitted log) {p : PathID} {b : CreateBuild}
    {r : Except StoreError Unit} (hmem : (t, ⟨.write (.saveCreateBuild p b), r⟩) ∈ log) :
    (t, ⟨.newEventID, .ok b.escrowEventID⟩) ∈ log ∧
      ∃ admin judge resolver token reward, b.hostFunctionXDR =
        createEventHostFunction admin judge resolver token reward b.escrowEventID := by
  obtain ⟨past, hsub, hdrawn, hhf⟩ := grounds_of_mem hj hmem
  exact ⟨hsub (mem_historyOf.mp hdrawn), hhf⟩

/-- No two create builds carry one event id. -/
theorem saved_create_unique (hj : Justified Permitted log) (h : Consistent w log) {t' : ℕ}
    {p p' : PathID} {b b' : CreateBuild} {r r' : Except StoreError Unit}
    (hmem : (t, ⟨.write (.saveCreateBuild p b), r⟩) ∈ log)
    (hmem' : (t', ⟨.write (.saveCreateBuild p' b'), r'⟩) ∈ log)
    (heid : b.escrowEventID = b'.escrowEventID) : p = p' ∧ b = b' := by
  have hdrawn := (saved_create hj hmem).1
  rw [heid] at hdrawn
  obtain rfl := h.drawnOnce t t' _ hdrawn (saved_create hj hmem').1
  exact StoreWrite.saveCreateBuild.inj (write_unique hj hmem hmem')

/-- A go-live build starts the event that was read for it. -/
theorem saved_start (hj : Justified Permitted log) {p : PathID} {b : StartBuild}
    {r : Except StoreError Unit} (hmem : (t, ⟨.write (.saveStartBuild p b), r⟩) ∈ log) :
    ∃ event eid, (t, ⟨.loadEventForStart p, .ok event⟩) ∈ log ∧
      event.escrowEventID = some eid ∧ b.hostFunctionXDR =
        setEventInProgressHostFunction event.organizerWalletAddress eid
          b.judgingDeadline.toUInt64 := by
  obtain ⟨past, hsub, event, eid, hloaded, heid, hhf⟩ := grounds_of_mem hj hmem
  exact ⟨event, eid, hsub (mem_historyOf.mp hloaded), heid, hhf⟩

/-- A release build pays out the event that was read for it. -/
theorem saved_release (hj : Justified Permitted log) {p : PathID} {b : ReleaseBuild}
    {r : Except StoreError Unit} (hmem : (t, ⟨.write (.saveReleaseBuild p b), r⟩) ∈ log) :
    ∃ event eid judge winners, (t, ⟨.loadEventForRelease p, .ok event⟩) ∈ log ∧
      event.escrowEventID = some eid ∧
      b.hostFunctionXDR = .invokeEscrow (.releaseReward judge eid winners) := by
  obtain ⟨past, hsub, event, eid, judge, winners, hloaded, heid, hhf⟩ := grounds_of_mem hj hmem
  exact ⟨event, eid, judge, winners, hsub (mem_historyOf.mp hloaded), heid, hhf⟩

end Reports

/-! ## What was sent for a build -/

instance (h : List Done) (k : OpKey) (build : k.Build) (tx : Transaction) :
    Decidable (Verified h k build tx) :=
  decidable_of_iff ((⟨.loadOp k, .ok ⟨.pending, build⟩⟩ : Done) ∈ h ∧
      tx.sourceAccount.getAddress = .plain (k.sourceAccount build) ∧
      tx.hostFunction = some (k.hostFunction build))
    ⟨fun h => ⟨h.1, h.2.1, h.2.2⟩, fun h => ⟨h.loaded, h.source, h.hostFunction⟩⟩

/-- The call sends an envelope of `tx`. -/
def Op.sends (tx : Transaction) : Op → Bool
  | .sendTransaction (.envelope (.v1 tx' _)) => tx' = tx
  | _ => false

/-- A submit that had verified the envelope of `tx` for `build` sent it. -/
def SentFor (k : OpKey) (build : k.Build) (tx : Transaction) : Log → Prop
  | [] => False
  | (t, d) :: log => (d.op.sends tx ∧ Verified (historyOf t log) k build tx) ∨ SentFor k build tx log

instance (k : OpKey) (build : k.Build) (tx : Transaction) :
    (log : Log) → Decidable (SentFor k build tx log)
  | [] => inferInstanceAs (Decidable False)
  | (_, d) :: log =>
      have : Decidable (SentFor k build tx log) := instDecidableSentFor k build tx log
      inferInstanceAs (Decidable ((d.op.sends tx ∧ _) ∨ SentFor k build tx log))

/-- A call sends a transaction in an envelope with any signatures. -/
theorem Op.sends_iff {tx : Transaction} {op : Op} :
    op.sends tx ↔ ∃ signatures, op = .sendTransaction (.envelope (.v1 tx signatures)) := by
  constructor
  · intro h
    unfold Op.sends at h
    split at h
    · exact ⟨_, by rw [of_decide_eq_true h]⟩
    · exact nomatch h
  · rintro ⟨signatures, rfl⟩
    exact decide_eq_true rfl

section SentFor

variable {w : World} {log : Log} {k : OpKey} {build : k.Build} {tx : Transaction}

/-- What was sent for a build was verified for it. -/
theorem SentFor.verified (h : SentFor k build tx log) :
    ∃ t, Verified (historyOf t log) k build tx := by
  induction log with
  | nil => exact absurd h id
  | cons e log ih =>
      obtain ⟨t, d⟩ := e
      have hmono : ∀ {t'}, Verified (historyOf t' log) k build tx →
          Verified (historyOf t' ((t, d) :: log)) k build tx := fun hv =>
        hv.mono fun d' hd' => mem_historyOf.mpr (List.mem_cons_of_mem _ (mem_historyOf.mp hd'))
      rcases h with ⟨-, hv⟩ | hold
      · exact ⟨t, hmono hv⟩
      · obtain ⟨t', hv⟩ := ih hold
        exact ⟨t', hmono hv⟩

/-- A call that sends nothing sends nothing for a build. -/
theorem SentFor.of_cons {t : ℕ} {d : Done} (h : SentFor k build tx ((t, d) :: log))
    (hd : ¬ d.op.IsSend) : SentFor k build tx log := by
  rcases h with ⟨hsends, -⟩ | hold
  · obtain ⟨signatures, heq⟩ := Op.sends_iff.mp hsends
    rw [heq] at hd
    exact absurd trivial hd
  · exact hold

/-- What was sent for a build carries its host function, and the build was saved. -/
theorem SentFor.saved (hc : Consistent w log) (h : SentFor k build tx log) :
    tx.hostFunction = some (k.hostFunction build) ∧
      ∃ t, (t, ⟨.write (saveOf k build), .ok ()⟩) ∈ log := by
  obtain ⟨t, hv⟩ := h.verified
  exact ⟨hv.hostFunction, hv.saved hc⟩

end SentFor

/-! ## A sample service -/

namespace Sample

/-- The moves of a script of the sample service. -/
abbrev Script : Type := List (Move Request Choice (EnvEvent Escrow.Sample.escrow))

/-- The contract's governance set up, nothing deposited. -/
def escrowScript : List (Escrow.Env Escrow.Sample.escrow × Escrow.Call) :=
  [(Escrow.Sample.env 1 [Escrow.Sample.emergencyAdmin],
      .initializeEmergencyAdmin Escrow.Sample.emergencyAdmin),
   (Escrow.Sample.env 2 [Escrow.Sample.emergencyAdmin],
      .initializeTreasury Escrow.Sample.emergencyAdmin Escrow.Sample.treasury)]

def contract : Escrow.State :=
  Escrow.okOf (Escrow.play (Escrow.genesis Escrow.Sample.balances) escrowScript)
    (by decide +kernel)

def setup : Deps := ⟨"token", Escrow.Sample.token, ⟨0, 0, 0, 0⟩, true⟩

/-- An authenticated request of the account with this key. -/
def request (wallet : BitVec 256) (route : Route) :
    Move Request Choice (EnvEvent Escrow.Sample.escrow) :=
  .request ⟨"Bearer token", some wallet, route⟩

/-- The service before the first request. -/
def begun : ServiceConfig := start (deployment contract 0)

/-- The transitions and the outcome of a script. -/
def after (c : ServiceConfig) (script : Script)
    (h : (play (serve setup) World.perform World.environment c script).isSome = true := by
      decide +kernel) :
    List (ServiceTransition Escrow.Sample.escrow) × ServiceConfig :=
  played (serve setup) World.perform World.environment c script h

/-- A script that plays from a configuration is a run from it. -/
theorem run_after (c : ServiceConfig) (script : Script)
    (h : (play (serve setup) World.perform World.environment c script).isSome = true) :
    Run (ServiceStep Escrow.Sample.escrow setup) c (after c script h).1 (after c script h).2 :=
  run_played (serve setup) World.perform World.environment h

/-- The calls of `BuildUnsigned`: two account reads around a simulation. -/
def buildUnsigned (t : ℕ) : Script :=
  [.call t (.account 40), .call t .ok, .call t (.simulation ⟨"", some 0, some [], none, 0⟩),
   .call t (.account 40), .call t .ok]

/-- A transaction of the account with this key around one call. -/
def invoke (key : BitVec 256) (seqNum : Int64) (hf : HostFunction) : Transaction where
  sourceAccount := .ed25519 key
  seqNum := seqNum
  fee := 100
  timeBounds := none
  operations := [⟨none, .invokeHostFunction hf []⟩]
  ext := 0

/-- Signed by its wallet. -/
def signed (tx : Transaction) : SignedXDR := .envelope (.v1 tx [1])

def opID : OpID := ⟨"00000000000000000000000000000001", by decide⟩

/-- The build of the organizer's deposit of 100 stroops. -/
def depositRow : DepositBuild where
  hostFunctionXDR := depositFundsHostFunction Escrow.Sample.organizer Escrow.Sample.token 100
  sourceAccount := Escrow.Sample.organizer
  amount := 100

/-- The deposit's transaction under a sequence number. -/
def deposit (seqNum : Int64) : Transaction := invoke 3 seqNum depositRow.hostFunctionXDR

/-- Request 0 builds the deposit. -/
def depositBuild : Script :=
  request 3 (.depositBuild (some 3) (some (bytes "0.00001"))) :: buildUnsigned 0 ++
    [.call 0 (.opID opID), .call 0 .ok]

/-- A submit of the deposit under a sequence number. -/
def depositSubmit (seqNum : Int64) : Move Request Choice (EnvEvent Escrow.Sample.escrow) :=
  request 3 (.depositSubmit (some 3) (some (opID.text, signed (deposit seqNum))))

/-- The ledger applies the deposit. -/
def depositConfirmed (seqNum : Int64) : Move Request Choice (EnvEvent Escrow.Sample.escrow) :=
  .event (.confirm (deposit seqNum) (Escrow.Sample.env 3 [Escrow.Sample.organizer]))

def eventText : String := "00000000-0000-0000-0000-00000000000a"

def eventID : PathID := ⟨eventText, by decide⟩

def eid : EventID := 7

/-- An event with one prize of 600 stroops, and the organizer's deposit on the chain. -/
def drafted : Script :=
  [.event (.call (Escrow.Sample.env 3 [Escrow.Sample.organizer])
      (.depositFunds Escrow.Sample.organizer Escrow.Sample.token (.ofNat 1000))),
   .event (.web (.createDraftEvent eventText Escrow.Sample.organizer Escrow.Sample.judge
      (100 * second) [("prize", 1, bytes "0.00006")]))]

/-- The calls of a read-only simulation that returns `v`. -/
def simulateRead (t : ℕ) (v : ScVal) : Script :=
  [.call t (.account 40), .call t .ok,
   .call t (.simulation ⟨"", some 0, some [], some v, 0⟩)]

def createRow : CreateBuild where
  hostFunctionXDR := createEventHostFunction Escrow.Sample.organizer Escrow.Sample.judge
    Escrow.Sample.resolver Escrow.Sample.token 600 eid
  sourceAccount := Escrow.Sample.organizer
  escrowEventID := eid
  reward := 600

def createTx : Transaction := invoke 3 41 createRow.hostFunctionXDR

/-- Request 0 builds the creation and request 1 submits it. -/
def created : Script :=
  [request 3 (.createBuild eventText), .call 0 .ok, .call 0 (.eventID eid)] ++
    simulateRead 0 (.address Escrow.Sample.resolver) ++ buildUnsigned 0 ++
  [.call 0 .ok, request 3 (.createSubmit eventText (some (signed createTx))), .call 1 .ok,
   .call 1 .ok, .call 1 (.sent .pending ""),
   .event (.confirm createTx (Escrow.Sample.env 4 [Escrow.Sample.organizer])),
   .call 1 .ok, .call 1 (.found .success), .call 1 .ok, .call 1 .ok]

def startTx : Transaction :=
  invoke 3 42 (setEventInProgressHostFunction Escrow.Sample.organizer eid 100)

/-- Request 2 builds the go-live and request 3 submits it. -/
def started : Script :=
  [request 3 (.startBuild eventText), .call 2 .ok, .call 2 .ok] ++
    simulateRead 2 (.i128 (.ofNat 3)) ++ simulateRead 2 (.i128 (.ofNat 400)) ++ buildUnsigned 2 ++
  [.call 2 .ok, request 3 (.startSubmit eventText (some (signed startTx))), .call 3 .ok,
   .call 3 .ok, .call 3 (.sent .pending ""),
   .event (.confirm startTx (Escrow.Sample.env 5 [Escrow.Sample.organizer])),
   .call 3 .ok, .call 3 (.found .success), .call 3 .ok, .call 3 .ok]

def live : List (ServiceTransition Escrow.Sample.escrow) × ServiceConfig :=
  after begun (drafted ++ created ++ started)

theorem run_live : ServiceRun Escrow.Sample.escrow setup contract 0 live.1 live.2 :=
  run_after begun _ _

end Sample

end Service
