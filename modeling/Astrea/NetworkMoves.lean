/-
# What calls and moves do to the world

The inversions of `World.perform` and `World.environment`: what each call can answer and
change, and what each move of the environment can.  After them the facts about the ledger
that need nothing else: every sequence number is used once, and a call of the contract that
can succeed once is confirmed in at most one transaction.
-/
import Astrea.Network
import Astrea.EscrowOnce

namespace Service

/-! ## Calls -/

/-- What a call answers and what it makes of the world. -/
inductive Performed (w : World) : (op : Op) → op.Res → World → Prop
  | wrote {x : StoreWrite} {db : DB} (run : x.run w.db = .ok db) :
      Performed w (.write x) (.ok ()) { w with db := db }
  | refused {x : StoreWrite} {e : StoreError} : Performed w (.write x) (.error e) w
  | loadedOp {k : OpKey} {r : Except StoreError (StoredOp k)}
      (stored : ∀ op, r = .ok op → loadOp w.db k = .ok op) : Performed w (.loadOp k) r w
  | loadedForCreate {p : PathID} {r : Except StoreError EventForCreate}
      (stored : ∀ ev, r = .ok ev → loadEventForCreate w.db p = .ok ev) :
      Performed w (.loadEventForCreate p) r w
  | loadedForStart {p : PathID} {r : Except StoreError EventForStart}
      (stored : ∀ ev, r = .ok ev → loadEventForStart w.db p = .ok ev) :
      Performed w (.loadEventForStart p) r w
  | loadedForRelease {p : PathID} {r : Except StoreError EventForRelease}
      (stored : ∀ ev, r = .ok ev → loadEventForRelease w.db p = .ok ev) :
      Performed w (.loadEventForRelease p) r w
  | sent {tx : Transaction} {signatures : List ℕ} {status : SendStatus} {xdr : String} :
      Performed w (.sendTransaction (.envelope (.v1 tx signatures))) (.ok ⟨tx, status, xdr⟩) w
  | unsent {signedXDR : SignedXDR} {e : String} :
      Performed w (.sendTransaction signedXDR) (.error e) w
  | found {hash : TxHash} {r : GetResponse} (reported : w.MayReport hash r) :
      Performed w (.getTransaction hash) (.ok r) w
  | notFound {hash : TxHash} {e : String} : Performed w (.getTransaction hash) (.error e) w
  | drew {id : EventID} (fresh : id ∉ w.issued) :
      Performed w .newEventID (.ok id) { w with issued := id :: w.issued }
  | undrawn {e : String} : Performed w .newEventID (.error e) w
  | account {a : Address} {r : Except String Int64} : Performed w (.loadAccount a) r w
  | simulated {tx : Transaction} {r : Except String Simulation} :
      Performed w (.simulateTransaction tx) r w
  | trustlines {ps : List TrustlinePayout} {r : Except TrustlineError Unit} :
      Performed w (.requireTrustlines ps) r w
  | opID {r : Except String OpID} : Performed w .newOpID r w
  | now : Performed w .now w.clock w
  | slept {interval elapsed : Time} :
      Performed w (.sleep interval) () { w with clock := w.clock + elapsed }

/-- What the world performs is a move of the network or the store. -/
theorem perform_eq_some {w w' : World} {op : Op} {choice : Choice} {r : op.Res}
    (h : w.perform op choice = some (r, w')) : Performed w op r w' := by
  cases op with
  | loadEventForCreate p =>
      obtain ⟨rfl, hr | ⟨e, hr⟩⟩ := read_eq_some (f := (loadEventForCreate · p)) h
      · exact .loadedForCreate fun ev hev => hr.symm.trans hev
      · exact .loadedForCreate fun ev hev => nomatch hr.symm.trans hev
  | loadEventForStart p =>
      obtain ⟨rfl, hr | ⟨e, hr⟩⟩ := read_eq_some (f := (loadEventForStart · p)) h
      · exact .loadedForStart fun ev hev => hr.symm.trans hev
      · exact .loadedForStart fun ev hev => nomatch hr.symm.trans hev
  | loadEventForRelease p =>
      obtain ⟨rfl, hr | ⟨e, hr⟩⟩ := read_eq_some (f := (loadEventForRelease · p)) h
      · exact .loadedForRelease fun ev hev => hr.symm.trans hev
      · exact .loadedForRelease fun ev hev => nomatch hr.symm.trans hev
  | loadOp k =>
      obtain ⟨rfl, hr | ⟨e, hr⟩⟩ := read_eq_some (f := (loadOp · k)) h
      · exact .loadedOp fun op hop => hr.symm.trans hop
      · exact .loadedOp fun op hop => nomatch hr.symm.trans hop
  | write x =>
      rcases commit_eq_some h with ⟨rfl, db, hrun, rfl⟩ | ⟨⟨e, rfl⟩, rfl⟩
      · exact .wrote hrun
      · exact .refused
  | loadAccount a =>
      obtain ⟨-, rfl⟩ := answer_eq_some.mp h
      exact .account
  | simulateTransaction tx =>
      obtain ⟨-, rfl⟩ := answer_eq_some.mp h
      exact .simulated
  | sendTransaction signedXDR =>
      obtain ⟨hanswer, rfl⟩ := answer_eq_some.mp h
      split at hanswer
      · obtain rfl := Option.some_inj.mp hanswer
        exact .sent
      · obtain rfl := Option.some_inj.mp hanswer
        exact .unsent
      · exact nomatch hanswer
  | getTransaction hash =>
      obtain ⟨hanswer, rfl⟩ := answer_eq_some.mp h
      split at hanswer
      · split at hanswer
        · obtain rfl := Option.some_inj.mp hanswer
          exact .found ‹_›
        · exact nomatch hanswer
      · obtain rfl := Option.some_inj.mp hanswer
        exact .notFound
      · exact nomatch hanswer
  | requireTrustlines ps =>
      obtain ⟨-, rfl⟩ := answer_eq_some.mp h
      exact .trustlines
  | newEventID =>
      simp only [World.perform] at h
      split at h
      · split at h
        · exact nomatch h
        · obtain ⟨rfl, rfl⟩ := Prod.mk.inj (Option.some_inj.mp h)
          exact .drew ‹_›
      · obtain ⟨rfl, rfl⟩ := Prod.mk.inj (Option.some_inj.mp h)
        exact .undrawn
      · exact nomatch h
  | newOpID =>
      obtain ⟨-, rfl⟩ := answer_eq_some.mp h
      exact .opID
  | now =>
      obtain ⟨rfl, rfl⟩ := Prod.mk.inj (Option.some_inj.mp h)
      exact .now
  | sleep interval =>
      simp only [World.perform] at h
      split at h
      · split at h
        · obtain ⟨rfl, rfl⟩ := Prod.mk.inj (Option.some_inj.mp h)
          exact .slept
        · exact nomatch h
      · exact nomatch h

section Performed

variable {w w' : World} {op : Op} {r : op.Res}

/-- The service writes its tables and nothing else. -/
theorem Performed.network (h : Performed w op r w') : w'.chain = w.chain ∧ w'.ledger = w.ledger := by
  cases h <;> exact ⟨rfl, rfl⟩

/-- Only a write changes the tables. -/
theorem Performed.db (h : Performed w op r w') (hop : ¬ op.IsWrite) : w'.db = w.db := by
  cases h <;> first | rfl | exact absurd trivial hop

/-- A call leaves the tables, or it is a write that succeeds. -/
theorem Performed.tables (h : Performed w op r w') :
    w'.db = w.db ∨ ∃ x : StoreWrite, x.run w.db = .ok w'.db := by
  cases h with
  | wrote run => exact .inr ⟨_, run⟩
  | _ => exact .inl rfl

theorem Performed.issued (h : Performed w op r w') : ∀ id ∈ w.issued, id ∈ w'.issued := by
  cases h <;> first | exact fun _ hid => hid | exact fun _ hid => List.mem_cons_of_mem _ hid

end Performed

/-! ## The environment -/

variable {own : Address}

/-- What a move of the environment makes of the world. -/
inductive Moved (w : World) : EnvEvent own → World → Prop
  | confirmCall {tx : Transaction} {env : Escrow.Env own} {call : Escrow.Call}
      {chain : Escrow.State} (unused : w.Unused tx)
      (hostFunction : tx.hostFunction = some (.invokeEscrow call))
      (ok : Escrow.exec env w.chain call = .ok chain) :
      Moved w (.confirm tx env) { w with chain := chain, ledger := (tx, true) :: w.ledger }
  | confirmOther {tx : Transaction} {env : Escrow.Env own} (unused : w.Unused tx)
      (hostFunction : ∀ call, tx.hostFunction ≠ some (.invokeEscrow call)) :
      Moved w (.confirm tx env) { w with ledger := (tx, true) :: w.ledger }
  | reject {tx : Transaction} (unused : w.Unused tx) :
      Moved w (.reject tx) { w with ledger := (tx, false) :: w.ledger }
  | call {env : Escrow.Env own} {call : Escrow.Call} {chain : Escrow.State}
      (ok : Escrow.exec env w.chain call = .ok chain) :
      Moved w (.call env call) { w with chain := chain }
  | tokens {moves : TokenMoves own} : Moved w (.tokens moves) { w with
      chain := w.chain.setBalances fun t a => w.chain.balances t a + moves.change t a }
  | web {e : WebEvent} {db : DB} (run : e.run w.db = some db) :
      Moved w (.web e) { w with db := db }
  | tick {elapsed : ℕ} : Moved w (.tick elapsed) { w with clock := w.clock + elapsed }

/-- A call of the contract is an execution. -/
theorem callEscrow_eq_some {w w' : World} {env : Escrow.Env own} {call : Escrow.Call} :
    w.callEscrow env call = some w' ↔
      ∃ chain, Escrow.exec env w.chain call = .ok chain ∧ w' = { w with chain := chain } := by
  unfold World.callEscrow
  constructor
  · intro h
    split at h
    · exact ⟨_, ‹_›, (Option.some_inj.mp h).symm⟩
    · exact nomatch h
  · rintro ⟨chain, hok, rfl⟩
    rw [hok]

/-- What else happens is a move of the world. -/
theorem environment_eq_some {w w' : World} {event : EnvEvent own}
    (h : w.environment event = some w') : Moved w event w' := by
  cases event with
  | confirm tx env =>
      simp only [World.environment] at h
      split at h
      · obtain ⟨w₁, hrun, rfl⟩ := Option.map_eq_some_iff.mp h
        unfold World.runTransaction at hrun
        split at hrun
        · obtain ⟨chain, hok, rfl⟩ := callEscrow_eq_some.mp hrun
          exact .confirmCall ‹_› ‹_› hok
        · rename_i hno
          obtain rfl := Option.some_inj.mp hrun
          exact .confirmOther ‹_› hno
      · exact nomatch h
  | reject tx =>
      simp only [World.environment] at h
      split at h
      · obtain rfl := Option.some_inj.mp h
        exact .reject ‹_›
      · exact nomatch h
  | call env call =>
      obtain ⟨chain, hok, rfl⟩ := callEscrow_eq_some.mp h
      exact .call hok
  | tokens moves =>
      obtain rfl := Option.some_inj.mp h
      exact .tokens
  | web e =>
      obtain ⟨db, hrun, rfl⟩ := Option.map_eq_some_iff.mp h
      exact .web hrun
  | tick elapsed =>
      obtain rfl := Option.some_inj.mp h
      exact .tick

section Moved

variable {w w' : World} {event : EnvEvent own}

/-- The contract takes a step of its own. -/
theorem Moved.chain (h : Moved w event w') : ∃ l, Escrow.Step own w.chain l w'.chain := by
  have hstay : Escrow.Step own w.chain .ledger w.chain :=
    .ledger (b := w.chain.balances) fun _ => le_refl _
  cases h with
  | confirmCall unused hostFunction ok => exact ⟨_, .call ok⟩
  | call ok => exact ⟨_, .call ok⟩
  | @tokens moves =>
      refine ⟨_, .ledger fun token => ?_⟩
      have := moves.grows token
      omega
  | confirmOther => exact ⟨_, hstay⟩
  | reject => exact ⟨_, hstay⟩
  | web => exact ⟨_, hstay⟩
  | tick => exact ⟨_, hstay⟩

/-- The ledger stays or applies a transaction whose sequence number is unused. -/
theorem Moved.ledger (h : Moved w event w') :
    w'.ledger = w.ledger ∨ ∃ tx ok, w.Unused tx ∧ w'.ledger = (tx, ok) :: w.ledger := by
  cases h with
  | confirmCall unused => exact .inr ⟨_, _, unused, rfl⟩
  | confirmOther unused => exact .inr ⟨_, _, unused, rfl⟩
  | reject unused => exact .inr ⟨_, _, unused, rfl⟩
  | call => exact .inl rfl
  | tokens => exact .inl rfl
  | web => exact .inl rfl
  | tick => exact .inl rfl

/-- Only the web application writes the tables. -/
theorem Moved.db (h : Moved w event w') :
    w'.db = w.db ∨ ∃ e : WebEvent, e.run w.db = some w'.db := by
  cases h with
  | web run => exact .inr ⟨_, run⟩
  | confirmCall => exact .inl rfl
  | confirmOther => exact .inl rfl
  | reject => exact .inl rfl
  | call => exact .inl rfl
  | tokens => exact .inl rfl
  | tick => exact .inl rfl

theorem Moved.issued (h : Moved w event w') : w'.issued = w.issued := by
  cases h <;> rfl

end Moved

/-! ## The ledger -/

/-- The two transactions use one sequence number of one account. -/
def SameSequence (tx tx' : Transaction) : Prop :=
  tx.sourceAccount.key = tx'.sourceAccount.key ∧ tx.seqNum = tx'.seqNum

instance (tx tx' : Transaction) : Decidable (SameSequence tx tx') :=
  inferInstanceAs (Decidable (_ ∧ _))

/-- The transaction has not succeeded and cannot any more: its sequence number is used. -/
def World.NeverSucceeds (w : World) (tx : Transaction) : Prop :=
  ¬ w.Unused tx ∧ ¬ w.Confirmed tx

instance (w : World) (tx : Transaction) : Decidable (w.NeverSucceeds tx) :=
  inferInstanceAs (Decidable (_ ∧ _))

/-- Every sequence number of the ledger is used once, every confirmed call of the contract
has left its mark, and one that succeeds once was confirmed once. -/
structure LedgerSound (w : World) : Prop where
  once : ∀ e ∈ w.ledger, ∀ e' ∈ w.ledger, SameSequence e.1 e'.1 → e = e'
  effected : ∀ tx call, w.Confirmed tx → tx.hostFunction = some (.invokeEscrow call) →
    Escrow.Effected w.chain call
  single : ∀ tx tx' call, w.Confirmed tx → w.Confirmed tx' →
    tx.hostFunction = some (.invokeEscrow call) →
    tx'.hostFunction = some (.invokeEscrow call) → call.OneShot → tx = tx'

section Ledger

variable {w w' : World} {event : EnvEvent own} {tx tx' : Transaction}

/-- Two transactions of one sequence number are not both confirmed. -/
theorem LedgerSound.confirmed_unique (h : LedgerSound w) (hc : w.Confirmed tx)
    (hc' : w.Confirmed tx') (hs : SameSequence tx tx') : tx = tx' :=
  (Prod.mk.inj (h.once _ hc _ hc' hs)).1

/-- A transaction does not both succeed and fail. -/
theorem LedgerSound.not_confirmed (h : LedgerSound w) (hf : w.FailedOnChain tx) :
    ¬ w.Confirmed tx := fun hc => nomatch (Prod.mk.inj (h.once _ hf _ hc ⟨rfl, rfl⟩)).2

/-- A transaction that was applied has used its sequence number. -/
theorem not_unused_of_mem {ok : Bool} (h : (tx, ok) ∈ w.ledger) : ¬ w.Unused tx :=
  fun hu => hu _ h ⟨rfl, rfl⟩

/-- A transaction that failed never succeeds. -/
theorem LedgerSound.neverSucceeds (h : LedgerSound w) (hf : w.FailedOnChain tx) :
    w.NeverSucceeds tx := ⟨not_unused_of_mem hf, h.not_confirmed hf⟩

/-- The ledger forgets nothing. -/
theorem Moved.mem_ledger (h : Moved w event w') {e : Transaction × Bool} (he : e ∈ w.ledger) :
    e ∈ w'.ledger := by
  rcases h.ledger with heq | ⟨tx, ok, -, heq⟩
  · rwa [heq]
  · rw [heq]
    exact List.mem_cons_of_mem _ he

/-- What has used its sequence number without succeeding never succeeds. -/
theorem Moved.neverSucceeds (h : Moved w event w') (hn : w.NeverSucceeds tx) :
    w'.NeverSucceeds tx := by
  refine ⟨fun hu => hn.1 fun e he => hu e (h.mem_ledger he), fun hc => ?_⟩
  rcases h.ledger with heq | ⟨tx', ok, hunused, heq⟩
  · exact hn.2 (by rwa [World.Confirmed, heq] at hc)
  · rw [World.Confirmed, heq] at hc
    rcases List.mem_cons.mp hc with hnew | hold
    · obtain ⟨rfl, -⟩ := Prod.mk.inj hnew
      exact hn.1 hunused
    · exact hn.2 hold

/-- Applying one more transaction keeps sequence numbers unique. -/
theorem once_cons {l : List (Transaction × Bool)} {ok : Bool}
    (h : ∀ e ∈ l, ∀ e' ∈ l, SameSequence e.1 e'.1 → e = e')
    (hunused : ∀ e ∈ l, ¬ SameSequence e.1 tx) :
    ∀ e ∈ (tx, ok) :: l, ∀ e' ∈ (tx, ok) :: l, SameSequence e.1 e'.1 → e = e' := by
  intro e he e' he' hs
  rcases List.mem_cons.mp he with rfl | hold <;> rcases List.mem_cons.mp he' with rfl | hold'
  · rfl
  · exact absurd ⟨hs.1.symm, hs.2.symm⟩ (hunused e' hold')
  · exact absurd hs (hunused e hold)
  · exact h e hold e' hold' hs

/-- A transaction is confirmed by a move that confirms it, and its call of the contract then
succeeds. -/
theorem Moved.confirmed (h : Moved w event w') (hc : w'.Confirmed tx) :
    w.Confirmed tx ∨ (∃ env, event = .confirm tx env) ∧
      ∀ call, tx.hostFunction = some (.invokeEscrow call) →
        ∃ env : Escrow.Env own, Escrow.exec env w.chain call = .ok w'.chain := by
  cases h with
  | confirmCall unused hostFunction ok =>
      rcases List.mem_cons.mp hc with hnew | hold
      · obtain ⟨rfl, -⟩ := Prod.mk.inj hnew
        refine .inr ⟨⟨_, rfl⟩, fun call hhf => ?_⟩
        obtain rfl := HostFunction.invokeEscrow.inj
          (Option.some_inj.mp (hhf.symm.trans hostFunction))
        exact ⟨_, ok⟩
      · exact .inl hold
  | confirmOther unused hostFunction =>
      rcases List.mem_cons.mp hc with hnew | hold
      · obtain ⟨rfl, -⟩ := Prod.mk.inj hnew
        exact .inr ⟨⟨_, rfl⟩, fun call hhf => absurd hhf (hostFunction call)⟩
      · exact .inl hold
  | reject unused =>
      rcases List.mem_cons.mp hc with hnew | hold
      · exact nomatch (Prod.mk.inj hnew).2
      · exact .inl hold
  | call ok => exact .inl hc
  | tokens => exact .inl hc
  | web run => exact .inl hc
  | tick => exact .inl hc

/-- Every move keeps it sound. -/
theorem Moved.ledgerSound (hm : Moved w event w') (h : LedgerSound w) : LedgerSound w' where
  once := by
    rcases hm.ledger with heq | ⟨tx, ok, hunused, heq⟩
    · rw [heq]
      exact h.once
    · rw [heq]
      exact once_cons h.once hunused
  effected := by
    intro tx call hc hhf
    rcases hm.confirmed hc with hold | ⟨-, hrun⟩
    · obtain ⟨l, hstep⟩ := hm.chain
      exact hstep.effected (h.effected tx call hold hhf)
    · obtain ⟨env, hok⟩ := hrun call hhf
      exact Escrow.exec_effected hok
  single := by
    intro tx tx' call hc hc' hhf hhf' hone
    rcases hm.confirmed hc with hold | ⟨⟨env, hevent⟩, hrun⟩ <;>
      rcases hm.confirmed hc' with hold' | ⟨⟨env', hevent'⟩, hrun'⟩
    · exact h.single tx tx' call hold hold' hhf hhf' hone
    · obtain ⟨env, hok⟩ := hrun' call hhf'
      exact absurd hok (Escrow.not_exec_of_effected hone (h.effected tx call hold hhf))
    · obtain ⟨env, hok⟩ := hrun call hhf
      exact absurd hok (Escrow.not_exec_of_effected hone (h.effected tx' call hold' hhf'))
    · exact (EnvEvent.confirm.inj (hevent.symm.trans hevent')).1

end Ledger

/-! ## What the web application writes -/

/-- What the web application does to an event: it creates it, edits its deadline or starts
the judging. -/
inductive WebMove : Option EventRow → Option EventRow → Prop
  | untouched {o : Option EventRow} : WebMove o o
  | create {event : EventRow} (draft : event.status = .draft)
      (offChain : event.escrowEventId = none) : WebMove none (some event)
  | deadline {event : EventRow} {deadline : Option Time} :
      WebMove (some event) (some { event with judgingDeadlineAt := deadline })
  | judging {event : EventRow} (live : event.status = .live) :
      WebMove (some event) (some { event with status := .judging })

section Web

variable {db db' : DB} {id : RowId}

/-- The prizes of a new event are new rows, and no other table changes. -/
theorem insertPrizes_eq_some {prizes : List (RowId × Int64 × GoString)}
    (h : insertPrizes id db prizes = some db') :
    db'.opLog = db.opLog ∧ db'.events = db.events ∧ db'.payouts = db.payouts ∧
      ∀ prizeId prize, db.prizes.lookup prizeId = some prize →
        db'.prizes.lookup prizeId = some prize := by
  induction prizes generalizing db with
  | nil =>
      obtain rfl := Option.some_inj.mp h
      exact ⟨rfl, rfl, rfl, fun _ _ h => h⟩
  | cons p rest ih =>
      obtain ⟨prizeId, rank, amount⟩ := p
      unfold insertPrizes at h
      split at h
      · rename_i hfree
        obtain ⟨hlog, hevents, hpayouts, hprizes⟩ := ih h
        refine ⟨hlog, hevents, hpayouts, fun prizeId' prize hprize => hprizes _ _ ?_⟩
        have hne : prizeId' ≠ prizeId := by
          rintro rfl
          exact nomatch hfree.symm.trans hprize
        rwa [DB.setPrize_prizes, AList.lookup_insert_ne hne]
      · exact nomatch h

theorem insertMembers_eq_some {members : List (RowId × MemberRow)}
    (h : insertMembers db members = some db') :
    db'.opLog = db.opLog ∧ db'.events = db.events ∧ db'.payouts = db.payouts ∧
      db'.prizes = db.prizes := by
  induction members generalizing db with
  | nil =>
      obtain rfl := Option.some_inj.mp h
      exact ⟨rfl, rfl, rfl, rfl⟩
  | cons m rest ih =>
      unfold insertMembers at h
      split at h
      · obtain ⟨hlog, hevents, hpayouts, hprizes⟩ := ih h
        exact ⟨hlog, hevents, hpayouts, hprizes⟩
      · exact nomatch h

/-- The web application leaves the op log, the payouts and the prizes that exist. -/
theorem WebEvent.run_tables {e : WebEvent} (h : e.run db = some db') :
    db'.opLog = db.opLog ∧ db'.payouts = db.payouts ∧
      ∀ prizeId prize, db.prizes.lookup prizeId = some prize →
        db'.prizes.lookup prizeId = some prize := by
  cases e with
  | createDraftEvent id organizer judge deadline prizes =>
      simp only [WebEvent.run] at h
      split at h
      · obtain ⟨hlog, -, hpayouts, hprizes⟩ := insertPrizes_eq_some h
        exact ⟨hlog, hpayouts, hprizes⟩
      · exact nomatch h
  | registerTeam teamId eventId members =>
      simp only [WebEvent.run] at h
      split at h
      · obtain ⟨hlog, -, hpayouts, hprizes⟩ := insertMembers_eq_some h
        exact ⟨hlog, hpayouts, fun _ _ hprize => by rwa [hprizes]⟩
      · exact nomatch h
  | setJudges judges =>
      obtain rfl := Option.some_inj.mp h
      exact ⟨rfl, rfl, fun _ _ hprize => hprize⟩
  | setJudgingDeadline id deadline =>
      simp only [WebEvent.run] at h
      split at h
      · obtain rfl := Option.some_inj.mp h
        exact ⟨rfl, rfl, fun _ _ hprize => hprize⟩
      · exact nomatch h
  | startJudging id =>
      simp only [WebEvent.run] at h
      split at h
      · split at h
        · obtain rfl := Option.some_inj.mp h
          exact ⟨rfl, rfl, fun _ _ hprize => hprize⟩
        · exact nomatch h
      · exact nomatch h

/-- What it does to each event. -/
theorem WebEvent.run_event {e : WebEvent} (h : e.run db = some db') (id : RowId) :
    WebMove (db.events.lookup id) (db'.events.lookup id) := by
  cases e with
  | createDraftEvent j organizer judge deadline prizes =>
      simp only [WebEvent.run] at h
      split at h
      · rename_i hfree
        obtain ⟨-, hevents, -, -⟩ := insertPrizes_eq_some h
        rw [hevents]
        refine StoreWrite.lookup_after db (P := WebMove (db.events.lookup id))
          (fun _ => .untouched) ?_
        rintro rfl
        rw [hfree]
        exact .create rfl rfl
      · exact nomatch h
  | registerTeam teamId eventId members =>
      simp only [WebEvent.run] at h
      split at h
      · obtain ⟨-, hevents, -, -⟩ := insertMembers_eq_some h
        rw [hevents]
        exact .untouched
      · exact nomatch h
  | setJudges judges =>
      obtain rfl := Option.some_inj.mp h
      exact .untouched
  | setJudgingDeadline j deadline =>
      simp only [WebEvent.run] at h
      split at h
      · rename_i event hevent
        obtain rfl := Option.some_inj.mp h
        refine StoreWrite.lookup_after db (P := WebMove (db.events.lookup id))
          (fun _ => .untouched) ?_
        rintro rfl
        rw [hevent]
        exact .deadline
      · exact nomatch h
  | startJudging j =>
      simp only [WebEvent.run] at h
      split at h
      · rename_i event hevent
        split at h
        · rename_i hlive
          obtain rfl := Option.some_inj.mp h
          refine StoreWrite.lookup_after db (P := WebMove (db.events.lookup id))
            (fun _ => .untouched) ?_
          rintro rfl
          rw [hevent]
          exact .judging hlive
        · exact nomatch h
      · exact nomatch h

/-- The web application never changes an event's organizer. -/
theorem WebMove.organizer {o o' : Option EventRow} (h : WebMove o o') {a : Address}
    (ha : o.map (·.organizerWalletAddress) = some a) :
    o'.map (·.organizerWalletAddress) = some a := by
  cases h with
  | untouched => exact ha
  | create => exact nomatch ha
  | deadline => exact ha
  | judging => exact ha

theorem insertPrizes_judges {prizes : List (RowId × Int64 × GoString)}
    (h : insertPrizes id db prizes = some db') : db'.judges = db.judges := by
  induction prizes generalizing db with
  | nil =>
      obtain rfl := Option.some_inj.mp h
      rfl
  | cons p rest ih =>
      unfold insertPrizes at h
      split at h
      · rw [ih h]
        rfl
      · exact nomatch h

theorem insertMembers_judges {members : List (RowId × MemberRow)}
    (h : insertMembers db members = some db') : db'.judges = db.judges := by
  induction members generalizing db with
  | nil =>
      obtain rfl := Option.some_inj.mp h
      rfl
  | cons m rest ih =>
      unfold insertMembers at h
      split at h
      · rw [ih h]
      · exact nomatch h

/-- Short of setting the judges, the web application leaves those of the events that
exist. -/
theorem WebEvent.run_judges {e : WebEvent} (h : e.run db = some db')
    (hno : ∀ judges, e ≠ .setJudges judges) (hid : db.events.lookup id ≠ none) :
    loadJudges db' id = loadJudges db id := by
  cases e with
  | createDraftEvent j organizer judge deadline prizes =>
      simp only [WebEvent.run] at h
      split at h
      · rename_i hfree
        have hne : j ≠ id := fun heq => hid (heq ▸ hfree)
        rw [loadJudges, insertPrizes_judges h, loadJudges, List.filter_append]
        simp [hne]
      · exact nomatch h
  | registerTeam teamId eventId members =>
      simp only [WebEvent.run] at h
      split at h
      · rw [loadJudges, insertMembers_judges h, loadJudges]
      · exact nomatch h
  | setJudges judges => exact absurd rfl (hno judges)
  | setJudgingDeadline j deadline =>
      simp only [WebEvent.run] at h
      split at h
      · obtain rfl := Option.some_inj.mp h
        rfl
      · exact nomatch h
  | startJudging j =>
      simp only [WebEvent.run] at h
      split at h
      · split at h
        · obtain rfl := Option.some_inj.mp h
          rfl
        · exact nomatch h
      · exact nomatch h

end Web

end Service
