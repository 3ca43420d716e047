/-
# The world the service runs in

The store's tables, the escrow contract on its ledger, the transactions the ledger has
applied, and a clock.  `perform` answers the calls of a request: a store method is one
transaction on the tables, an RPC answers what it likes within what it promises (a
transaction is reported successful or failed only if the ledger applied it so), and any
call may fail without effect.  `environment` is what happens outside the service: the ledger
applies transactions in any order, other parties call the contract, the web application
writes its own rows, time passes.
-/
import Astrea.StoreWrites
import Astrea.EscrowRun
import Astrea.Interleave

namespace Service

/-! ## The calls of a request -/

/-- A Soroban value a simulation returns. -/
inductive ScVal where
  | i128 (v : Escrow.I128)
  | address (a : Address)
  | other
  deriving DecidableEq

/-- The answer of `simulateTransaction`; a field that is `none` does not decode. -/
structure Simulation where
  error : String
  transactionData : Option ℕ
  auth : Option (List ℕ)
  returnValue : Option ScVal
  minResourceFee : ℕ
  deriving DecidableEq

inductive SendStatus where
  | pending
  | duplicate
  | tryAgainLater
  | error
  deriving DecidableEq, Repr

/-- The answer of `sendTransaction`. -/
structure SendResponse where
  hash : TxHash
  status : SendStatus
  errorResultXDR : String
  deriving DecidableEq

/-- The answer of `getTransaction`. -/
inductive GetResponse where
  | success
  | failed (resultXDR : String)
  | notFound
  deriving DecidableEq, Repr

/-- One wallet and the stroops it is about to be paid. -/
structure TrustlinePayout where
  address : Address
  stroops : Int64
  deriving DecidableEq

/-- What a trustline check fails with: wallets that cannot receive the asset, each with its
status, a malformed address, or a failed lookup. -/
inductive TrustlineError where
  | missing (asset : String) (wallets : List (Address × String))
  | invalidAddress
  | other
  deriving DecidableEq

/-- A call a request makes. -/
inductive Op where
  | loadEventForCreate (eventID : PathID)
  | loadEventForStart (eventID : PathID)
  | loadEventForRelease (eventID : PathID)
  | loadOp (k : OpKey)
  | write (w : StoreWrite)
  | loadAccount (address : Address)
  | simulateTransaction (tx : Transaction)
  | sendTransaction (signedXDR : SignedXDR)
  | getTransaction (hash : TxHash)
  | requireTrustlines (payouts : List TrustlinePayout)
  | newEventID
  | newOpID
  | now
  | sleep (interval : Time)
  deriving DecidableEq

/-- The calls that neither read a row of the op log, nor write, nor send. -/
def Op.IsQuiet : Op → Prop
  | .loadOp _ | .write _ | .sendTransaction _ => False
  | _ => True

def Op.IsRowRead : Op → Prop
  | .loadOp _ => True
  | _ => False

def Op.IsWrite : Op → Prop
  | .write _ => True
  | _ => False

def Op.IsSend : Op → Prop
  | .sendTransaction _ => True
  | _ => False

/-- What a call answers. -/
@[reducible] def Op.Res : Op → Type
  | .loadEventForCreate _ => Except StoreError EventForCreate
  | .loadEventForStart _ => Except StoreError EventForStart
  | .loadEventForRelease _ => Except StoreError EventForRelease
  | .loadOp k => Except StoreError (StoredOp k)
  | .write _ => Except StoreError Unit
  | .loadAccount _ => Except String Int64
  | .simulateTransaction _ => Except String Simulation
  | .sendTransaction _ => Except String SendResponse
  | .getTransaction _ => Except String GetResponse
  | .requireTrustlines _ => Except TrustlineError Unit
  | .newEventID => Except String EventID
  | .newOpID => Except String OpID
  | .now => Time
  | .sleep _ => Unit

instance : (op : Op) → DecidableEq op.Res
  | .loadEventForCreate _ => inferInstanceAs (DecidableEq (Except StoreError EventForCreate))
  | .loadEventForStart _ => inferInstanceAs (DecidableEq (Except StoreError EventForStart))
  | .loadEventForRelease _ => inferInstanceAs (DecidableEq (Except StoreError EventForRelease))
  | .loadOp k => inferInstanceAs (DecidableEq (Except StoreError (StoredOp k)))
  | .write _ => inferInstanceAs (DecidableEq (Except StoreError Unit))
  | .loadAccount _ => inferInstanceAs (DecidableEq (Except String Int64))
  | .simulateTransaction _ => inferInstanceAs (DecidableEq (Except String Simulation))
  | .sendTransaction _ => inferInstanceAs (DecidableEq (Except String SendResponse))
  | .getTransaction _ => inferInstanceAs (DecidableEq (Except String GetResponse))
  | .requireTrustlines _ => inferInstanceAs (DecidableEq (Except TrustlineError Unit))
  | .newEventID => inferInstanceAs (DecidableEq (Except String EventID))
  | .newOpID => inferInstanceAs (DecidableEq (Except String OpID))
  | .now => inferInstanceAs (DecidableEq ℤ)
  | .sleep _ => inferInstanceAs (DecidableEq Unit)

/-- A call of the service with its result. -/
abbrev Done : Type := Interleave.Done Op Op.Res

/-- What the requests have done so far. -/
abbrev Log : Type := Interleave.Log Op Op.Res

/-! ## The world -/

/-- `ledger` lists the transactions applied so far, each with whether it succeeded, and
`issued` the event ids drawn so far. -/
structure World where
  db : DB
  chain : Escrow.State
  ledger : List (Transaction × Bool)
  issued : List EventID
  clock : Time

/-- The transaction was applied and succeeded. -/
def World.Confirmed (w : World) (tx : Transaction) : Prop := (tx, true) ∈ w.ledger

/-- The transaction was applied and failed. -/
def World.FailedOnChain (w : World) (tx : Transaction) : Prop := (tx, false) ∈ w.ledger

instance (w : World) (tx : Transaction) : Decidable (w.Confirmed tx) :=
  inferInstanceAs (Decidable (_ ∈ _))

instance (w : World) (tx : Transaction) : Decidable (w.FailedOnChain tx) :=
  inferInstanceAs (Decidable (_ ∈ _))

/-- The choices an answer leaves open. -/
inductive Choice where
  | ok
  | fail (complaint : String)
  | account (sequence : Int64)
  | simulation (s : Simulation)
  | sent (status : SendStatus) (errorResultXDR : String)
  | found (r : GetResponse)
  | trustlines (e : TrustlineError)
  | eventID (id : EventID)
  | opID (id : OpID)
  | slept (elapsed : Time)

/-- What `getTransaction` may answer: success and failure only as the ledger has them. -/
def World.MayReport (w : World) (hash : TxHash) : GetResponse → Prop
  | .success => w.Confirmed hash
  | .failed _ => w.FailedOnChain hash
  | .notFound => True

instance (w : World) (hash : TxHash) (r : GetResponse) : Decidable (w.MayReport hash r) :=
  match r with
  | .success => inferInstanceAs (Decidable (w.Confirmed hash))
  | .failed _ => inferInstanceAs (Decidable (w.FailedOnChain hash))
  | .notFound => inferInstanceAs (Decidable True)

/-- Run a read of the store. -/
def World.read {α : Type} (w : World) (r : DB → Except StoreError α) :
    Choice → Option (Except StoreError α × World)
  | .ok => some (r w.db, w)
  | .fail complaint => some (.error (.other ⟨complaint, []⟩), w)
  | _ => none

/-- Run a write of the store: committed, rolled back, or failed before it began. -/
def World.commit (w : World) (x : StoreWrite) :
    Choice → Option (Except StoreError Unit × World)
  | .ok =>
      match x.run w.db with
      | .ok db => some (.ok (), { w with db := db })
      | .error e => some (.error e, w)
  | .fail complaint => some (.error (.other ⟨complaint, []⟩), w)
  | _ => none

/-- Answer without changing anything. -/
def World.answer {α : Type} (w : World) (o : Option α) : Option (α × World) := o.map (·, w)

/-- Answer a call.  Event ids come from the system's random source and never repeat. -/
def World.perform (w : World) (op : Op) (choice : Choice) : Option (op.Res × World) :=
  match op with
  | .loadEventForCreate p => w.read (Service.loadEventForCreate · p) choice
  | .loadEventForStart p => w.read (Service.loadEventForStart · p) choice
  | .loadEventForRelease p => w.read (Service.loadEventForRelease · p) choice
  | .loadOp k => w.read (Service.loadOp · k) choice
  | .write x => w.commit x choice
  | .loadAccount _ => w.answer <|
      match choice with
      | .account sequence => some (.ok sequence)
      | .fail complaint => some (.error complaint)
      | _ => none
  | .simulateTransaction _ => w.answer <|
      match choice with
      | .simulation s => some (.ok s)
      | .fail complaint => some (.error complaint)
      | _ => none
  | .sendTransaction signedXDR => w.answer <|
      match choice, signedXDR with
      -- an answer to a send does not bind the ledger: any status may come back
      | .sent status errorResultXDR, .envelope (.v1 tx _) =>
          some (.ok ⟨tx, status, errorResultXDR⟩)
      | .fail complaint, _ => some (.error complaint)
      | _, _ => none
  | .getTransaction hash => w.answer <|
      match choice with
      -- not found is always possible, also for an applied transaction
      | .found r => if w.MayReport hash r then some (.ok r) else none
      | .fail complaint => some (.error complaint)
      | _ => none
  | .requireTrustlines _ => w.answer <|
      match choice with
      | .ok => some (.ok ())
      | .trustlines e => some (.error e)
      | _ => none
  | .newEventID =>
      match choice with
      | .eventID id =>
          if id ∈ w.issued then none else some (.ok id, { w with issued := id :: w.issued })
      | .fail complaint => some (.error complaint, w)
      | _ => none
  | .newOpID => w.answer <|
      match choice with
      | .opID id => some (.ok id)
      | .fail complaint => some (.error complaint)
      | _ => none
  | .now => w.answer (some w.clock)
  | .sleep interval =>
      match choice with
      | .slept elapsed =>
          if interval ≤ elapsed then some ((), { w with clock := w.clock + elapsed }) else none
      | _ => none

/-! ## The environment -/

variable {own : Address}

/-- Balances the outside world adds; it cannot take from the contract. -/
structure TokenMoves (own : Address) where
  change : Escrow.Balances
  grows : ∀ token, 0 ≤ change token own

/-- What the web application writes: new events in `DRAFT` with their prizes and judge, new
teams, new judges and deadlines, and the start of the judging. -/
inductive WebEvent where
  | createDraftEvent (id : RowId) (organizer judge : Address) (judgingDeadlineAt : Time)
      (prizes : List (RowId × Int64 × GoString))
  | registerTeam (teamId eventId : RowId) (members : List (RowId × MemberRow))
  | setJudges (judges : List JudgeRow)
  | setJudgingDeadline (id : RowId) (judgingDeadlineAt : Option Time)
  | startJudging (id : RowId)

/-- Insert the prizes of a new event, under ids not in use. -/
def insertPrizes (eventId : RowId) (db : DB) : List (RowId × Int64 × GoString) → Option DB
  | [] => some db
  | (id, rank, amount) :: rest =>
      if db.prizes.lookup id = none then
        insertPrizes eventId (db.setPrize id ⟨eventId, rank, amount, .pending, none, none, none⟩) rest
      else none

/-- Insert the members of a new team, under ids not in use. -/
def insertMembers (db : DB) : List (RowId × MemberRow) → Option DB
  | [] => some db
  | (id, member) :: rest =>
      if db.teamMembers.lookup id = none then
        insertMembers { db with teamMembers := db.teamMembers.insert id member } rest
      else none

/-- Run a write of the web application; `none` when it is refused. -/
def WebEvent.run (db : DB) : WebEvent → Option DB
  | .createDraftEvent id organizer judge judgingDeadlineAt prizes =>
      if db.events.lookup id = none then
        insertPrizes id { db.setEvent id ⟨.draft, none, organizer, some judgingDeadlineAt, none⟩ with
          judges := db.judges ++ [⟨id, judge, true⟩] } prizes
      else none
  | .registerTeam teamId eventId members =>
      if db.teams.lookup teamId = none then
        insertMembers { db with teams := db.teams.insert teamId eventId } members
      else none
  | .setJudges judges => some { db with judges := judges }
  | .setJudgingDeadline id judgingDeadlineAt =>
      match db.events.lookup id with
      | some event => some (db.setEvent id { event with judgingDeadlineAt := judgingDeadlineAt })
      | none => none
  | .startJudging id =>
      match db.events.lookup id with
      | some event =>
          if event.status = .live then some (db.setEvent id { event with status := .judging })
          else none
      | none => none

/-- A move of the environment: the ledger applies a transaction, successfully or not,
another party calls the contract or moves tokens, the web application writes, time passes. -/
inductive EnvEvent (own : Address) where
  | confirm (tx : Transaction) (env : Escrow.Env own)
  | reject (tx : Transaction)
  | call (env : Escrow.Env own) (call : Escrow.Call)
  | tokens (moves : TokenMoves own)
  | web (e : WebEvent)
  | tick (elapsed : ℕ)

/-- No applied transaction has used this account's sequence number. -/
def World.Unused (w : World) (tx : Transaction) : Prop :=
  ∀ e ∈ w.ledger,
    ¬ (e.1.sourceAccount.key = tx.sourceAccount.key ∧ e.1.seqNum = tx.seqNum)

instance (w : World) (tx : Transaction) : Decidable (w.Unused tx) :=
  inferInstanceAs (Decidable (∀ e ∈ w.ledger, _))

/-- Run a call of the contract. -/
def World.callEscrow (w : World) (env : Escrow.Env own) (call : Escrow.Call) : Option World :=
  match Escrow.exec env w.chain call with
  | .ok chain => some { w with chain := chain }
  | .error _ => none

/-- What a transaction that succeeds does to the contract. -/
def World.runTransaction (w : World) (env : Escrow.Env own) (tx : Transaction) : Option World :=
  match tx.hostFunction with
  | some (.invokeEscrow call) => w.callEscrow env call
  | _ => some w

/-- Make a move of the environment; `none` when it is not possible. -/
def World.environment (w : World) : EnvEvent own → Option World
  -- sent by whomever: an envelope leaves the service's hands with the `/build`
  | .confirm tx env =>
      if w.Unused tx then
        (w.runTransaction env tx).map fun w' => { w' with ledger := (tx, true) :: w.ledger }
      else none
  | .reject tx => if w.Unused tx then some { w with ledger := (tx, false) :: w.ledger } else none
  | .call env call => w.callEscrow env call
  | .tokens moves => some { w with
      chain := w.chain.setBalances fun t a => w.chain.balances t a + moves.change t a }
  | .web e => (e.run w.db).map fun db => { w with db := db }
  | .tick elapsed => some { w with clock := w.clock + elapsed }

/-! ## What answers and moves change -/

/-- What a store write answered and did. -/
theorem commit_eq_some {w w' : World} {x : StoreWrite} {ch : Choice} {r : Except StoreError Unit}
    (h : w.commit x ch = some (r, w')) :
    (r = .ok () ∧ ∃ db, x.run w.db = .ok db ∧ w' = { w with db := db }) ∨
      ((∃ e, r = .error e) ∧ w' = w) := by
  unfold World.commit at h
  split at h
  · split at h
    · rename_i db hrun
      obtain ⟨rfl, rfl⟩ := Prod.mk.inj (Option.some_inj.mp h)
      exact .inl ⟨rfl, db, hrun, rfl⟩
    · obtain ⟨rfl, rfl⟩ := Prod.mk.inj (Option.some_inj.mp h)
      exact .inr ⟨⟨_, rfl⟩, rfl⟩
  · obtain ⟨rfl, rfl⟩ := Prod.mk.inj (Option.some_inj.mp h)
    exact .inr ⟨⟨_, rfl⟩, rfl⟩
  · exact nomatch h

theorem answer_eq_some {α : Type} {w w' : World} {o : Option α} {r : α} :
    w.answer o = some (r, w') ↔ o = some r ∧ w' = w := by
  simp only [World.answer, Option.map_eq_some_iff, Prod.mk.injEq]
  constructor
  · rintro ⟨a, ho, rfl, rfl⟩
    exact ⟨ho, rfl⟩
  · rintro ⟨ho, rfl⟩
    exact ⟨r, ho, rfl, rfl⟩

/-- A read answers what the tables hold, or an error, and changes nothing. -/
theorem read_eq_some {α : Type} {w w' : World} {f : DB → Except StoreError α} {ch : Choice}
    {r : Except StoreError α} (h : w.read f ch = some (r, w')) :
    w' = w ∧ (r = f w.db ∨ ∃ e, r = .error e) := by
  unfold World.read at h
  split at h
  · obtain ⟨rfl, rfl⟩ := Prod.mk.inj (Option.some_inj.mp h)
    exact ⟨rfl, .inl rfl⟩
  · obtain ⟨rfl, rfl⟩ := Prod.mk.inj (Option.some_inj.mp h)
    exact ⟨rfl, .inr ⟨_, rfl⟩⟩
  · exact nomatch h

end Service
