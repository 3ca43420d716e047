/-
# Interleaved programs

Any number of programs that share one world.  A program makes calls and goes on with
their answers; each call is performed atomically, and between two calls of one program
anything else may happen.  The answers of a call and the moves of the environment are
choices of the run.

What one program does is described by an obligation: `ok h op` says that the call `op`
may be made after the calls `h`.  A handler all of whose programs meet the obligation
(`Prog.Safe`) meets it in every interleaving (`obeys_of_run`), and an invariant needs to
be checked against one permitted call and one move of the environment at a time
(`invariant_of_calls`).
-/
import Astrea.LabelledRun
import Mathlib.Data.List.Basic

namespace Interleave

/-- A program: an answer, or a call and what to do with its result. -/
inductive Prog (Op : Type) (Res : Op → Type) (α : Type) : Type where
  | ret (a : α)
  | call (op : Op) (next : Res op → Prog Op Res α)

/-- A call with the result it had. -/
structure Done (Op : Type) (Res : Op → Type) where
  op : Op
  res : Res op

variable {Op : Type} {Res : Op → Type} {α β ε : Type}

instance [DecidableEq Op] [(op : Op) → DecidableEq (Res op)] : DecidableEq (Done Op Res)
  | ⟨op, r⟩, ⟨op', r'⟩ =>
      if h : op = op' then
        match op', h, r' with
        | _, rfl, r' => decidable_of_iff (r = r') ⟨congrArg _, fun h => eq_of_heq (Done.mk.inj h).2⟩
      else isFalse fun heq => h (Done.mk.inj heq).1

namespace Prog

/-- Run `f` on the answer of a program. -/
def bind : Prog Op Res α → (α → Prog Op Res β) → Prog Op Res β
  | .ret a, f => f a
  | .call op next, f => .call op fun r => (next r).bind f

instance : Monad (Prog Op Res) where
  pure := .ret
  bind := bind

/-- Running on is associative. -/
theorem bind_bind {γ : Type} {p : Prog Op Res α} {f : α → Prog Op Res β} {g : β → Prog Op Res γ} :
    (p.bind f).bind g = p.bind fun a => (f a).bind g := by
  induction p with
  | ret a => rfl
  | call op next ih => exact congrArg (Prog.call op) (funext ih)

/-- Every call of a program is permitted after the calls before it, the newest of them
first, and the answer satisfies `Q`. -/
def Safe (ok : List (Done Op Res) → Op → Prop) :
    List (Done Op Res) → Prog Op Res α → (List (Done Op Res) → α → Prop) → Prop
  | h, .ret a, Q => Q h a
  | h, .call op next, Q => ok h op ∧ ∀ r, Safe ok (⟨op, r⟩ :: h) (next r) Q

variable {ok : List (Done Op Res) → Op → Prop} {h : List (Done Op Res)}

/-- What holds at the end may be weakened. -/
theorem Safe.mono {p : Prog Op Res α} {Q R : List (Done Op Res) → α → Prop}
    (hp : Safe ok h p Q) (hQR : ∀ h' a, Q h' a → R h' a) : Safe ok h p R := by
  induction p generalizing h with
  | ret a => exact hQR h a hp
  | call op next ih => exact ⟨hp.1, fun r => ih r (hp.2 r)⟩

/-- A safe program goes on safely. -/
theorem Safe.bind {p : Prog Op Res α} {f : α → Prog Op Res β}
    {Q : List (Done Op Res) → α → Prop} {R : List (Done Op Res) → β → Prop}
    (hp : Safe ok h p Q) (hf : ∀ h' a, Q h' a → Safe ok h' (f a) R) :
    Safe ok h (p.bind f) R := by
  induction p generalizing h with
  | ret a => exact hf h a hp
  | call op next ih => exact ⟨hp.1, fun r => ih r (hp.2 r)⟩

/-- What meets an obligation meets a weaker one. -/
theorem Safe.weaken {ok' : List (Done Op Res) → Op → Prop} {p : Prog Op Res α}
    {Q : List (Done Op Res) → α → Prop} (hp : Safe ok h p Q)
    (hok : ∀ h' op, ok h' op → ok' h' op) : Safe ok' h p Q := by
  induction p generalizing h with
  | ret a => exact hp
  | call op next ih => exact ⟨hok h op hp.1, fun r => ih r (hp.2 r)⟩

/-- Two things that are said of a program are said together. -/
theorem Safe.and {p : Prog Op Res α} {Q R : List (Done Op Res) → α → Prop} (hp : Safe ok h p Q)
    (hq : Safe (fun _ _ => True) h p R) : Safe ok h p fun h' a => Q h' a ∧ R h' a := by
  induction p generalizing h with
  | ret a => exact ⟨hp, hq⟩
  | call op next ih => exact ⟨hp.1, fun r => ih r (hp.2 r) (hq.2 r)⟩

/-- Any calls are permitted where every call is. -/
theorem safe_any (p : Prog Op Res α) : Safe (fun _ _ => True) h p fun _ _ => True := by
  induction p generalizing h with
  | ret a => trivial
  | call op next ih => exact ⟨trivial, fun r => ih r⟩

/-- The answer of a program that runs alone against a state, which answers its calls, and the state
it leaves; nothing when a call is not answered. -/
def against {σ : Type} (respond : σ → (op : Op) → Option (Res op × σ)) :
    σ → Prog Op Res α → Option (α × σ)
  | s, .ret a => some (a, s)
  | s, .call op next => (respond s op).bind fun r => against respond r.2 (next r.1)

/-- Against a responder, a program goes on from the state that its first part leaves. -/
theorem against_bind {σ : Type} {respond : σ → (op : Op) → Option (Res op × σ)} {s : σ}
    {p : Prog Op Res α} {f : α → Prog Op Res β} :
    against respond s (p.bind f)
      = (against respond s p).bind fun r => against respond r.2 (f r.1) := by
  induction p generalizing s with
  | ret a => rfl
  | call op next ih =>
      simp only [Prog.bind, against, Option.bind_assoc]
      exact congrArg _ (funext fun r => ih r.1)

end Prog

/-! ## Programs that stop early -/

/-- A program that may stop with an early answer of type `ε`. -/
abbrev Guarded (Op : Type) (Res : Op → Type) (ε α : Type) : Type :=
  ExceptT ε (Prog Op Res) α

namespace Guarded

/-- Make one call. -/
def perform (op : Op) : Guarded Op Res ε (Res op) := ExceptT.lift (.call op .ret)

/-- Go on when `p` holds, stop with `e` otherwise. -/
def ensure (p : Prop) [Decidable p] (e : ε) : Guarded Op Res ε Unit :=
  if p then pure () else throw e

/-- Go on with the value of an optional, or stop with `e`. -/
def expect (o : Option α) (e : ε) : Guarded Op Res ε α :=
  match o with
  | some a => pure a
  | none => throw e

/-- Go on with the value of a result, or stop with the answer its error is given. -/
def orStop {δ : Type} (r : Except δ α) (e : δ → ε) : Guarded Op Res ε α :=
  match r with
  | .ok a => pure a
  | .error d => throw (e d)

/-- Run a program to its end; what it stops with is a value. -/
def attempt {δ : Type} (p : Guarded Op Res δ α) : Guarded Op Res ε (Except δ α) :=
  ExceptT.lift p.run

/-- The answer of a program, early or not. -/
def answer (p : Guarded Op Res α α) : Prog Op Res α :=
  p.run.bind fun r =>
    match r with
    | .ok a => .ret a
    | .error a => .ret a

variable {ok : List (Done Op Res) → Op → Prop} {h : List (Done Op Res)}

/-- Every call is permitted, and the value the program goes on with satisfies `Q`. -/
def Keeps (ok : List (Done Op Res) → Op → Prop) (h : List (Done Op Res))
    (p : Guarded Op Res ε α) (Q : List (Done Op Res) → α → Prop) : Prop :=
  p.run.Safe ok h fun h' r => ∀ a, r = .ok a → Q h' a

variable {Q : List (Done Op Res) → α → Prop} {R : List (Done Op Res) → β → Prop}

theorem keeps_pure {a : α} (ha : Q h a) :
    Keeps ok h (pure a : Guarded Op Res ε α) Q := by
  rintro b hb
  rwa [← Except.ok.inj hb]

theorem keeps_throw {e : ε} : Keeps ok h (throw e : Guarded Op Res ε α) Q :=
  fun _ hb => nomatch hb

/-- The rule of sequence. -/
theorem Keeps.bind {p : Guarded Op Res ε α} {f : α → Guarded Op Res ε β}
    (hp : Keeps ok h p Q) (hf : ∀ h' a, Q h' a → Keeps ok h' (f a) R) :
    Keeps ok h (p >>= f) R := by
  refine Prog.Safe.bind hp fun h' r hr => ?_
  cases r with
  | ok a => exact hf h' a (hr a rfl)
  | error e => exact keeps_throw

/-- The rule of consequence. -/
theorem Keeps.mono {p : Guarded Op Res ε α} {Q' : List (Done Op Res) → α → Prop}
    (hp : Keeps ok h p Q) (hQ : ∀ h' a, Q h' a → Q' h' a) : Keeps ok h p Q' :=
  Prog.Safe.mono hp fun h' _ hr a ha => hQ h' a (hr a ha)

/-- A call that may be made, whatever it answers. -/
theorem keeps_perform {op : Op} {Q : List (Done Op Res) → Res op → Prop} (hop : ok h op)
    (hQ : ∀ r, Q (⟨op, r⟩ :: h) r) : Keeps ok h (perform op : Guarded Op Res ε (Res op)) Q := by
  refine ⟨hop, fun r a ha => ?_⟩
  rw [← Except.ok.inj ha]
  exact hQ r

theorem keeps_ensure {p : Prop} [Decidable p] {e : ε} {Q : List (Done Op Res) → Unit → Prop}
    (hp : p → Q h ()) : Keeps ok h (ensure p e : Guarded Op Res ε Unit) Q := by
  unfold ensure
  split
  · exact keeps_pure (hp ‹_›)
  · exact keeps_throw

theorem keeps_expect {o : Option α} {e : ε} (ho : ∀ a, o = some a → Q h a) :
    Keeps ok h (expect o e : Guarded Op Res ε α) Q := by
  cases o with
  | none => exact keeps_throw
  | some a => exact keeps_pure (ho a rfl)

theorem keeps_orStop {δ : Type} {r : Except δ α} {e : δ → ε} (hr : ∀ a, r = .ok a → Q h a) :
    Keeps ok h (orStop r e : Guarded Op Res ε α) Q := by
  cases r with
  | ok a => exact keeps_pure (hr a rfl)
  | error d => exact keeps_throw

/-- Every call is permitted, the value the program goes on with satisfies `Q`, and what it stops
with satisfies `E`. -/
def Ends (ok : List (Done Op Res) → Op → Prop) (h : List (Done Op Res))
    (p : Guarded Op Res ε α) (Q : List (Done Op Res) → α → Prop)
    (E : List (Done Op Res) → ε → Prop) : Prop :=
  p.run.Safe ok h fun h' r => (∀ a, r = .ok a → Q h' a) ∧ ∀ e, r = .error e → E h' e

section Ends

variable {E : List (Done Op Res) → ε → Prop}

theorem ends_pure {a : α} (ha : Q h a) : Ends ok h (pure a : Guarded Op Res ε α) Q E := by
  refine ⟨fun b hb => ?_, fun _ he => nomatch he⟩
  rwa [← Except.ok.inj hb]

theorem ends_throw {e : ε} (he : E h e) : Ends ok h (throw e : Guarded Op Res ε α) Q E := by
  refine ⟨fun _ hb => (nomatch hb), fun e' he' => ?_⟩
  rwa [← Except.error.inj he']

/-- The rule of sequence, for both ways to end. -/
theorem Ends.bind {p : Guarded Op Res ε α} {f : α → Guarded Op Res ε β} (hp : Ends ok h p Q E)
    (hf : ∀ h' a, Q h' a → Ends ok h' (f a) R E) : Ends ok h (p >>= f) R E := by
  refine Prog.Safe.bind hp fun h' r hr => ?_
  cases r with
  | ok a => exact hf h' a (hr.1 a rfl)
  | error e => exact ends_throw (hr.2 e rfl)

theorem Ends.map {p : Guarded Op Res ε α} {f : α → β} (hp : Ends ok h p (fun h' a => R h' (f a)) E) :
    Ends ok h (f <$> p) R E := by
  refine Prog.Safe.bind hp fun h' r hr => ?_
  cases r with
  | ok a => exact ends_pure (hr.1 a rfl)
  | error e => exact ends_throw (hr.2 e rfl)

/-- The rule of consequence, for both ways to end. -/
theorem Ends.mono {p : Guarded Op Res ε α} {Q' : List (Done Op Res) → α → Prop}
    {E' : List (Done Op Res) → ε → Prop} (hp : Ends ok h p Q E) (hQ : ∀ h' a, Q h' a → Q' h' a)
    (hE : ∀ h' e, E h' e → E' h' e) : Ends ok h p Q' E' :=
  Prog.Safe.mono hp fun h' _ hr => ⟨fun a ha => hQ h' a (hr.1 a ha), fun e he => hE h' e (hr.2 e he)⟩

theorem ends_perform {op : Op} {Q : List (Done Op Res) → Res op → Prop} (hop : ok h op)
    (hQ : ∀ r, Q (⟨op, r⟩ :: h) r) :
    Ends ok h (perform op : Guarded Op Res ε (Res op)) Q E := by
  refine ⟨hop, fun r => ⟨fun a ha => ?_, fun _ he => nomatch he⟩⟩
  rw [← Except.ok.inj ha]
  exact hQ r

theorem ends_ensure {p : Prop} [Decidable p] {e : ε} {Q : List (Done Op Res) → Unit → Prop}
    (hp : p → Q h ()) (hn : ¬ p → E h e) : Ends ok h (ensure p e : Guarded Op Res ε Unit) Q E := by
  unfold ensure
  split
  · exact ends_pure (hp ‹_›)
  · exact ends_throw (hn ‹_›)

theorem ends_expect {o : Option α} {e : ε} (ho : ∀ a, o = some a → Q h a)
    (hn : o = none → E h e) : Ends ok h (expect o e : Guarded Op Res ε α) Q E := by
  cases o with
  | none => exact ends_throw (hn rfl)
  | some a => exact ends_pure (ho a rfl)

theorem ends_orStop {δ : Type} {r : Except δ α} {e : δ → ε} (hr : ∀ a, r = .ok a → Q h a)
    (hn : ∀ d, r = .error d → E h (e d)) : Ends ok h (orStop r e : Guarded Op Res ε α) Q E := by
  cases r with
  | ok a => exact ends_pure (hr a rfl)
  | error d => exact ends_throw (hn d rfl)

/-- An attempt turns both ends into results. -/
theorem Ends.attempt {δ : Type} {p : Guarded Op Res δ α} {F : List (Done Op Res) → δ → Prop}
    (hp : Ends ok h p Q F) :
    Ends ok h (attempt p : Guarded Op Res ε (Except δ α))
      (fun h' r => (∀ a, r = .ok a → Q h' a) ∧ ∀ e, r = .error e → F h' e) E := by
  refine Prog.Safe.bind hp fun h' r hr => ?_
  exact ends_pure hr

/-- What is said of every end is said of the answer. -/
theorem Ends.answer {p : Guarded Op Res α α} (hp : Ends ok h p Q Q) : p.answer.Safe ok h Q := by
  refine Prog.Safe.bind hp fun h' r hr => ?_
  cases r with
  | ok a => exact hr.1 a rfl
  | error a => exact hr.2 a rfl

end Ends

/-- A program whose calls are permitted still has them permitted when its answer is
read off. -/
theorem safe_answer {p : Guarded Op Res α α} (hp : Keeps ok h p fun _ _ => True) :
    p.answer.Safe ok h fun _ _ => True := by
  refine Prog.Safe.bind hp fun h' r _ => ?_
  cases r <;> trivial

end Guarded

/-! ## Runs of a pool of programs -/

/-- What the programs have done so far, each call with the number of its program, the
newest call first. -/
abbrev Log (Op : Type) (Res : Op → Type) : Type := List (ℕ × Done Op Res)

/-- The calls of program `t`, the newest first. -/
def historyOf (t : ℕ) (log : Log Op Res) : List (Done Op Res) :=
  log.filterMap fun e => if e.1 = t then some e.2 else none

@[simp] theorem historyOf_nil (t : ℕ) : historyOf t ([] : Log Op Res) = [] := rfl

@[simp] theorem historyOf_cons_self (t : ℕ) (d : Done Op Res) (log : Log Op Res) :
    historyOf t ((t, d) :: log) = d :: historyOf t log := by
  simp [historyOf]

@[simp] theorem historyOf_cons_ne {t t' : ℕ} (h : t' ≠ t) (d : Done Op Res)
    (log : Log Op Res) : historyOf t ((t', d) :: log) = historyOf t log := by
  simp [historyOf, h]

@[simp] theorem mem_historyOf {t : ℕ} {d : Done Op Res} {log : Log Op Res} :
    d ∈ historyOf t log ↔ (t, d) ∈ log := by
  simp only [historyOf, List.mem_filterMap, Prod.exists, Option.ite_none_right_eq_some,
    Option.some.injEq]
  constructor
  · rintro ⟨t', d', hmem, rfl, rfl⟩
    exact hmem
  · intro hmem
    exact ⟨t, d, hmem, rfl, rfl⟩

/-- The newest call of a kind is `d`, by program `t`. -/
def Newest (P : Done Op Res → Prop) (log : Log Op Res) (t : ℕ) (d : Done Op Res) : Prop :=
  ∃ recent past, log = recent ++ (t, d) :: past ∧ P d ∧ ∀ e ∈ recent, ¬ P e.2

section Newest

variable {P : Done Op Res → Prop} {log : Log Op Res} {t t' : ℕ} {d d' : Done Op Res}

theorem newest_cons_self (h : P d) : Newest P ((t, d) :: log) t d :=
  ⟨[], log, rfl, h, fun _ he => absurd he List.not_mem_nil⟩

/-- What is newest stays so under other calls. -/
theorem Newest.cons (h : Newest P log t d) (h' : ¬ P d') : Newest P ((t', d') :: log) t d := by
  obtain ⟨recent, past, rfl, hd, hrecent⟩ := h
  refine ⟨(t', d') :: recent, past, rfl, hd, fun e he => ?_⟩
  rcases List.mem_cons.mp he with rfl | he
  · exact h'
  · exact hrecent e he

theorem Newest.mem (h : Newest P log t d) : (t, d) ∈ log := by
  obtain ⟨recent, past, rfl, -, -⟩ := h
  exact List.mem_append_right _ List.mem_cons_self

/-- A call of the kind that comes last is the newest. -/
theorem Newest.of_cons (h : Newest P ((t', d') :: log) t d) (h' : P d') : t = t' ∧ d = d' := by
  obtain ⟨recent, past, heq, hd, hrecent⟩ := h
  cases recent with
  | nil =>
      obtain ⟨hp, -⟩ := List.cons_eq_cons.mp heq
      cases hp
      exact ⟨rfl, rfl⟩
  | cons e recent =>
      obtain ⟨hp, -⟩ := List.cons_eq_cons.mp heq
      exact absurd (hp ▸ h') (hrecent e List.mem_cons_self)

theorem Newest.of_cons_not (h : Newest P ((t', d') :: log) t d) (h' : ¬ P d') :
    Newest P log t d := by
  obtain ⟨recent, past, heq, hd, hrecent⟩ := h
  cases recent with
  | nil =>
      obtain ⟨hp, -⟩ := List.cons_eq_cons.mp heq
      cases hp
      exact absurd hd h'
  | cons e recent =>
      obtain ⟨-, htail⟩ := List.cons_eq_cons.mp heq
      exact ⟨recent, past, htail, hd, fun e' he' => hrecent e' (List.mem_cons_of_mem _ he')⟩

/-- There is one newest call of a kind. -/
theorem Newest.unique (h : Newest P log t d) (h' : Newest P log t' d') : t = t' ∧ d = d' := by
  induction log with
  | nil => exact absurd h.mem List.not_mem_nil
  | cons e log ih =>
      obtain ⟨t₁, d₁⟩ := e
      by_cases hP : P d₁
      · obtain ⟨rfl, rfl⟩ := h.of_cons hP
        obtain ⟨rfl, rfl⟩ := h'.of_cons hP
        exact ⟨rfl, rfl⟩
      · exact ih (h.of_cons_not hP) (h'.of_cons_not hP)

end Newest

/-- The shared world, the programs and what they have done.  The log is kept for stating
properties; no program reads it. -/
structure Config (W Op : Type) (Res : Op → Type) (α : Type) where
  world : W
  pool : List (Prog Op Res α)
  log : Log Op Res

/-- A step: a request that starts a program, a call of a program, or a move of the
environment. -/
inductive Label (Op : Type) (Res : Op → Type) (Req Ev : Type) where
  | spawn (request : Req)
  | did (t : ℕ) (d : Done Op Res)
  | env (event : Ev)

variable {W Ch Ev Req : Type}
variable (handler : Req → Prog Op Res α)
  (perform : W → (op : Op) → Ch → Option (Res op × W)) (environment : W → Ev → Option W)

/-- The configuration in which no request has arrived. -/
def start (w : W) : Config W Op Res α := ⟨w, [], []⟩

namespace Config

variable (c : Config W Op Res α)

/-- A new program joins the pool. -/
def spawn (p : Prog Op Res α) : Config W Op Res α := { c with pool := c.pool ++ [p] }

/-- Program `t` gets the result of its call and goes on as `p`. -/
def advance (t : ℕ) (d : Done Op Res) (w : W) (p : Prog Op Res α) : Config W Op Res α :=
  ⟨w, c.pool.set t p, (t, d) :: c.log⟩

/-- The world changes on its own. -/
def moved (w : W) : Config W Op Res α := { c with world := w }

/-- The answer of program `t`, once it has one. -/
def answerOf (t : ℕ) : Option α :=
  match c.pool[t]? with
  | some (.ret a) => some a
  | _ => none

variable {c} in

/-- A thread has answered when its program has come to its end. -/
theorem answerOf_eq_some {t : ℕ} {a : α} :
    c.answerOf t = some a ↔ c.pool[t]? = some (.ret a) := by
  unfold answerOf
  split
  · rename_i a' heq
    rw [heq, Option.some_inj, Option.some_inj, Prog.ret.injEq]
  · rename_i hno
    constructor
    · exact fun h => nomatch h
    · exact fun h => absurd h (hno a)

end Config

/-- One step of the pool. -/
inductive Step : Config W Op Res α → Label Op Res Req Ev → Config W Op Res α → Prop
  | spawn {c : Config W Op Res α} {request : Req} :
      Step c (.spawn request) (c.spawn (handler request))
  | did {c : Config W Op Res α} {t : ℕ} {op : Op} {next : Res op → Prog Op Res α}
      {choice : Ch} {r : Res op} {w : W} (thread : c.pool[t]? = some (.call op next))
      (performed : perform c.world op choice = some (r, w)) :
      Step c (.did t ⟨op, r⟩) (c.advance t ⟨op, r⟩ w (next r))
  | env {c : Config W Op Res α} {event : Ev} {w : W}
      (moved : environment c.world event = some w) : Step c (.env event) (c.moved w)

/-! ## Every program keeps to its obligations -/

variable {handler perform environment}
variable {ok : List (Done Op Res) → Op → Prop}

/-- Every call of the log was permitted after the earlier calls of its program. -/
def Justified (ok : List (Done Op Res) → Op → Prop) : Log Op Res → Prop
  | [] => True
  | (t, d) :: log => ok (historyOf t log) d.op ∧ Justified ok log

/-- A call of the log was permitted after some part of the log. -/
theorem Justified.of_mem {log : Log Op Res} (h : Justified ok log) {t : ℕ}
    {d : Done Op Res} (hmem : (t, d) ∈ log) :
    ∃ past, past ⊆ log ∧ ok (historyOf t past) d.op := by
  induction log with
  | nil => exact absurd hmem List.not_mem_nil
  | cons e log ih =>
      obtain ⟨t', d'⟩ := e
      rcases List.mem_cons.mp hmem with heq | htail
      · cases heq
        exact ⟨log, List.subset_cons_self _ _, h.1⟩
      · obtain ⟨past, hsub, hok⟩ := ih h.2 htail
        exact ⟨past, fun x hx => List.mem_cons_of_mem _ (hsub hx), hok⟩

/-- A kind of call that is permitted at most once is made at most once. -/
theorem Justified.once {log : Log Op Res} (h : Justified ok log) {P : Op → Prop}
    (honce : ∀ h op, ok h op → P op → ∀ d ∈ h, ¬ P d.op) {t : ℕ} {d d' : Done Op Res}
    (hd : (t, d) ∈ log) (hd' : (t, d') ∈ log) (hP : P d.op) (hP' : P d'.op) : d = d' := by
  induction log with
  | nil => exact absurd hd List.not_mem_nil
  | cons e log ih =>
      obtain ⟨t₁, d₁⟩ := e
      rcases List.mem_cons.mp hd with heq | htail <;>
        rcases List.mem_cons.mp hd' with heq' | htail'
      · rw [(Prod.mk.inj heq).2, (Prod.mk.inj heq').2]
      · cases heq
        exact absurd hP' (honce _ _ h.1 hP d' (mem_historyOf.mpr htail'))
      · cases heq'
        exact absurd hP (honce _ _ h.1 hP' d (mem_historyOf.mpr htail))
      · exact ih h.2 htail htail'

/-- Program `t` of the pool is still safe for its own obligation `okOf t`, and answers as
`postOf t` says. -/
structure EachObeys (okOf : ℕ → List (Done Op Res) → Op → Prop)
    (postOf : ℕ → List (Done Op Res) → α → Prop) (c : Config W Op Res α) : Prop where
  safe : ∀ t (p : Prog Op Res α), c.pool[t]? = some p →
    p.Safe (okOf t) (historyOf t c.log) (postOf t)
  bounded : ∀ t d, (t, d) ∈ c.log → t < c.pool.length

section EachObeys

variable {okOf : ℕ → List (Done Op Res) → Op → Prop}
  {postOf : ℕ → List (Done Op Res) → α → Prop}

theorem eachObeys_start (w : W) : EachObeys okOf postOf (start w : Config W Op Res α) where
  safe := fun _ _ h => nomatch h
  bounded := fun _ _ h => absurd h List.not_mem_nil

/-- A program that makes a call is permitted to make it. -/
theorem EachObeys.permitted {c : Config W Op Res α} (h : EachObeys okOf postOf c) {t : ℕ} {op : Op}
    {next : Res op → Prog Op Res α} (thread : c.pool[t]? = some (.call op next)) :
    okOf t (historyOf t c.log) op := (h.safe t _ thread).1

/-- A program that has not made a call has no history. -/
theorem EachObeys.historyOf_new {c : Config W Op Res α} (h : EachObeys okOf postOf c) :
    historyOf c.pool.length c.log = [] := by
  rw [List.eq_nil_iff_forall_not_mem]
  intro d hd
  have := h.bounded _ d (mem_historyOf.mp hd)
  omega

/-- A program that joins the pool safe for the obligation of its number joins those that
are. -/
theorem EachObeys.spawn {c : Config W Op Res α} (h : EachObeys okOf postOf c) {p : Prog Op Res α}
    (hp : p.Safe (okOf c.pool.length) [] (postOf c.pool.length)) :
    EachObeys okOf postOf (c.spawn p) := by
  refine ⟨fun t p' hp' => ?_, fun t d hd => ?_⟩
  -- the threads there were, the new one, and none beyond it
  · rcases lt_trichotomy t c.pool.length with hlt | heq | hgt
    · rw [Config.spawn, List.getElem?_append_left hlt] at hp'
      exact h.safe t p' hp'
    · subst heq
      rw [Config.spawn, List.getElem?_concat_length, Option.some_inj] at hp'
      rw [← hp']
      simp only [Config.spawn, h.historyOf_new]
      exact hp
    · have hnone : (c.spawn p).pool[t]? = none :=
        List.getElem?_eq_none (by simp only [Config.spawn, List.length_append,
          List.length_singleton]; omega)
      rw [hnone] at hp'
      exact nomatch hp'
  · have hlt := h.bounded t d hd
    simp only [Config.spawn, List.length_append, List.length_singleton]
    omega

/-- A program that got the result of its call is safe for the rest. -/
theorem EachObeys.advance {c : Config W Op Res α} (h : EachObeys okOf postOf c) {t : ℕ} {op : Op}
    {next : Res op → Prog Op Res α} (thread : c.pool[t]? = some (.call op next)) (r : Res op)
    (w : W) : EachObeys okOf postOf (c.advance t ⟨op, r⟩ w (next r)) := by
  have hlt : t < c.pool.length := (List.getElem?_eq_some_iff.mp thread).1
  have hcall := h.safe t _ thread
  refine ⟨fun t' p hp => ?_, fun t' d hd => ?_⟩
  · by_cases ht : t = t'
    · subst ht
      simp only [Config.advance, List.getElem?_set_self hlt, Option.some_inj] at hp
      subst hp
      simp only [Config.advance, historyOf_cons_self]
      exact hcall.2 r
    · simp only [Config.advance, List.getElem?_set_ne ht] at hp
      simp only [Config.advance, historyOf_cons_ne ht]
      exact h.safe t' p hp
  · simp only [Config.advance, List.length_set]
    rcases List.mem_cons.mp hd with heq | htail
    · cases heq
      exact hlt
    · exact h.bounded t' d htail

/-- A step keeps every program to its obligation, if a program that joins is safe for the
obligation of its number. -/
theorem EachObeys.step {c c' : Config W Op Res α} {l : Label Op Res Req Ev}
    (h : EachObeys okOf postOf c) (hs : Step handler perform environment c l c')
    (hspawn : ∀ req, l = .spawn req →
      (handler req).Safe (okOf c.pool.length) [] (postOf c.pool.length)) :
    EachObeys okOf postOf c' := by
  cases hs with
  | spawn => exact h.spawn (hspawn _ rfl)
  | did thread performed => exact h.advance thread _ _
  | env moved => exact ⟨h.safe, h.bounded⟩

end EachObeys

/-- Every program of the pool is still safe, and the log is what the programs did. -/
structure Obeys (ok : List (Done Op Res) → Op → Prop) (c : Config W Op Res α) : Prop where
  safe : ∀ t (p : Prog Op Res α), c.pool[t]? = some p →
    p.Safe ok (historyOf t c.log) fun _ _ => True
  bounded : ∀ t d, (t, d) ∈ c.log → t < c.pool.length
  justified : Justified ok c.log

theorem Obeys.each {c : Config W Op Res α} (h : Obeys ok c) :
    EachObeys (fun _ => ok) (fun _ _ _ => True) c := ⟨h.safe, h.bounded⟩

theorem obeys_start (w : W) : Obeys ok (start w : Config W Op Res α) where
  safe := fun _ _ h => nomatch h
  bounded := fun _ _ h => absurd h List.not_mem_nil
  justified := trivial

/-- A program that makes a call is permitted to make it. -/
theorem Obeys.permitted {c : Config W Op Res α} (h : Obeys ok c) {t : ℕ} {op : Op}
    {next : Res op → Prog Op Res α} (thread : c.pool[t]? = some (.call op next)) :
    ok (historyOf t c.log) op := h.each.permitted thread

/-- Every step keeps the threads obedient. -/
theorem Obeys.step (hsafe : ∀ req, (handler req).Safe ok [] fun _ _ => True)
    {c c' : Config W Op Res α} {l : Label Op Res Req Ev} (h : Obeys ok c)
    (hs : Step handler perform environment c l c') : Obeys ok c' := by
  have heach := h.each.step hs fun req _ => hsafe req
  refine ⟨heach.safe, heach.bounded, ?_⟩
  cases hs with
  | spawn => exact h.justified
  | did thread performed => exact ⟨h.permitted thread, h.justified⟩
  | env moved => exact h.justified

variable {w₀ : W} {c : Config W Op Res α}
  {tr : List (Transition (Config W Op Res α) (Label Op Res Req Ev))}

/-- In every interleaving every program keeps to its obligations. -/
theorem obeys_of_run (hsafe : ∀ req, (handler req).Safe ok [] fun _ _ => True)
    (hr : Run (Step handler perform environment) (start w₀) tr c) : Obeys ok c :=
  hr.invariant (I := Obeys ok) (obeys_start w₀) fun _ _ _ h hs => h.step hsafe hs

/-- The invariant rule: a property of the world and the log that every permitted call and
every move of the environment keep holds after every run; calls and moves may be assumed to
meet a condition that all transitions of the run meet. -/
theorem invariant_of_calls {C : Transition (Config W Op Res α) (Label Op Res Req Ev) → Prop}
    {I : W → Log Op Res → Prop} (hsafe : ∀ req, (handler req).Safe ok [] fun _ _ => True)
    (hr : Run (Step handler perform environment) (start w₀) tr c) (hC : ∀ t ∈ tr, C t)
    (h₀ : I w₀ [])
    (hcall : ∀ (c : Config W Op Res α) t op choice r w p,
      C ⟨c, .did t ⟨op, r⟩, c.advance t ⟨op, r⟩ w p⟩ → Justified ok c.log → I c.world c.log →
      ok (historyOf t c.log) op → perform c.world op choice = some (r, w) →
      I w ((t, ⟨op, r⟩) :: c.log))
    (henv : ∀ (c : Config W Op Res α) event w, C ⟨c, .env event, c.moved w⟩ →
      Justified ok c.log → I c.world c.log → environment c.world event = some w → I w c.log) :
    I c.world c.log := by
  have hboth : Obeys ok c ∧ I c.world c.log := by
    refine (hr.restrict hC).invariant (I := fun c => Obeys ok c ∧ I c.world c.log)
      ⟨obeys_start w₀, h₀⟩ ?_
    rintro c l c' ⟨hobeys, hI⟩ ⟨hs, hcond⟩
    refine ⟨hobeys.step hsafe hs, ?_⟩
    cases hs with
    | spawn => exact hI
    | did thread performed =>
        exact hcall c _ _ _ _ _ _ hcond hobeys.justified hI (hobeys.permitted thread) performed
    | env moved => exact henv c _ _ hcond hobeys.justified hI moved
  exact hboth.2

/-! ## Which request a program serves -/

/-- The requests that arrived, in their order: request `t` started program `t`. -/
def requestsOf (tr : List (Transition (Config W Op Res α) (Label Op Res Req Ev))) : List Req :=
  tr.filterMap fun t =>
    match t.label with
    | .spawn request => some request
    | _ => none

theorem requestsOf_append
    (tr tr' : List (Transition (Config W Op Res α) (Label Op Res Req Ev))) :
    requestsOf (tr ++ tr') = requestsOf tr ++ requestsOf tr' := List.filterMap_append

/-- A request that arrived keeps its number. -/
theorem requested_append {tr : List (Transition (Config W Op Res α) (Label Op Res Req Ev))}
    {t : ℕ} {req : Req} (h : (requestsOf tr)[t]? = some req)
    (tr' : List (Transition (Config W Op Res α) (Label Op Res Req Ev))) :
    (requestsOf (tr ++ tr'))[t]? = some req := by
  rw [requestsOf_append, List.getElem?_append_left (List.getElem?_eq_some_iff.mp h).1, h]

/-- One program for every request. -/
theorem pool_length (hr : Run (Step handler perform environment) (start w₀) tr c) :
    c.pool.length = (requestsOf tr).length := by
  induction hr with
  | nil => rfl
  | snoc run step ih =>
      rw [requestsOf_append, List.length_append, ← ih]
      cases step with
      | spawn => simp [Config.spawn, requestsOf]
      | did thread performed => simp [Config.advance, requestsOf]
      | env moved => simp [Config.moved, requestsOf]

section Requests

variable {okFor : Req → List (Done Op Res) → Op → Prop}
  {postFor : Req → List (Done Op Res) → α → Prop}

/-- In every interleaving every program keeps to the obligation of its request. -/
theorem eachObeys_of_run (hsafe : ∀ req, (handler req).Safe (okFor req) [] (postFor req))
    (hr : Run (Step handler perform environment) (start w₀) tr c) {reqs : List Req}
    (hreqs : requestsOf tr <+: reqs) :
    EachObeys (fun t h op => ∀ req, reqs[t]? = some req → okFor req h op)
      (fun t h a => ∀ req, reqs[t]? = some req → postFor req h a) c := by
  induction hr with
  | nil => exact eachObeys_start w₀
  | @snoc tr s l s' run step ih =>
      rw [requestsOf_append] at hreqs
      refine (ih ((List.prefix_append _ _).trans hreqs)).step step ?_
      rintro req rfl
      -- the program that joins is the one of the request that arrived
      have hlast : reqs[s.pool.length]? = some req := by
        obtain ⟨rest, rfl⟩ := hreqs
        rw [pool_length run, List.append_assoc]
        simp [requestsOf]
      have honly : ∀ req', reqs[s.pool.length]? = some req' → req' = req := fun req' hreq' =>
        Option.some_inj.mp (hreq'.symm.trans hlast)
      refine ((hsafe req).weaken fun h op hop req' hreq' => ?_).mono fun h a ha req' hreq' => ?_
      · rwa [honly req' hreq']
      · rwa [honly req' hreq']

/-- The next call of a run is permitted for the request whose program makes it. -/
theorem permitted_of_run (hsafe : ∀ req, (handler req).Safe (okFor req) [] (postFor req))
    (hr : Run (Step handler perform environment) (start w₀) tr c) {t : ℕ} {d : Done Op Res}
    {c' : Config W Op Res α} (hs : Step handler perform environment c (.did t d) c') :
    ∃ req, (requestsOf tr)[t]? = some req ∧ okFor req (historyOf t c.log) d.op := by
  cases hs with
  | did thread performed =>
      have hlt : t < (requestsOf tr).length := by
        rw [← pool_length hr]
        exact (List.getElem?_eq_some_iff.mp thread).1
      refine ⟨_, List.getElem?_eq_getElem hlt, ?_⟩
      exact (eachObeys_of_run hsafe hr List.prefix_rfl).permitted thread _
        (List.getElem?_eq_getElem hlt)

/-- An answer of a run is what its request's program answers after these calls. -/
theorem answered_of_run (hsafe : ∀ req, (handler req).Safe (okFor req) [] (postFor req))
    (hr : Run (Step handler perform environment) (start w₀) tr c) {t : ℕ} {a : α} {req : Req}
    (hanswer : c.answerOf t = some a) (hreq : (requestsOf tr)[t]? = some req) :
    postFor req (historyOf t c.log) a :=
  (eachObeys_of_run hsafe hr List.prefix_rfl).safe t _ (Config.answerOf_eq_some.mp hanswer) req
    hreq

/-- Every call of the log was permitted, after the calls before it, for the request whose
program made it. -/
theorem permitted_of_mem_log (hsafe : ∀ req, (handler req).Safe (okFor req) [] (postFor req))
    (hr : Run (Step handler perform environment) (start w₀) tr c) {t : ℕ} {d : Done Op Res}
    (hmem : (t, d) ∈ c.log) : ∃ req past, (t, d) :: past <:+ c.log ∧
      (requestsOf tr)[t]? = some req ∧ okFor req (historyOf t past) d.op := by
  induction hr with
  | nil => exact absurd hmem List.not_mem_nil
  | @snoc tr s l s' run step ih =>
      have hkept : s.log <:+ s'.log → (t, d) ∈ s.log → ∃ req past, (t, d) :: past <:+ s'.log ∧
          (requestsOf (tr ++ [⟨s, l, s'⟩]))[t]? = some req ∧ okFor req (historyOf t past) d.op := by
        intro hsuffix hold
        obtain ⟨req, past, hpast, hreq, hok⟩ := ih hold
        exact ⟨req, past, hpast.trans hsuffix, requested_append hreq _, hok⟩
      cases step with
      | spawn => exact hkept List.suffix_rfl hmem
      | env moved => exact hkept List.suffix_rfl hmem
      | did thread performed =>
          rcases List.mem_cons.mp hmem with heq | hold
          · cases heq
            obtain ⟨req, hreq, hok⟩ := permitted_of_run hsafe run (.did thread performed)
            exact ⟨req, _, List.suffix_rfl, requested_append hreq _, hok⟩
          · exact hkept (List.suffix_cons _ _) hold

end Requests

/-- A call of the log was made at some transition of the run. -/
theorem did_of_mem_log (hr : Run (Step handler perform environment) (start w₀) tr c) {t : ℕ}
    {d : Done Op Res} (hmem : (t, d) ∈ c.log) :
    ∃ e ∈ tr, e.label = .did t d ∧ ∃ choice, perform e.pre.world d.op choice =
      some (d.res, e.post.world) := by
  induction hr with
  | nil => exact absurd hmem List.not_mem_nil
  | @snoc tr s l s' run step ih =>
      have hkept : (t, d) ∈ s.log → ∃ e ∈ tr ++ [⟨s, l, s'⟩], e.label = .did t d ∧
          ∃ choice, perform e.pre.world d.op choice = some (d.res, e.post.world) := by
        intro hold
        obtain ⟨e, he, hdid⟩ := ih hold
        exact ⟨e, List.mem_append_left _ he, hdid⟩
      cases step with
      | spawn => exact hkept hmem
      | env moved => exact hkept hmem
      | did thread performed =>
          rcases List.mem_cons.mp hmem with heq | hold
          · cases heq
            exact ⟨_, List.mem_append_right _ (List.mem_singleton_self _), rfl, _, performed⟩
          · exact hkept hold

/-- Every transition of a run starts where a run has led. -/
theorem run_to_pre (hr : Run (Step handler perform environment) (start w₀) tr c)
    {t : Transition (Config W Op Res α) (Label Op Res Req Ev)} (ht : t ∈ tr) :
    ∃ tr', tr' ⊆ tr ∧ Run (Step handler perform environment) (start w₀) tr' t.pre ∧
      Step handler perform environment t.pre t.label t.post := by
  obtain ⟨before, after, rfl⟩ := List.append_of_mem ht
  obtain ⟨hrun, hstep, -⟩ := hr.split
  exact ⟨before, List.subset_append_left _ _, hrun, hstep⟩

/-- The log only grows. -/
theorem log_suffix {c' : Config W Op Res α}
    (hr : Run (Step handler perform environment) c tr c') : c.log <:+ c'.log := by
  induction hr with
  | nil => exact List.suffix_rfl
  | snoc run step ih =>
      cases step with
      | spawn => exact ih
      | did thread performed => exact ih.trans (List.suffix_cons _ _)
      | env moved => exact ih

/-- What a program had done before a transition of the run, it has done. -/
theorem historyOf_pre_subset {s : Config W Op Res α}
    (hr : Run (Step handler perform environment) s tr c)
    {e : Transition (Config W Op Res α) (Label Op Res Req Ev)} (he : e ∈ tr) (t : ℕ) :
    historyOf t e.pre.log ⊆ historyOf t c.log := by
  obtain ⟨before, after, rfl⟩ := List.append_of_mem he
  obtain ⟨-, hstep, hafter⟩ := hr.split
  have hlog := (log_suffix (Run.single hstep)).trans (log_suffix hafter)
  exact fun d hd => mem_historyOf.mpr (hlog.subset (mem_historyOf.mp hd))

/-! ## Scripts -/

variable (handler perform environment)

/-- One move of a script: a request arrives, a program makes its next call with a chosen
answer, or the environment moves. -/
inductive Move (Req Ch Ev : Type) where
  | request (request : Req)
  | call (t : ℕ) (choice : Ch)
  | event (event : Ev)

/-- The step a move makes, when it can be made. -/
def stepOf (c : Config W Op Res α) :
    Move Req Ch Ev → Option (Label Op Res Req Ev × Config W Op Res α)
  | .request request => some (.spawn request, c.spawn (handler request))
  | .call t choice =>
      match c.pool[t]? with
      | some (.call op next) =>
          match perform c.world op choice with
          | some (r, w) => some (.did t ⟨op, r⟩, c.advance t ⟨op, r⟩ w (next r))
          | none => none
      | _ => none
  | .event event =>
      match environment c.world event with
      | some w => some (.env event, c.moved w)
      | none => none

/-- A move that is played is a step. -/
theorem step_of_stepOf {c c' : Config W Op Res α} {m : Move Req Ch Ev}
    {l : Label Op Res Req Ev} (h : stepOf handler perform environment c m = some (l, c')) :
    Step handler perform environment c l c' := by
  unfold stepOf at h
  cases m with
  | request request =>
      obtain ⟨rfl, rfl⟩ := Prod.mk.inj (Option.some_inj.mp h)
      exact .spawn
  | call t choice =>
      simp only at h
      split at h
      · split at h
        · obtain ⟨rfl, rfl⟩ := Prod.mk.inj (Option.some_inj.mp h)
          exact .did ‹_› ‹_›
        · exact nomatch h
      · exact nomatch h
  | event event =>
      simp only at h
      split at h
      · obtain ⟨rfl, rfl⟩ := Prod.mk.inj (Option.some_inj.mp h)
        exact .env ‹_›
      · exact nomatch h

/-- The call a program makes next under a choice, with its result. -/
def called (c : Config W Op Res α) (t : ℕ) (choice : Ch) : Option (Done Op Res) :=
  match c.pool[t]? with
  | some (.call op _) => (perform c.world op choice).map fun r => ⟨op, r.1⟩
  | _ => none

theorem step_of_called {c : Config W Op Res α} {t : ℕ} (choice : Ch) {d : Done Op Res}
    (h : called perform c t choice = some d) :
    ∃ c', Step handler perform environment c (.did t d) c' := by
  unfold called at h
  split at h
  · rename_i op next hthread
    obtain ⟨⟨r, w⟩, hperform, rfl⟩ := Option.map_eq_some_iff.mp h
    exact ⟨_, .did hthread hperform⟩
  · exact nomatch h

/-- Make the moves of a script, collecting the transitions; `none` when one cannot be
made. -/
def play (c : Config W Op Res α) : List (Move Req Ch Ev) →
    Option (List (Transition (Config W Op Res α) (Label Op Res Req Ev)) × Config W Op Res α)
  | [] => some ([], c)
  | m :: rest =>
      match stepOf handler perform environment c m with
      | some (l, c') =>
          match play c' rest with
          | some (tr, c'') => some (⟨c, l, c'⟩ :: tr, c'')
          | none => none
      | none => none

/-- A script that plays through is a run. -/
theorem run_of_play {script : List (Move Req Ch Ev)} {c c' : Config W Op Res α}
    {tr : List (Transition (Config W Op Res α) (Label Op Res Req Ev))}
    (h : play handler perform environment c script = some (tr, c')) :
    Run (Step handler perform environment) c tr c' := by
  induction script generalizing c tr with
  | nil =>
      obtain ⟨rfl, rfl⟩ := Prod.mk.inj (Option.some_inj.mp h)
      exact .nil
  | cons m rest ih =>
      unfold play at h
      split at h
      · rename_i l c₁ hstep
        split at h
        · rename_i tr' c₂ hplay
          obtain ⟨rfl, rfl⟩ := Prod.mk.inj (Option.some_inj.mp h)
          exact (Run.single (step_of_stepOf handler perform environment hstep)).append (ih hplay)
        · exact nomatch h
      · exact nomatch h

/-- The transitions and the last configuration of a script that plays through. -/
def played (c : Config W Op Res α) (script : List (Move Req Ch Ev))
    (h : (play handler perform environment c script).isSome = true) :
    List (Transition (Config W Op Res α) (Label Op Res Req Ev)) × Config W Op Res α :=
  (play handler perform environment c script).get h

/-- A script that plays is a run. -/
theorem run_played {c : Config W Op Res α} {script : List (Move Req Ch Ev)}
    (h : (play handler perform environment c script).isSome = true) :
    Run (Step handler perform environment) c (played handler perform environment c script h).1
      (played handler perform environment c script h).2 :=
  run_of_play handler perform environment (Option.some_get h).symm

end Interleave
