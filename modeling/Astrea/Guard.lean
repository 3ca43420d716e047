/-
# Guarded computations

A computation that checks its guards in order and stops at the first one that
fails, as a value of `Except`.  Each operation comes with the lemma that says
when it succeeds, in both directions, so a whole body is turned into the
conjunction of its guards by rewriting with `bind_eq_ok` and these lemmas.
-/
import Mathlib.Logic.Basic

namespace Guard

variable {ε α β : Type}

instance decidableEqExcept [DecidableEq ε] [DecidableEq α] : DecidableEq (Except ε α)
  | .ok a, .ok b => decidable_of_iff (a = b) ⟨congrArg _, Except.ok.inj⟩
  | .error e, .error e' => decidable_of_iff (e = e') ⟨congrArg _, Except.error.inj⟩
  | .ok _, .error _ => isFalse nofun
  | .error _, .ok _ => isFalse nofun

/-- Continue when `p` holds, stop with `e` otherwise. -/
def ensure (p : Prop) [Decidable p] (e : ε) : Except ε Unit :=
  if p then .ok () else .error e

/-- The value of an optional, or stop with `e`. -/
def expect (o : Option α) (e : ε) : Except ε α :=
  match o with
  | some a => .ok a
  | none => .error e

/-- A sequence succeeds when both parts do. -/
theorem bind_eq_ok {x : Except ε α} {f : α → Except ε β} {b : β} :
    (x >>= f) = .ok b ↔ ∃ a, x = .ok a ∧ f a = .ok b := by
  cases x with
  | error e =>
      constructor
      · intro h
        exact nomatch h
      · rintro ⟨a, ha, -⟩
        exact nomatch ha
  | ok a =>
      refine ⟨fun h => ⟨a, rfl, h⟩, ?_⟩
      rintro ⟨a', ha, hf⟩
      rw [← Except.ok.inj ha] at hf
      exact hf

theorem pure_eq_ok {a b : α} : (pure a : Except ε α) = .ok b ↔ a = b :=
  ⟨Except.ok.inj, congrArg _⟩

/-- A guard passes when its condition holds. -/
theorem ensure_eq_ok {p : Prop} [Decidable p] {e : ε} {u : Unit} :
    ensure p e = .ok u ↔ p := by
  by_cases h : p
  · simp [ensure, h]
  · simp [ensure, h]

/-- An expected value is there. -/
theorem expect_eq_ok {o : Option α} {e : ε} {a : α} :
    expect o e = .ok a ↔ o = some a := by
  cases o with
  | none => simp [expect]
  | some b => simp [expect]

/-- An error that neither part gives is not given by the whole. -/
theorem bind_ne_error {x : Except ε α} {f : α → Except ε β} {e : ε} (hx : x ≠ .error e)
    (hf : ∀ a, x = .ok a → f a ≠ .error e) : (x >>= f) ≠ .error e := by
  cases x with
  | error e' => exact fun h => hx (congrArg _ (Except.error.inj h))
  | ok a => exact hf a rfl

/-- A guard fails with its own error only. -/
theorem ensure_ne_error {p : Prop} [Decidable p] {e e' : ε} (h : e' ≠ e) :
    ensure p e' ≠ .error e := by
  unfold ensure
  split
  · exact nofun
  · exact fun heq => h (Except.error.inj heq)

theorem ensure_ne_error_of {p : Prop} [Decidable p] {e e' : ε} (h : p) :
    ensure p e' ≠ .error e := by
  rw [ensure, if_pos h]
  exact nofun

theorem expect_ne_error {o : Option α} {e e' : ε} (h : e' ≠ e) : expect o e' ≠ .error e := by
  cases o with
  | none => exact fun heq => h (Except.error.inj heq)
  | some a => exact nofun

/-- A list of computations that all succeed. -/
theorem mapM_eq_ok {f : α → Except ε β} {g : α → β} {l : List α}
    (h : ∀ a ∈ l, f a = .ok (g a)) : l.mapM f = .ok (l.map g) := by
  induction l with
  | nil => rfl
  | cons a l ih =>
      have hrest := ih fun x hx => h x (List.mem_cons_of_mem _ hx)
      rw [List.mapM_cons, h a List.mem_cons_self, hrest]
      rfl

end Guard
