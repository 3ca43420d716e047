/-
# Labelled runs

The runs of a labelled transition relation, kept together with the list of the
transitions they took.  A property of all runs is proved from a property of one
step by one of five rules: `Run.invariant` for what a state satisfies,
`Run.history` for what relates a state to the transitions behind it,
`Run.forall_mem` for what every transition of a run satisfies, `Run.sum_eq` for a
quantity that every step changes by a known amount, and `Run.crosses_once` for a
level that a growing quantity passes.  Where a step can be computed, `Run.of_follow` makes
a run of a script.
-/
import Mathlib.Data.Int.Basic
import Mathlib.Algebra.BigOperators.Group.List.Basic
import Mathlib.Data.List.Induction
import Mathlib.Tactic.Ring

/-- One step of a run, with the states before and after it. -/
structure Transition (σ ℓ : Type) where
  pre : σ
  label : ℓ
  post : σ

/-- The runs of `R` from `s₀`, with their transitions in order. -/
inductive Run {σ ℓ : Type} (R : σ → ℓ → σ → Prop) (s₀ : σ) :
    List (Transition σ ℓ) → σ → Prop
  | nil : Run R s₀ [] s₀
  | snoc {tr : List (Transition σ ℓ)} {s : σ} {l : ℓ} {s' : σ} (run : Run R s₀ tr s)
      (step : R s l s') : Run R s₀ (tr ++ [⟨s, l, s'⟩]) s'

namespace Run

variable {σ ℓ : Type} {R : σ → ℓ → σ → Prop} {s₀ s : σ} {tr : List (Transition σ ℓ)}

/-- The history rule: a relation between the transitions taken and the state
reached holds of every run once each step extends it. -/
theorem history {H : List (Transition σ ℓ) → σ → Prop} (hr : Run R s₀ tr s)
    (h₀ : H [] s₀)
    (hstep : ∀ tr s l s', Run R s₀ tr s → H tr s → R s l s' →
      H (tr ++ [⟨s, l, s'⟩]) s') : H tr s := by
  induction hr with
  | nil => exact h₀
  | snoc run step ih => exact hstep _ _ _ _ run ih step

/-- The invariant rule. -/
theorem invariant {I : σ → Prop} (hr : Run R s₀ tr s) (h₀ : I s₀)
    (hstep : ∀ s l s', I s → R s l s' → I s') : I s :=
  hr.history (H := fun _ s => I s) h₀ fun _ s l s' _ hI hR => hstep s l s' hI hR

/-- Every transition of a run is a step of the relation from a state that
satisfies the invariant. -/
theorem forall_mem {I : σ → Prop} (hr : Run R s₀ tr s) (h₀ : I s₀)
    (hstep : ∀ s l s', I s → R s l s' → I s') :
    ∀ t ∈ tr, I t.pre ∧ R t.pre t.label t.post := by
  induction hr with
  | nil => simp
  | snoc run step ih =>
      intro t ht
      rcases List.mem_append.mp ht with h | h
      · exact ih t h
      · rw [List.mem_singleton.mp h]
        exact ⟨run.invariant h₀ hstep, step⟩

/-- A quantity that every step changes by the weight of the transition ends at
its first value plus the weights of the whole run. -/
theorem sum_eq {I : σ → Prop} (hr : Run R s₀ tr s) (φ : σ → ℤ) (w : Transition σ ℓ → ℤ)
    (h₀ : I s₀) (hstep : ∀ s l s', I s → R s l s' → I s')
    (hw : ∀ s l s', I s → R s l s' → φ s' = φ s + w ⟨s, l, s'⟩) :
    φ s = φ s₀ + (tr.map w).sum := by
  induction hr with
  | nil => simp
  | snoc run step ih =>
      rw [hw _ _ _ (run.invariant h₀ hstep) step, ih]
      simp only [List.map_append, List.map_cons, List.map_nil, List.sum_append,
        List.sum_cons, List.sum_nil]
      ring

/-- Transitions that pass a level of a quantity that never falls occur at most once. -/
theorem crosses_once {P : Transition σ ℓ → Bool} (hr : Run R s₀ tr s) (φ : σ → ℕ) (n : ℕ)
    (hgrows : ∀ s l s', R s l s' → φ s ≤ φ s')
    (hP : ∀ s l s', R s l s' → P ⟨s, l, s'⟩ → φ s ≤ n ∧ n < φ s') : tr.countP P ≤ 1 := by
  have hboth : tr.countP P ≤ 1 ∧ (0 < tr.countP P → n < φ s) := by
    refine hr.history (H := fun tr s => tr.countP P ≤ 1 ∧ (0 < tr.countP P → n < φ s))
      ⟨Nat.zero_le _, fun h => absurd h (lt_irrefl _)⟩ ?_
    rintro tr s l s' - ⟨hle, hlevel⟩ hstep
    rw [List.countP_append, List.countP_singleton]
    have hgrow := hgrows s l s' hstep
    split
    · rename_i hcross
      obtain ⟨hbelow, habove⟩ := hP s l s' hstep hcross
      exact ⟨by omega, fun _ => habove⟩
    · exact ⟨by omega, fun hpos => by have := hlevel (by omega); omega⟩
  exact hboth.1

/-- Runs compose. -/
theorem append {s' : σ} {tr' : List (Transition σ ℓ)} (hr : Run R s₀ tr s)
    (hr' : Run R s tr' s') : Run R s₀ (tr ++ tr') s' := by
  induction hr' with
  | nil => rwa [List.append_nil]
  | snoc run step ih =>
      rw [← List.append_assoc]
      exact .snoc ih step

/-- One step is a run. -/
theorem single {l : ℓ} (h : R s₀ l s) : Run R s₀ [⟨s₀, l, s⟩] s := .snoc .nil h

/-- A run whose transitions all meet a condition is a run of the relation cut
down to that condition. -/
theorem restrict {C : Transition σ ℓ → Prop} (hr : Run R s₀ tr s)
    (hC : ∀ t ∈ tr, C t) : Run (fun s l s' => R s l s' ∧ C ⟨s, l, s'⟩) s₀ tr s := by
  induction hr with
  | nil => exact .nil
  | snoc run step ih =>
      refine .snoc (ih fun t ht => hC t (List.mem_append_left _ ht)) ⟨step, ?_⟩
      exact hC _ (List.mem_append_right _ (List.mem_singleton_self _))

/-- The last transition of a run ends in the state reached. -/
theorem of_snoc {t : Transition σ ℓ} (hr : Run R s₀ (tr ++ [t]) s) :
    Run R s₀ tr t.pre ∧ R t.pre t.label t.post ∧ t.post = s := by
  generalize heq : tr ++ [t] = l at hr
  cases hr with
  | nil => exact absurd heq (List.append_ne_nil_of_right_ne_nil _ (List.cons_ne_nil _ _))
  | snoc run step =>
      obtain ⟨rfl, hlast⟩ := List.append_inj' heq rfl
      rw [List.singleton_inj] at hlast
      subst hlast
      exact ⟨run, step, rfl⟩

/-- A run up to one of its transitions, and from there on. -/
theorem split {t : Transition σ ℓ} {after : List (Transition σ ℓ)}
    (hr : Run R s₀ (tr ++ t :: after) s) :
    Run R s₀ tr t.pre ∧ R t.pre t.label t.post ∧ Run R t.post after s := by
  induction after using List.reverseRecOn generalizing s with
  | nil =>
      obtain ⟨hbefore, hstep, rfl⟩ := hr.of_snoc
      exact ⟨hbefore, hstep, .nil⟩
  | append_singleton after t' ih =>
      rw [← List.cons_append, ← List.append_assoc] at hr
      obtain ⟨hrest, hlast, rfl⟩ := hr.of_snoc
      obtain ⟨hbefore, hstep, hrun⟩ := ih hrest
      exact ⟨hbefore, hstep, hrun.snoc hlast⟩

/-! ## Scripts -/

/-- The transitions of a script under a step function that may refuse, and the state the
script ends in. -/
def follow (f : σ → ℓ → Option σ) (s : σ) : List ℓ → Option (List (Transition σ ℓ) × σ)
  | [] => some ([], s)
  | l :: ls =>
      match f s l with
      | none => none
      | some s' => (follow f s' ls).map fun r => (⟨s, l, s'⟩ :: r.1, r.2)

/-- A script that is followed to its end is a run. -/
theorem of_follow {f : σ → ℓ → Option σ} (hf : ∀ s l s', f s l = some s' → R s l s')
    {ls : List ℓ} (h : follow f s ls = some (tr, s₀)) : Run R s tr s₀ := by
  induction ls generalizing s tr with
  | nil =>
      cases h
      exact .nil
  | cons l ls ih =>
      unfold follow at h
      split at h
      · exact nomatch h
      · rename_i s' hs'
        obtain ⟨⟨tr', s''⟩, hrest, heq⟩ := Option.map_eq_some_iff.mp h
        cases heq
        exact (single (hf s l s' hs')).append (ih hrest)

end Run
