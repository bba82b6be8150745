import Mathlib.Data.Nat.Notation
import Mathlib.Logic.Relation

/-!
# Runs of a deterministic step function

A system is a step function `step : σ → α → σ` on states, driven by actions. A
run is any sequence of actions; the guard `ok` keeps the steps of interest.

* `Reaches step ok s t`: some run from `s` ends in `t`, and every step met `ok`.
* `Reaches.invariant`: what holds at the start and is preserved by one step
  holds at the end.
* `Reaches.log_prefix`: a log that each step only extends is extended by a run.
-/

namespace Runs

variable {σ α β : Type*} {step : σ → α → σ} {ok ok' : σ → α → Prop} {s t u : σ}

/-- One step that meets the guard. -/
def StepOf (step : σ → α → σ) (ok : σ → α → Prop) (s t : σ) : Prop := ∃ a, ok s a ∧ step s a = t

/-- `t` is reached from `s` by steps that all meet the guard `ok`. -/
def Reaches (step : σ → α → σ) (ok : σ → α → Prop) : σ → σ → Prop :=
  Relation.ReflTransGen (StepOf step ok)

/-- The guard of unrestricted runs. -/
def any (_ : σ) (_ : α) : Prop := True

namespace Reaches

@[refl] theorem refl (s : σ) : Reaches step ok s s := Relation.ReflTransGen.refl

theorem next (h : Reaches step ok s t) {a : α} (ha : ok t a) : Reaches step ok s (step t a) :=
  Relation.ReflTransGen.tail h ⟨a, ha, rfl⟩

theorem trans (h : Reaches step ok s t) (h' : Reaches step ok t u) : Reaches step ok s u :=
  Relation.ReflTransGen.trans h h'

/-- **The invariant rule.** -/
theorem invariant {I : σ → Prop} (h : Reaches step ok s t) (h₀ : I s)
    (hstep : ∀ s a, ok s a → I s → I (step s a)) : I t := by
  induction h with
  | refl => exact h₀
  | tail _ hst ih => obtain ⟨a, ha, rfl⟩ := hst; exact hstep _ a ha ih

/-- An invariant may use the reachability of the state it is preserved from. -/
theorem invariant' {I : σ → Prop} (h : Reaches step ok s t) (h₀ : I s)
    (hstep : ∀ r a, Reaches step ok s r → ok r a → I r → I (step r a)) : I t := by
  induction h with
  | refl => exact h₀
  | tail hs hst ih => obtain ⟨a, ha, rfl⟩ := hst; exact hstep _ a hs ha ih

/-- **Append-only logs.** A log every step extends is extended along a run. -/
theorem log_prefix {f : σ → List β} (h : Reaches step ok s t)
    (hf : ∀ s a, ok s a → f s <+: f (step s a)) : f s <+: f t := by
  induction h with
  | refl => exact List.prefix_refl _
  | tail _ hst ih => obtain ⟨a, ha, rfl⟩ := hst; exact ih.trans (hf _ a ha)

/-- A run given by its list of actions. -/
theorem foldl (as : List α) (s : σ) : Reaches step any s (as.foldl step s) := by
  induction as generalizing s with
  | nil => exact refl _
  | cons a as ih => exact (next (refl s) (a := a) trivial).trans (ih _)

/-- A run whose actions meet the guard in any state. -/
theorem foldl_of (as : List α) (h : ∀ a ∈ as, ∀ s, ok s a) (s : σ) :
    Reaches step ok s (as.foldl step s) := by
  induction as generalizing s with
  | nil => exact refl _
  | cons a as ih =>
    have ha := h a (List.mem_cons_self ..) s
    exact (next (refl s) ha).trans (ih (fun b hb => h b (List.mem_cons_of_mem a hb)) _)

/-- Does every action of a run pass a test in the state it is taken from? -/
def checks (step : σ → α → σ) (check : σ → α → Bool) : List α → σ → Bool
  | [], _ => true
  | a :: as, s => check s a && checks step check as (step s a)

/-- A run that passes a test which implies the guard. -/
theorem foldl_checks {check : σ → α → Bool} (hc : ∀ s a, check s a = true → ok s a) (as : List α)
    (s : σ) (h : checks step check as s = true) : Reaches step ok s (as.foldl step s) := by
  induction as generalizing s with
  | nil => exact refl _
  | cons a as ih =>
    obtain ⟨ha, has⟩ := (Bool.and_eq_true _ _).mp h
    exact (next (refl s) (hc s a ha)).trans (ih _ has)

end Reaches

/-- Every action of the list meets the guard in the state it is taken from. -/
def Along (step : σ → α → σ) (ok : σ → α → Prop) : σ → List α → Prop
  | _, [] => True
  | s, a :: as => ok s a ∧ Along step ok (step s a) as

theorem Along.reaches {as : List α} (h : Along step ok s as) :
    Reaches step ok s (as.foldl step s) := by
  induction as generalizing s with
  | nil => exact Reaches.refl s
  | cons a as ih => exact ((Reaches.refl s).next h.1).trans (ih h.2)

theorem Along.mono {as : List α} (h : Along step ok s as) (hok : ∀ s a, ok s a → ok' s a) :
    Along step ok' s as := by
  induction as generalizing s with
  | nil => trivial
  | cons a as ih => exact ⟨hok s a h.1, ih h.2⟩

/-- **The invariant rule with a count**: steps that count use up the bound. -/
theorem Along.count {I : ℕ → σ → Prop} {as : List α} {n : ℕ}
    (h : Along step ok s as) (tick : α → Bool) (h₀ : I n s)
    (hstep : ∀ n s a, ok s a → I n s → I (if tick a then n - 1 else n) (step s a)) :
    I (n - as.countP tick) (as.foldl step s) := by
  induction as generalizing s n with
  | nil => exact h₀
  | cons a as ih =>
    obtain ⟨ha, has⟩ := h
    have hnext := ih has (hstep n s a ha h₀)
    rw [List.countP_cons, List.foldl_cons]
    by_cases ht : tick a = true
    · rw [if_pos ht] at hnext ⊢
      rwa [Nat.sub_sub, Nat.add_comm] at hnext
    · rw [if_neg ht] at hnext ⊢
      exact hnext

end Runs
