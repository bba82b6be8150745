import DeviceBuilder.Lib.Runs

/-!
# Chains of labelled moves, and simulation by them

`Move ℓ s t` is a relation between states with a label. A chain is a sequence of
moves whose labels all meet `ok`. A system with big steps is simulated by small
moves when each of its steps is a chain of moves on the abstraction of its
state; the invariants of the moves are then invariants of the system.

* `Chain.invariant`: what every move of a chain preserves, the chain preserves.
* `Chain.rel`: a reflexive and transitive relation kept by moves is kept by chains.
-/

namespace Runs

variable {τ L : Type*} {Move : L → τ → τ → Prop} {ok ok' : L → Prop} {s t u : τ}

/-- A sequence of moves with labels in `ok`. -/
def Chain (Move : L → τ → τ → Prop) (ok : L → Prop) : τ → τ → Prop :=
  Relation.ReflTransGen (fun s t => ∃ ℓ, ok ℓ ∧ Move ℓ s t)

namespace Chain

@[refl] theorem refl (s : τ) : Chain Move ok s s := Relation.ReflTransGen.refl

theorem one {ℓ : L} (hok : ok ℓ) (h : Move ℓ s t) : Chain Move ok s t :=
  Relation.ReflTransGen.single ⟨ℓ, hok, h⟩

theorem trans (h : Chain Move ok s t) (h' : Chain Move ok t u) : Chain Move ok s u :=
  Relation.ReflTransGen.trans h h'

theorem of_eq (h : s = t) : Chain Move ok s t := h ▸ refl s

theorem mono (h : Chain Move ok s t) (hok : ∀ ℓ, ok ℓ → ok' ℓ) : Chain Move ok' s t := by
  induction h with
  | refl => exact refl s
  | tail _ hst ih => obtain ⟨ℓ, hℓ, h⟩ := hst; exact ih.trans (one (hok ℓ hℓ) h)

/-- **The invariant rule for chains.** -/
theorem invariant {I : τ → Prop} (h : Chain Move ok s t) (h₀ : I s)
    (hmove : ∀ ℓ s t, ok ℓ → Move ℓ s t → I s → I t) : I t := by
  induction h with
  | refl => exact h₀
  | tail _ hst ih => obtain ⟨ℓ, hℓ, h⟩ := hst; exact hmove ℓ _ _ hℓ h ih

/-- A preorder kept by every move, under an invariant, relates the ends of a chain. -/
theorem rel {I : τ → Prop} {R : τ → τ → Prop} (h : Chain Move ok s t) (h₀ : I s)
    (hmove : ∀ ℓ s t, ok ℓ → Move ℓ s t → I s → I t) (hrefl : ∀ s, R s s)
    (htrans : ∀ s t u, R s t → R t u → R s u)
    (hrel : ∀ ℓ s t, ok ℓ → Move ℓ s t → I s → R s t) : R s t := by
  have key : I t ∧ R s t := by
    induction h with
    | refl => exact ⟨h₀, hrefl s⟩
    | tail _ hst ih =>
      obtain ⟨ℓ, hℓ, h⟩ := hst
      exact ⟨hmove ℓ _ _ hℓ h ih.1, htrans _ _ _ ih.2 (hrel ℓ _ _ hℓ h ih.1)⟩
  exact key.2

end Chain

end Runs
