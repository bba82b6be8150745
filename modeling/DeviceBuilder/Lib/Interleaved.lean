import Mathlib.Logic.Relation

/-!
# Programs whose calls interleave with others

A program is a tree of calls: it makes one call, waits for the answer and goes
on. While it waits, others move the state it shares with them.

* `Setting`: what others may do while a call is pending, what a call may answer
  and do, and what must hold whenever a call is made.
* `Safely S p Q s`: run from `s`, the program `p` makes every call safely and
  ends in `Q`, whatever the others do in between.
* `safely_bind`, `safely_ask`, `safely_foldlM`: the rules for a sequence, a call
  and a loop. An assertion that the others keep carries a call.
* `Safely.others`, `Safely.answered`, `Safely.safe`: what a step of the whole
  system keeps, and what it may assume of the pending call.
-/

namespace Interleaved

/-- A program that makes calls `op : Op` and goes on with their answers. -/
inductive Prog (Op : Type) (Ans : Op → Type) (α : Type) : Type
  | done (a : α)
  | call (op : Op) (next : Ans op → Prog Op Ans α)

variable {Op : Type} {Ans : Op → Type} {α β ι σ : Type}

namespace Prog

def bind (p : Prog Op Ans α) (f : α → Prog Op Ans β) : Prog Op Ans β :=
  match p with
  | .done a => f a
  | .call op next => .call op fun a => (next a).bind f

instance : Monad (Prog Op Ans) where
  pure := .done
  bind := bind

/-- A single call. -/
def ask (op : Op) : Prog Op Ans (Ans op) := .call op .done

/-- The call the program waits for. -/
def pending? : Prog Op Ans α → Option Op
  | .done _ => none
  | .call op _ => some op

end Prog

open Relation (ReflTransGen)

/-- The state a program shares with others. -/
structure Setting (Op : Type) (Ans : Op → Type) (σ : Type) where
  /-- One step of the others while `op` is pending. -/
  rely : Op → σ → σ → Prop
  /-- What `op` may answer, and the state it leaves. -/
  reply : (op : Op) → σ → Ans op → σ → Prop
  /-- What must hold when `op` takes effect. -/
  safe : Op → σ → Prop

variable {S : Setting Op Ans σ} {op : Op} {p : Prog Op Ans α} {f : α → Prog Op Ans β}
  {Q Q' : α → σ → Prop} {R : β → σ → Prop} {I P : σ → Prop} {s t : σ}

/-- From `s`, the program makes safe calls only and ends in `Q`. -/
def Safely (S : Setting Op Ans σ) : Prog Op Ans α → (α → σ → Prop) → σ → Prop
  | .done a, Q, s => Q a s
  | .call op next, Q, s => ∀ t, ReflTransGen (S.rely op) s t →
      S.safe op t ∧ ∀ a u, S.reply op t a u → Safely S (next a) Q u

@[simp] theorem safely_pure {a : α} : Safely S (pure a) Q s ↔ Q a s := Iff.rfl

theorem safely_bind : Safely S (p >>= f) R s ↔ Safely S p (fun a t => Safely S (f a) R t) s := by
  change Safely S (p.bind f) R s ↔ _
  induction p generalizing s with
  | done a => exact Iff.rfl
  | call op next ih => simp only [Prog.bind, Safely, ih]

theorem Safely.mono (h : Safely S p Q s) (hQ : ∀ a t, Q a t → Q' a t) : Safely S p Q' s := by
  induction p generalizing s with
  | done a => exact hQ a s h
  | call op next ih =>
    intro t ht
    obtain ⟨hs, ha⟩ := h t ht
    exact ⟨hs, fun a u hu => ih a (ha a u hu)⟩

/-- The sequence rule. -/
theorem Safely.bind (h : Safely S p Q s) (hf : ∀ a t, Q a t → Safely S (f a) R t) :
    Safely S (p >>= f) R s :=
  safely_bind.mpr (h.mono hf)

/-- **The call rule**, with an assertion that the others keep. -/
theorem safely_ask {Q : Ans op → σ → Prop} (hP : P s) (stable : ∀ t u, P t → S.rely op t u → P u)
    (safe : ∀ t, P t → S.safe op t) (answers : ∀ t a u, P t → S.reply op t a u → Q a u) :
    Safely S (Prog.ask op) Q s := by
  intro t ht
  have hPt : P t := by
    induction ht with
    | refl => exact hP
    | tail _ hr ih => exact stable _ _ ih hr
  exact ⟨safe t hPt, fun a u hu => answers t a u hPt hu⟩

/-- The loop rule: each turn keeps `I`. -/
theorem safely_foldlM {turn : β → ι → Prog Op Ans β} {l : List ι}
    (hturn : ∀ b, ∀ x ∈ l, ∀ t, I t → Safely S (turn b x) (fun _ => I) t) (b : β) (hI : I s) :
    Safely S (l.foldlM turn b) (fun _ => I) s := by
  induction l generalizing b s with
  | nil => exact hI
  | cons x l ih =>
    rw [List.foldlM_cons]
    exact (hturn b x (List.mem_cons_self ..) s hI).bind fun b' t ht =>
      ih (fun b y hy => hturn b y (List.mem_cons_of_mem x hy)) b' ht

/-! ### The steps of the whole system -/

/-- What others do while a call is pending leaves the rest of the program safe. -/
theorem Safely.others (h : Safely S p Q s) (hp : p.pending? = some op) (hr : S.rely op s t) :
    Safely S p Q t := by
  cases p with
  | done a => cases hp
  | call op' next =>
    cases hp
    exact fun u hu => h u (ReflTransGen.head hr hu)

/-- A pending call may be made as things are. -/
theorem Safely.safe (h : Safely S p Q s) (hp : p.pending? = some op) : S.safe op s := by
  cases p with
  | done a => cases hp
  | call op' next =>
    cases hp
    exact (h s .refl).1

/-- Once answered, the rest of the program is safe. -/
theorem Safely.answered {next : Ans op → Prog Op Ans α} (h : Safely S (.call op next) Q s)
    {a : Ans op} (hr : S.reply op s a t) : Safely S (next a) Q t :=
  (h s .refl).2 a t hr

end Interleaved
