import DeviceBuilder.Helpers.EventBus

/-!
# Delivery of streamed events

What reaches the client of `stream_events`. An item of `push_priority` lands as
long as no must-land item is the oldest of a full queue when room is made; the
events of `push_or_terminate` arrive without a gap as long as no event meets a
full queue of more than one slot.

* `forceEnqueue_full`: `_force_enqueue` evicts the oldest item.
* `priority_lands`: the first law.
* `stream_gapless`: the second.
* `stream_ordered`: under any use of the controls, what arrives is in order.
-/

namespace DeviceBuilder

/-- The payload of a must-land item. -/
def StreamItem.owed? {α : Type*} : StreamItem α → Option α
  | .data x true => some x
  | _ => none

/-- What an item carries to the client. -/
def StreamItem.payload? {α : Type*} : StreamItem α → Option α
  | .data x _ => some x
  | _ => none

/-- Is it an item for the client? -/
def StreamItem.isData {α : Type*} : StreamItem α → Bool
  | .data _ _ => true
  | _ => false

/-- What a call of a control offers to the client. -/
def StreamAction.payload? {α : Type*} : StreamAction α → Option α
  | .push x | .pushPriority x | .pushOrTerminate x => some x
  | .finish | .resume | .fail => none

namespace EventStream

open Runs

variable {α : Type*} {s t : EventStream α} {a : StreamAction α} {x : α} {m : ℤ}
  {item : StreamItem α} {q q₁ q₂ : List (StreamItem α)} {G : List α} {n : ℕ}

/-- A bounded queue is not longer than its bound. -/
def Bounded (s : EventStream α) : Prop := 0 < s.queueMax → (s.queue.length : ℤ) ≤ s.queueMax

@[simp] theorem queueFull_iff {k : ℕ} : queueFull m k = true ↔ 0 < m ∧ m ≤ k := by
  simp [queueFull]

theorem forceEnqueue_room (h : queueFull m q.length = false) :
    forceEnqueue m item q = q ++ [item] := by
  cases q with
  | nil => simp [forceEnqueue, queueFull]
  | cons head rest =>
    have hrest : queueFull m (rest.length + 1) = false := h
    rw [forceEnqueue, hrest]
    rfl

/-- **`_force_enqueue` evicts the oldest item** of a full queue. -/
theorem forceEnqueue_full (item : StreamItem α) (hb : (q.length : ℤ) ≤ m)
    (h : queueFull m q.length = true) :
    forceEnqueue m item q = q.tail ++ [item] := by
  obtain ⟨hm, hle⟩ := queueFull_iff.1 h
  cases q with
  | nil => simp at hle; omega
  | cons head rest =>
    rw [forceEnqueue, if_pos (by simpa using h)]
    refine forceEnqueue_room ?_
    rw [Bool.eq_false_iff, Ne, queueFull_iff]
    intro hfull
    simp only [List.length_cons] at hb
    omega

theorem length_forceEnqueue (hm : 0 < m) (hb : (q.length : ℤ) ≤ m) :
    ((forceEnqueue m item q).length : ℤ) ≤ m := by
  by_cases h : queueFull m q.length = true
  · rw [forceEnqueue_full item hb h, List.length_append, List.length_tail, List.length_singleton]
    have hq := queueFull_iff.1 h
    omega
  · have hroom := Bool.eq_false_iff.2 h
    rw [forceEnqueue_room hroom, List.length_append, List.length_singleton]
    rw [Bool.eq_false_iff, Ne, queueFull_iff] at hroom
    omega

/-- What the queue holds after room was made: the item is the newest, the oldest may be gone. -/
theorem forceEnqueue_cases (item : StreamItem α) (hb : 0 < m → (q.length : ℤ) ≤ m) :
    queueFull m q.length = false ∧ forceEnqueue m item q = q ++ [item] ∨
      queueFull m q.length = true ∧ ∃ head rest, q = head :: rest ∧
        forceEnqueue m item q = rest ++ [item] := by
  by_cases h : queueFull m q.length = true
  · right
    obtain ⟨hm, hle⟩ := queueFull_iff.1 h
    have hforce := forceEnqueue_full item (hb hm) h
    cases q with
    | nil => simp at hle; omega
    | cons head rest => exact ⟨h, head, rest, rfl, hforce⟩
  · have hroom := Bool.eq_false_iff.2 h
    exact .inl ⟨hroom, forceEnqueue_room hroom⟩

theorem loop_queue (s : EventStream α) :
    s.loop.queue = s.queue.tail ∧ s.loop.queueMax = s.queueMax := by
  unfold loop
  split <;> rename_i h <;> simp [h]

theorem bounded_step (h : s.Bounded) (a : StreamAction α) :
    (s.step a).Bounded ∧ (s.step a).queueMax = s.queueMax := by
  have hforce : ∀ item, 0 < s.queueMax →
      ((forceEnqueue s.queueMax item s.queue).length : ℤ) ≤ s.queueMax :=
    fun item hm => length_forceEnqueue hm (h hm)
  have hroom : ∀ {item}, s.full = false → 0 < s.queueMax →
      ((s.queue ++ [item]).length : ℤ) ≤ s.queueMax := by
    intro item hf hm
    have hf : ¬ queueFull s.queueMax s.queue.length = true := Bool.eq_false_iff.1 hf
    rw [queueFull_iff] at hf
    rw [List.length_append, List.length_singleton]
    omega
  have hloop : ∀ u : EventStream α, u.queue = s.queue → u.queueMax = s.queueMax →
      u.loop.Bounded ∧ u.loop.queueMax = s.queueMax := by
    intro u hq hm
    obtain ⟨h1, h2⟩ := u.loop_queue
    refine ⟨fun hpos => ?_, h2.trans hm⟩
    rw [h2, hm] at hpos ⊢
    have := h hpos
    rw [h1, hq, List.length_tail]
    omega
  unfold step
  split
  · cases a with
    | push x =>
      dsimp only [push]
      split
      · exact ⟨h, rfl⟩
      · rename_i hf
        exact ⟨fun hm => hroom (by simpa using hf) hm, rfl⟩
    | pushPriority x => exact ⟨hforce _, rfl⟩
    | pushOrTerminate x =>
      dsimp only [pushOrTerminate]
      split
      · exact ⟨hforce _, rfl⟩
      · rename_i hf
        exact ⟨fun hm => hroom (by simpa using hf) hm, rfl⟩
    | finish => exact ⟨hforce _, rfl⟩
    | resume =>
      dsimp only [resume]
      split
      · exact ⟨h, rfl⟩
      · exact hloop _ rfl rfl
      · exact hloop _ rfl rfl
      · exact hloop _ rfl rfl
      · exact ⟨h, rfl⟩
      · exact ⟨h, rfl⟩
      · exact ⟨h, rfl⟩
    | fail => exact ⟨h, rfl⟩
  · exact ⟨h, rfl⟩

/-! ### Must-land items -/

/-- The must-land items the client received. -/
def landed (s : EventStream α) : List α := s.sent.filterMap fun e => if e.2 then some e.1 else none

/-- The must-land item that is being sent. -/
def inHand (s : EventStream α) : List α :=
  match s.phase with
  | .sending x true => [x]
  | _ => []

/-- The must-land items of a queue. -/
def owed (q : List (StreamItem α)) : List α := q.filterMap StreamItem.owed?

/-- Steps of a stream that only uses `push`, `push_priority` and `end`, and whose drain loop keeps
running. -/
def Plain : StreamAction α → Prop
  | .push _ | .pushPriority _ | .finish | .resume => True
  | .pushOrTerminate _ | .fail => False

/-- Where room is made, the oldest item is no must-land item given before `end()`. -/
def Spares (s : EventStream α) : StreamAction α → Prop
  | .pushPriority _ | .finish => s.full = true → ∀ x, s.queue.head? ≠ some (.data x true)
  | _ => True

/-- **Nothing given to `push_priority` was lost.** -/
structure Kept (s : EventStream α) : Prop where
  bounded : s.Bounded
  running : s.listening = true ∨ s.phase = .returned
  given : s.listening = true → s.given = s.landed ++ s.inHand ++ owed s.queue
  returned : s.phase = .returned → s.given = s.landed
  /-- What follows the sentinel of `end()` was given after it. -/
  order : s.queue.Pairwise fun i j => i = .done → j.owed? = none
  ending : s.ended = false → .done ∉ s.queue
  clean : .terminate ∉ s.queue

@[simp] theorem owed_append : owed (q₁ ++ q₂) = owed q₁ ++ owed q₂ := List.filterMap_append

@[simp] theorem owed_nil : owed ([] : List (StreamItem α)) = [] := rfl

@[simp] theorem owed_cons : owed (item :: q) = item.owed?.toList ++ owed q := by
  unfold owed
  rw [List.filterMap_cons]
  cases item.owed? <;> rfl

theorem landed_step (s : EventStream α) (a : StreamAction α) : s.landed <+: (s.step a).landed := by
  have hloop : ∀ u : EventStream α, u.loop.landed = u.landed := by
    intro u
    unfold loop landed
    split <;> rfl
  have hsent : ∀ e : α × Bool,
      s.landed <+: ({ s with sent := s.sent ++ [e] } : EventStream α).landed := by
    intro e
    unfold landed
    rw [List.filterMap_append]
    exact List.prefix_append ..
  unfold step
  split
  · cases a with
    | push x => dsimp only [push]; split <;> exact List.prefix_refl _
    | pushOrTerminate x => dsimp only [pushOrTerminate]; split <;> exact List.prefix_refl _
    | resume =>
      dsimp only [resume]
      split
      · rename_i x rest h
        exact hsent (x, false)
      · exact (hloop s).symm ▸ List.prefix_refl _
      · exact (hloop s).symm ▸ List.prefix_refl _
      · rename_i x o h
        rw [hloop]
        exact hsent (x, o)
      all_goals exact List.prefix_refl _
    | _ => exact List.prefix_refl _
  · exact List.prefix_refl _

/-- The oldest item of the queue that is no must-land item may go. -/
theorem owed_forceEnqueue (item : StreamItem α) (hb : s.Bounded)
    (hs : s.full = true → ∀ x, s.queue.head? ≠ some (.data x true)) :
    owed (forceEnqueue s.queueMax item s.queue) = owed s.queue ++ owed [item] ∧
      ∃ q, q <:+ s.queue ∧ forceEnqueue s.queueMax item s.queue = q ++ [item] := by
  rcases forceEnqueue_cases item hb with ⟨-, h⟩ | ⟨hf, head, rest, hq, h⟩
  · rw [h]
    exact ⟨owed_append, s.queue, List.suffix_refl _, rfl⟩
  · have hhead : head.owed? = none := by
      have hne := hs hf
      rw [hq] at hne
      cases head with
      | data x o =>
        cases o with
        | true => exact absurd rfl (hne x)
        | false => rfl
      | _ => rfl
    have howed : owed (head :: rest) = owed rest := by rw [owed_cons, hhead]; rfl
    rw [h, owed_append, hq, howed]
    exact ⟨rfl, rest, List.suffix_cons .., rfl⟩

/-- An item that is put in keeps the queue in order. -/
theorem Kept.order_append (h : s.Kept) (hq : q <:+ s.queue)
    (hitem : .done ∈ s.queue → item.owed? = none) :
    (q ++ [item]).Pairwise fun i j => i = .done → j.owed? = none := by
  rw [List.pairwise_append]
  refine ⟨h.order.sublist hq.sublist, List.pairwise_singleton .., fun i hi j hj he => ?_⟩
  rw [List.mem_singleton.1 hj]
  exact hitem (he ▸ hq.sublist.subset hi)

theorem kept_loop (hb : s.Bounded) (ho : s.queue.Pairwise fun i j => i = .done → j.owed? = none)
    (he : s.ended = false → .done ∉ s.queue) (hc : .terminate ∉ s.queue)
    (hg : s.given = s.landed ++ owed s.queue) : s.loop.Kept := by
  obtain ⟨hbl, hml⟩ := s.loop_queue
  have hbound : s.loop.Bounded := by
    intro hm
    rw [hml] at hm ⊢
    rw [hbl, List.length_tail]
    have := hb hm
    omega
  unfold EventStream.loop at hbound ⊢
  split
  · rename_i hq
    rw [hq] at hg
    refine ⟨hb, .inl rfl, fun _ => ?_, nofun, ho, he, hc⟩
    show s.given = (s.landed ++ []) ++ owed s.queue
    rw [hq, List.append_nil]
    exact hg
  · rename_i rest hq
    rw [hq] at hg ho he hc hbound
    obtain ⟨hrest, ho'⟩ := List.pairwise_cons.1 ho
    have hnone : owed rest = [] := List.filterMap_eq_nil_iff.2 fun i hi => hrest i hi rfl
    refine ⟨?_, .inr rfl, nofun, fun _ => ?_, ho', fun h => ?_,
      fun h => hc (List.mem_cons_of_mem _ h)⟩
    · exact fun hm => by have := hb hm; rw [hq, List.length_cons] at this; simp only; omega
    · show s.given = s.landed
      simpa [hnone, StreamItem.owed?] using hg
    · exact fun hmem => he h (List.mem_cons_of_mem _ hmem)
  · rename_i rest hq
    exact absurd (hq ▸ List.mem_cons_self ..) hc
  · rename_i x o rest hq
    rw [hq] at hg ho he hc
    refine ⟨?_, .inl rfl, fun _ => ?_, nofun, (List.pairwise_cons.1 ho).2, fun h hmem => ?_,
      fun h => hc (List.mem_cons_of_mem _ h)⟩
    · exact fun hm => by have := hb hm; rw [hq, List.length_cons] at this; simp only; omega
    · rw [owed_cons] at hg
      cases o <;> simpa [inHand, StreamItem.owed?, landed] using hg
    · exact he h (List.mem_cons_of_mem _ hmem)

theorem kept_step (h : s.Kept) (ha : Plain a) (hs : s.Spares a) : (s.step a).Kept := by
  have hbound := (bounded_step h.bounded a).1
  unfold step at hbound ⊢
  split
  swap
  · exact h
  rename_i hl
  rw [if_pos hl] at hbound
  have hg := h.given hl
  have hne : s.phase ≠ .returned := fun hp => by rw [listening, hp] at hl; cases hl
  cases a with
  | push x =>
    dsimp only [push] at hbound ⊢
    split
    · exact h
    · rename_i hf
      rw [if_neg hf] at hbound
      refine ⟨hbound, .inl hl, fun _ => ?_, fun hp => absurd hp hne,
        h.order_append (List.suffix_refl _) fun _ => rfl, fun he => ?_, ?_⟩
      · show s.given = s.landed ++ s.inHand ++ owed (s.queue ++ [.data x false])
        simpa [StreamItem.owed?] using hg
      · simpa using h.ending he
      · simpa using h.clean
  | pushPriority x =>
    obtain ⟨howed, q, hq, hforce⟩ := owed_forceEnqueue (.data x !s.ended) h.bounded hs
    have hsub : ∀ i ∈ q, i ∈ s.queue := fun i hi => hq.sublist.subset hi
    refine ⟨hbound, .inl hl, fun _ => ?_, fun hp => absurd hp hne, ?_, fun he => ?_, ?_⟩
    · show (if s.ended then s.given else s.given ++ [x]) = s.landed ++ s.inHand ++
        owed (forceEnqueue s.queueMax (.data x !s.ended) s.queue)
      rw [howed]
      cases he : s.ended <;> simp [StreamItem.owed?, hg]
    · show List.Pairwise _ (forceEnqueue s.queueMax (.data x !s.ended) s.queue)
      rw [hforce]
      refine h.order_append hq fun hdone => ?_
      -- the sentinel is in the queue, so this comes after `end()`
      cases he : s.ended with
      | true => rfl
      | false => exact absurd hdone (h.ending he)
    · show _ ∉ forceEnqueue s.queueMax (.data x !s.ended) s.queue
      rw [hforce, List.mem_append, List.mem_singleton]
      rintro (hmem | he')
      · exact h.ending he (hsub _ hmem)
      · cases he'
    · show _ ∉ forceEnqueue s.queueMax (.data x !s.ended) s.queue
      rw [hforce, List.mem_append, List.mem_singleton]
      rintro (hmem | he')
      · exact h.clean (hsub _ hmem)
      · cases he'
  | finish =>
    obtain ⟨howed, q, hq, hforce⟩ := owed_forceEnqueue .done h.bounded hs
    have hsub : ∀ i ∈ q, i ∈ s.queue := fun i hi => hq.sublist.subset hi
    refine ⟨hbound, .inl hl, fun _ => ?_, fun hp => absurd hp hne, ?_, nofun, ?_⟩
    · show s.given = s.landed ++ s.inHand ++ owed (forceEnqueue s.queueMax .done s.queue)
      rw [howed]
      simpa [StreamItem.owed?] using hg
    · show List.Pairwise _ (forceEnqueue s.queueMax .done s.queue)
      rw [hforce]
      exact h.order_append hq fun _ => rfl
    · show _ ∉ forceEnqueue s.queueMax .done s.queue
      rw [hforce, List.mem_append, List.mem_singleton]
      rintro (hmem | he')
      · exact h.clean (hsub _ hmem)
      · cases he'
  | resume =>
    dsimp only [resume] at hbound ⊢
    split
    · rename_i x rest hp
      rw [hp] at hbound
      refine ⟨hbound, .inl rfl, fun _ => ?_, nofun, h.order, h.ending, h.clean⟩
      have hhand : s.inHand = [] := by simp [inHand, hp]
      rw [hhand, List.append_nil] at hg
      show s.given = List.filterMap _ (s.sent ++ [(x, false)]) ++ [] ++ owed s.queue
      simpa [landed] using hg
    · rename_i hp
      refine kept_loop h.bounded h.order h.ending h.clean ?_
      simpa [inHand, hp] using hg
    · rename_i hp
      refine kept_loop h.bounded h.order h.ending h.clean ?_
      simpa [inHand, hp] using hg
    · rename_i x o hp
      -- what was in hand has landed
      refine kept_loop h.bounded h.order h.ending h.clean ?_
      show s.given = List.filterMap _ (s.sent ++ [(x, o)]) ++ owed s.queue
      cases o <;> simpa [inHand, hp, landed] using hg
    all_goals exact h
  | pushOrTerminate | fail => exact ha.elim

/-! ### Liveness -/

/-- The steps of the coroutine. -/
def isResume : StreamAction α → Bool
  | .resume => true
  | _ => false

/-- How many awaits end before the coroutine takes the next item. -/
def awaits (s : EventStream α) : ℕ :=
  match s.phase with
  | .seeding rest => rest.length + 1
  | .getting | .sending _ _ => 1
  | .returned | .raised | .failed => 0

theorem awaits_pos (h : s.listening = true) : 0 < s.awaits := by
  cases hp : s.phase <;> simp_all [listening, awaits]

/-- All of `G` landed, or lands when `n` more awaits are over: the rest of it is in hand, and in a
part of the queue that no sentinel precedes. -/
def Lands (G : List α) (n : ℕ) (s : EventStream α) : Prop :=
  G <+: s.landed ∨ s.listening = true ∧ ∃ q₁ q₂, s.queue = q₁ ++ q₂ ∧
    (∀ i ∈ q₁, i.isData = true) ∧ G = s.landed ++ s.inHand ++ owed q₁ ∧ q₁.length + s.awaits ≤ n

/-- The items before the sentinel of `end()` hold all that is owed. -/
theorem split_owed (ho : q.Pairwise fun i j => i = .done → j.owed? = none) (hc : .terminate ∉ q) :
    ∃ q₁ q₂, q = q₁ ++ q₂ ∧ (∀ i ∈ q₁, i.isData = true) ∧ owed q = owed q₁ := by
  induction q with
  | nil => exact ⟨[], [], rfl, nofun, rfl⟩
  | cons item q ih =>
    obtain ⟨hitem, hrest⟩ := List.pairwise_cons.1 ho
    rw [List.mem_cons, not_or] at hc
    cases item with
    | data x o =>
      obtain ⟨q₁, q₂, rfl, hdata, howed⟩ := ih hrest hc.2
      refine ⟨.data x o :: q₁, q₂, rfl, ?_, by rw [owed_cons, owed_cons, howed]⟩
      intro i hi
      rcases List.mem_cons.1 hi with rfl | hi
      · rfl
      · exact hdata i hi
    | terminate => exact absurd rfl hc.1
    | done =>
      have hnone : owed q = [] := List.filterMap_eq_nil_iff.2 fun i hi => hitem i hi rfl
      refine ⟨[], .done :: q, rfl, nofun, ?_⟩
      rw [owed_cons, hnone]
      rfl

/-- The loop takes the next item of what is to land. -/
theorem lands_loop (hs : s.queue = q₁ ++ q₂) (hd : ∀ i ∈ q₁, i.isData = true)
    (hG : G = s.landed ++ owed q₁) (hn : q₁.length ≤ n) : Lands G n s.loop := by
  cases q₁ with
  | nil =>
    left
    have hl : s.loop.landed = s.landed := by unfold loop landed; split <;> rfl
    rw [hl, hG]
    simp
  | cons item rest =>
    right
    have hitem := hd item (List.mem_cons_self ..)
    cases item with
    | data x o =>
      have hq : s.queue = .data x o :: (rest ++ q₂) := hs
      unfold loop
      simp only [hq]
      refine ⟨rfl, rest, q₂, rfl, fun i hi => hd i (List.mem_cons_of_mem _ hi), ?_, ?_⟩
      · rw [hG, owed_cons]
        cases o <;> simp [inHand, landed, StreamItem.owed?]
      · show rest.length + 1 ≤ n
        exact hn
    | terminate | done => cases hitem

theorem lands_step (hb : s.Bounded) (ha : Plain a) (hs : s.Spares a) (h : Lands G n s) :
    Lands G (if isResume a then n - 1 else n) (s.step a) := by
  rcases h with h | ⟨hl, q₁, q₂, hq, hd, hG, hn⟩
  · exact .inl (h.trans (landed_step s a))
  · unfold step
    rw [if_pos hl]
    -- an item put in comes after what is to land, and what goes for it was not to land
    have hforce : ∀ item : StreamItem α,
        (s.full = true → ∀ x, s.queue.head? ≠ some (.data x true)) →
        ∃ q₁' q₂', forceEnqueue s.queueMax item s.queue = q₁' ++ q₂' ∧
          (∀ i ∈ q₁', i.isData = true) ∧ owed q₁' = owed q₁ ∧ q₁'.length ≤ q₁.length := by
      intro item hhead
      rcases forceEnqueue_cases item hb with ⟨-, hf⟩ | ⟨hfull, head, rest, hh, hf⟩
      · refine ⟨q₁, q₂ ++ [item], ?_, hd, rfl, Nat.le_refl _⟩
        rw [hf, hq, List.append_assoc]
      · cases q₁ with
        | nil => exact ⟨[], rest ++ [item], hf, nofun, rfl, Nat.le_refl _⟩
        | cons i q₁ =>
          have hcons : i :: (q₁ ++ q₂) = head :: rest := hq.symm.trans hh
          obtain ⟨rfl, rfl⟩ := List.cons_eq_cons.1 hcons
          have hne := hhead hfull
          rw [hq] at hne
          refine ⟨q₁, q₂ ++ [item], ?_, fun j hj => hd j (List.mem_cons_of_mem _ hj), ?_, ?_⟩
          · rw [hf, List.append_assoc]
          · have hi := hd i (List.mem_cons_self ..)
            cases i with
            | data x o =>
              cases o with
              | true => exact absurd rfl (hne x)
              | false => rw [owed_cons]; rfl
            | terminate | done => cases hi
          · simp
    cases a with
    | push x =>
      show Lands G n (s.push x)
      unfold push
      split
      · exact .inr ⟨hl, q₁, q₂, hq, hd, hG, hn⟩
      · refine .inr ⟨hl, q₁, q₂ ++ [.data x false], ?_, hd, hG, hn⟩
        show s.queue ++ _ = _
        rw [hq, List.append_assoc]
    | pushPriority x =>
      obtain ⟨q₁', q₂', hf, hd', ho, hle⟩ := hforce (.data x !s.ended) hs
      show Lands G n (s.pushPriority x)
      refine .inr ⟨hl, q₁', q₂', hf, hd', ?_, ?_⟩
      · rw [ho]; exact hG
      · exact Nat.le_trans (Nat.add_le_add_right hle _) hn
    | finish =>
      obtain ⟨q₁', q₂', hf, hd', ho, hle⟩ := hforce .done hs
      show Lands G n s.finish
      refine .inr ⟨hl, q₁', q₂', hf, hd', ?_, ?_⟩
      · rw [ho]; exact hG
      · exact Nat.le_trans (Nat.add_le_add_right hle _) hn
    | resume =>
      show Lands G (n - 1) s.resume
      unfold resume
      unfold awaits at hn
      split
      · rename_i x rest hp
        rw [hp] at hn
        refine .inr ⟨rfl, q₁, q₂, hq, hd, ?_, ?_⟩
        · have hhand : s.inHand = [] := by simp [inHand, hp]
          rw [hG, hhand]
          show _ = List.filterMap _ (s.sent ++ [(x, false)]) ++ [] ++ owed q₁
          simp [landed]
        · show q₁.length + (rest.length + 1) ≤ n - 1
          simp only [List.length_cons] at hn
          omega
      · rename_i hp
        rw [hp] at hn
        refine lands_loop hq hd ?_ (by simp only [List.length_nil] at hn; omega)
        simpa [inHand, hp] using hG
      · rename_i hp
        rw [hp] at hn
        refine lands_loop hq hd ?_ (by simp only at hn; omega)
        simpa [inHand, hp] using hG
      · rename_i x o hp
        rw [hp] at hn
        refine lands_loop hq hd ?_ (by simp only at hn; omega)
        show G = List.filterMap _ (s.sent ++ [(x, o)]) ++ owed q₁
        cases o <;> simpa [inHand, hp, landed] using hG
      all_goals rename_i hp; rw [listening, hp] at hl; cases hl
    | pushOrTerminate | fail => exact ha.elim

theorem kept_reachable {queueMax : ℤ} {initial : List α}
    (h : Reaches step (fun s a => Plain a ∧ s.Spares a) (init queueMax initial) s) : s.Kept := by
  refine h.invariant ?_ fun s a ha hk => kept_step hk ha.1 ha.2
  refine ⟨fun hm => ?_, .inl rfl, fun _ => rfl, nofun, List.Pairwise.nil, fun _ => List.not_mem_nil,
    List.not_mem_nil⟩
  simp only [init, List.length_nil] at hm ⊢
  omega

theorem landed_sublist (s : EventStream α) : s.landed.Sublist (s.sent.map Prod.fst) := by
  unfold landed
  induction s.sent with
  | nil => exact .slnil
  | cons e rest ih =>
    obtain ⟨x, o⟩ := e
    cases o with
    | true => exact ih.cons_cons x
    | false => exact ih.cons x

/-- **Items of `push_priority` land**, in the order given, when the drain loop goes on: for any
capacity, in runs that make room only where no must-land item is the oldest. -/
theorem priority_lands {queueMax : ℤ} {initial : List α} {as : List (StreamAction α)}
    (h : Reaches step (fun s a => Plain a ∧ s.Spares a) (init queueMax initial) s)
    (has : Along step (fun s a => Plain a ∧ s.Spares a) s as)
    (hn : s.queue.length + s.awaits ≤ as.countP isResume) :
    s.given <+: (s.run as).landed ∧ (s.run as).landed.Sublist ((s.run as).sent.map Prod.fst) := by
  have hk := kept_reachable h
  refine ⟨?_, landed_sublist _⟩
  have hstart : Lands s.given (as.countP isResume) s := by
    rcases hk.running with hl | hr
    · obtain ⟨q₁, q₂, hq, hd, ho⟩ := split_owed hk.order hk.clean
      refine .inr ⟨hl, q₁, q₂, hq, hd, ?_, ?_⟩
      · rw [hk.given hl, ho]
      · rw [hq, List.length_append] at hn
        omega
    · exact .inl (hk.returned hr ▸ List.prefix_refl _)
  have hend := has.count (I := fun n u => u.Bounded ∧ Lands s.given n u) isResume
    ⟨hk.bounded, hstart⟩ fun n u a ha hu =>
      ⟨(bounded_step hu.1 a).1, lands_step hu.1 ha.1 ha.2 hu.2⟩
  rw [Nat.sub_self] at hend
  rcases hend.2 with hdone | ⟨hl, q₁, q₂, -, -, -, hle⟩
  · exact hdone
  · -- a coroutine that runs still has an await before it
    have hpos : 0 < (s.run as).awaits := awaits_pos hl
    have hz : q₁.length + (s.run as).awaits ≤ 0 := hle
    omega

/-- An overflow takes an item of lower priority: the must-land item arrives. -/
theorem priority_lands_overflow :
    let s := (init 2 ["snapshot"]).run [.push "output", .push "progress", .pushPriority "started"]
    let t := s.run [.resume, .pushPriority "done", .resume, .resume, .resume]
    s.given <+: t.landed ∧ t.landed.Sublist (t.sent.map Prod.fst) := by
  have hs : Along step (fun s a => Plain a ∧ s.Spares a) (init 2 ["snapshot"])
      [.push "output", .push "progress", .pushPriority "started"] :=
    ⟨⟨trivial, trivial⟩, ⟨trivial, trivial⟩, ⟨trivial, fun _ x hx => by cases hx⟩, trivial⟩
  refine priority_lands hs.reaches ?_ (by decide)
  exact ⟨⟨trivial, trivial⟩, ⟨trivial, fun _ x hx => by cases hx⟩, ⟨trivial, trivial⟩,
    ⟨trivial, trivial⟩, ⟨trivial, trivial⟩, trivial⟩

/-- Three must-land items and two slots: the first one is evicted, and the loop drains the rest. -/
theorem priority_evicted :
    let s := (init 2 ([] : List ℕ)).run [.pushPriority 1, .pushPriority 2, .pushPriority 3]
    let t := s.run [.resume, .resume, .resume]
    s.given = [1, 2, 3] ∧ t.sent = [(2, true), (3, true)] ∧ t.queue = [] ∧
      ∀ n, t.run (List.replicate n .resume) = t := by
  refine ⟨rfl, rfl, rfl, fun n => ?_⟩
  induction n with
  | zero => rfl
  | succ n ih => exact ih

/-! ### Streams that tear down -/

/-- Steps of a stream whose events all go through `push_or_terminate`. -/
def Feeds : StreamAction α → Prop
  | .pushOrTerminate _ | .resume | .fail => True
  | .push _ | .pushPriority _ | .finish => False

/-- No event meets a full queue, unless the queue has one slot. -/
def Fits (s : EventStream α) : StreamAction α → Prop
  | .pushOrTerminate _ => s.full = true → s.queueMax ≤ 1
  | _ => True

/-- No event meets a full queue whose oldest item is the terminate marker, unless the queue has
one slot. -/
def Heeds (s : EventStream α) : StreamAction α → Prop
  | .pushOrTerminate _ => s.full = true → s.queue.head? = some .terminate → s.queueMax ≤ 1
  | _ => True

theorem Fits.heeds (h : s.Fits a) : s.Heeds a := by
  cases a with
  | pushOrTerminate x => exact fun hf _ => h hf
  | _ => trivial

/-- The client received this so far. -/
def received (s : EventStream α) : List α := s.sent.map Prod.fst

/-- What the items of a queue carry. -/
def payloads (q : List (StreamItem α)) : List α := q.filterMap StreamItem.payload?

/-- What the coroutine holds for the client. -/
def pending (s : EventStream α) : List α :=
  match s.phase with
  | .seeding rest => rest
  | .sending x _ => [x]
  | .getting | .returned | .raised | .failed => []

/-- What the client still receives when nothing more happens to the queue. -/
def ahead (s : EventStream α) : List α :=
  s.pending ++ if s.listening then payloads s.queue else []

/-- **What arrived and what is ahead is the initial payload and the first events.** -/
structure Gapless (s : EventStream α) : Prop where
  bounded : s.Bounded
  received : s.received ++ s.ahead <+: s.initial ++ s.fired
  /-- Before an overflow nothing is missing. -/
  whole : s.listening = true → s.dropped = false →
    s.received ++ s.ahead = s.initial ++ s.fired ∧ ∀ i ∈ s.queue, i.isData = true
  /-- After one there is nothing but the marker. -/
  torn : s.listening = true → s.dropped = true → s.queue = [.terminate] ∧ s.full = true

theorem payloads_append : payloads (q₁ ++ q₂) = payloads q₁ ++ payloads q₂ := List.filterMap_append

/-- The next item of the queue is taken in hand. -/
theorem ahead_loop (hd : ∀ i ∈ s.queue, i.isData = true) :
    s.loop.ahead = payloads s.queue ∧ s.loop.listening = true ∧
      ∀ i ∈ s.loop.queue, i.isData = true := by
  cases hq : s.queue with
  | nil => simp [loop, ahead, pending, hq, listening, payloads]
  | cons item rest =>
    rw [hq] at hd
    have hitem := hd item (List.mem_cons_self ..)
    cases item with
    | data x o =>
      simp only [loop, hq]
      exact ⟨rfl, rfl, fun i hi => hd i (List.mem_cons_of_mem _ hi)⟩
    | terminate | done => cases hitem

theorem loop_history (s : EventStream α) : s.loop.sent = s.sent ∧ s.loop.initial = s.initial ∧
    s.loop.fired = s.fired ∧ s.loop.dropped = s.dropped := by
  unfold loop
  split <;> exact ⟨rfl, rfl, rfl, rfl⟩

/-- The loop runs, and what it holds so far is in order. -/
theorem gapless_loop (hb : s.Bounded) (hp : s.received ++ payloads s.queue <+: s.initial ++ s.fired)
    (hw : s.dropped = false → s.received ++ payloads s.queue = s.initial ++ s.fired ∧
      ∀ i ∈ s.queue, i.isData = true)
    (ht : s.dropped = true → s.queue = [.terminate] ∧ s.full = true) : s.loop.Gapless := by
  obtain ⟨h1, h2, h3, h4⟩ := s.loop_history
  obtain ⟨hq, hm⟩ := s.loop_queue
  have hbound : s.loop.Bounded := by
    intro hpos
    rw [hm] at hpos ⊢
    rw [hq, List.length_tail]
    have := hb hpos
    omega
  have hrec : s.loop.received = s.received := by rw [received, h1]; rfl
  cases hd : s.dropped with
  | true =>
    -- the marker is taken: the loop raises
    have hl : s.loop = { s with queue := [], phase := .raised } := by
      simp only [loop, (ht hd).1]
    refine ⟨hbound, ?_, ?_, ?_⟩
    · rw [hl]
      show s.received ++ [] <+: s.initial ++ s.fired
      rw [List.append_nil]
      exact (List.prefix_append ..).trans hp
    · rw [hl]; nofun
    · rw [hl]; nofun
  | false =>
    obtain ⟨heq, hdata⟩ := hw hd
    obtain ⟨ha, hl, hdata'⟩ := ahead_loop hdata
    refine ⟨hbound, ?_, fun _ _ => ⟨?_, hdata'⟩, fun _ h => ?_⟩
    · rw [hrec, ha, h2, h3]; exact hp
    · rw [hrec, ha, h2, h3]; exact heq
    · rw [h4, hd] at h; cases h

theorem ahead_listening (h : s.listening = true) : s.ahead = s.pending ++ payloads s.queue := by
  rw [ahead, if_pos h]

theorem gapless_step (ha : Feeds a) (hs : s.Fits a) (h : s.Gapless) : (s.step a).Gapless := by
  have hb := (bounded_step h.bounded a).1
  unfold step at hb ⊢
  split
  · rename_i hl
    rw [if_pos hl] at hb
    have hrec := h.received
    rw [ahead_listening hl] at hrec
    cases a with
    | pushOrTerminate x =>
      show (s.pushOrTerminate x).Gapless
      have hfired : s.initial ++ s.fired <+: s.initial ++ (s.fired ++ [x]) := by
        rw [← List.append_assoc]
        exact List.prefix_append ..
      dsimp only [pushOrTerminate] at hb ⊢
      split
      · -- one slot: the marker takes it
        rename_i hf
        rw [if_pos hf] at hb
        have hone := hs hf
        have hpos := (queueFull_iff.1 hf).1
        have hqueue : forceEnqueue s.queueMax .terminate s.queue = [.terminate] := by
          have hlen := h.bounded hpos
          have hforce := forceEnqueue_full .terminate hlen hf
          have htail : s.queue.tail = [] := by
            rw [← List.length_eq_zero_iff, List.length_tail]
            omega
          rw [hforce, htail]
          rfl
        simp only [hqueue] at hb ⊢
        refine ⟨hb, ?_, fun _ hd => (nomatch hd), fun _ _ => ⟨rfl, ?_⟩⟩
        · show s.received ++ (s.pending ++ if s.listening then [] else []) <+: _
          rw [if_pos hl]
          have hless : s.received ++ s.pending <+: s.initial ++ s.fired := by
            refine List.IsPrefix.trans ?_ hrec
            rw [← List.append_assoc]
            exact List.prefix_append ..
          show s.received ++ (s.pending ++ []) <+: s.initial ++ (s.fired ++ [x])
          rw [List.append_nil]
          exact hless.trans hfired
        · rw [full, queueFull_iff]
          exact ⟨hpos, hone⟩
      · rename_i hf
        rw [if_neg hf] at hb
        have hd : s.dropped = false := by
          cases hd : s.dropped with
          | false => rfl
          | true => exact absurd (h.torn hl hd).2 hf
        obtain ⟨hw, hdata⟩ := h.whole hl hd
        rw [ahead_listening hl] at hw
        have hall : s.received ++ (s.pending ++ payloads (s.queue ++ [.data x false])) =
            s.initial ++ (s.fired ++ [x]) := by
          rw [payloads_append, ← List.append_assoc s.initial, ← hw]
          simp only [List.append_assoc]
          rfl
        refine ⟨hb, ?_, fun _ _ => ⟨?_, ?_⟩, fun _ hd' => ?_⟩
        · show s.received ++ (s.pending ++ if s.listening then _ else []) <+: _
          rw [if_pos hl]
          exact hall ▸ List.prefix_refl _
        · show s.received ++ (s.pending ++ if s.listening then _ else []) = _
          rw [if_pos hl]
          exact hall
        · intro i hi
          rcases List.mem_append.1 hi with hi | hi
          · exact hdata i hi
          · rw [List.mem_singleton.1 hi]; rfl
        · exact absurd hd' (by rw [hd]; nofun)
    | resume =>
      show s.resume.Gapless
      dsimp only [resume] at hb ⊢
      have hwhole := h.whole hl
      rw [ahead_listening hl] at hwhole
      have htorn := h.torn hl
      unfold pending at hrec hwhole
      split
      · rename_i x rest hp
        rw [hp] at hrec hwhole
        have hmove : ∀ l : List α, s.received ++ (x :: rest ++ l) =
            List.map Prod.fst (s.sent ++ [(x, false)]) ++ (rest ++ l) := by
          intro l
          simp [received]
        rw [hmove] at hrec
        simp only [hmove] at hwhole
        exact ⟨h.bounded, hrec, fun _ => hwhole, fun _ => htorn⟩
      · rename_i hp
        rw [hp] at hrec hwhole
        exact gapless_loop h.bounded hrec hwhole htorn
      · rename_i hp
        rw [hp] at hrec hwhole
        exact gapless_loop h.bounded hrec hwhole htorn
      · rename_i x o hp
        rw [hp] at hrec hwhole
        have hmove : ∀ l : List α, s.received ++ ([x] ++ l) =
            List.map Prod.fst (s.sent ++ [(x, o)]) ++ l := by
          intro l
          simp [received]
        rw [hmove] at hrec
        simp only [hmove] at hwhole
        exact gapless_loop h.bounded hrec hwhole htorn
      all_goals exact h
    | fail =>
      refine ⟨hb, ?_, nofun, nofun⟩
      show s.received ++ [] <+: s.initial ++ s.fired
      rw [List.append_nil]
      exact (List.prefix_append ..).trans hrec
    | push | pushPriority | finish => exact ha.elim
  · exact h

theorem gapless_reachable {queueMax : ℤ} {initial : List α}
    (h : Reaches step (fun s a => Feeds a ∧ s.Fits a) (init queueMax initial) s) : s.Gapless := by
  refine h.invariant ?_ fun s a ha hg => gapless_step ha.1 ha.2 hg
  refine ⟨fun hm => ?_, ?_, fun _ _ => ⟨?_, nofun⟩, nofun⟩
  · simp only [init, List.length_nil] at hm ⊢
    omega
  · simp [init, ahead, pending, listening, received, payloads]
  · simp [init, ahead, pending, listening, received, payloads]

/-- An overflow leaves the marker in the queue until the loop takes it. -/
structure Marked (s : EventStream α) : Prop where
  bounded : s.Bounded
  open_ : s.phase ≠ .returned
  noEnd : .done ∉ s.queue
  marked : s.listening = true → s.dropped = true → .terminate ∈ s.queue

/-- The loop raises when `n` more awaits are over. -/
def Tears (n : ℕ) (s : EventStream α) : Prop :=
  s.phase = .raised ∨ s.listening = true ∧ ∃ q₁ q₂, s.queue = q₁ ++ .terminate :: q₂ ∧
    (∀ i ∈ q₁, i.isData = true) ∧ q₁.length + s.awaits ≤ n

theorem marked_step (ha : Feeds a) (h : s.Marked) : (s.step a).Marked := by
  have hb := (bounded_step h.bounded a).1
  -- the loop stays open, and takes the marker only to raise
  have hloop : ∀ u : EventStream α, u.queue = s.queue → u.dropped = s.dropped →
      s.listening = true → u.loop.phase ≠ .returned ∧ .done ∉ u.loop.queue ∧
        (u.loop.listening = true → u.loop.dropped = true → .terminate ∈ u.loop.queue) := by
    intro u hq hd hl
    have hnoend := h.noEnd
    have hmark := h.marked hl
    rw [← hq] at hnoend hmark
    rw [← hd] at hmark
    unfold loop
    split
    · rename_i hnil
      exact ⟨nofun, hnoend, fun _ hdrop => hmark hdrop⟩
    · rename_i rest hcons
      exact absurd (hcons ▸ List.mem_cons_self ..) hnoend
    · rename_i rest hcons
      refine ⟨nofun, ?_, nofun⟩
      exact fun hmem => hnoend (hcons ▸ List.mem_cons_of_mem _ hmem)
    · rename_i x o rest hcons
      refine ⟨nofun, fun hmem => hnoend (hcons ▸ List.mem_cons_of_mem _ hmem), fun _ hdrop => ?_⟩
      have hin := hmark hdrop
      rw [hcons] at hin
      rcases List.mem_cons.1 hin with hne | hin
      · cases hne
      · exact hin
  unfold step at hb ⊢
  split
  · rename_i hl
    rw [if_pos hl] at hb
    cases a with
    | pushOrTerminate x =>
      show (s.pushOrTerminate x).Marked
      dsimp only [pushOrTerminate] at hb ⊢
      split
      · rename_i hf
        rw [if_pos hf] at hb
        rcases forceEnqueue_cases .terminate h.bounded with
          ⟨hroom, -⟩ | ⟨-, head, rest, hq, hforce⟩
        · rw [full, hroom] at hf; cases hf
        · simp only [hforce] at hb ⊢
          refine ⟨hb, h.open_, fun hmem => ?_,
            fun _ _ => List.mem_append_right _ (List.mem_singleton_self _)⟩
          rcases List.mem_append.1 hmem with hin | hin
          · exact h.noEnd (hq ▸ List.mem_cons_of_mem _ hin)
          · cases List.mem_singleton.1 hin
      · rename_i hf
        rw [if_neg hf] at hb
        refine ⟨hb, h.open_, fun hmem => ?_, fun _ hd => List.mem_append_left _ (h.marked hl hd)⟩
        rcases List.mem_append.1 hmem with hin | hin
        · exact h.noEnd hin
        · cases List.mem_singleton.1 hin
    | resume =>
      show s.resume.Marked
      dsimp only [resume] at hb ⊢
      split
      · rename_i x rest hp
        exact ⟨h.bounded, nofun, h.noEnd, fun _ => h.marked hl⟩
      · rename_i hp
        rw [hp] at hb
        obtain ⟨h1, h2, h3⟩ := hloop s rfl rfl hl
        exact ⟨hb, h1, h2, h3⟩
      · rename_i hp
        rw [hp] at hb
        obtain ⟨h1, h2, h3⟩ := hloop s rfl rfl hl
        exact ⟨hb, h1, h2, h3⟩
      · rename_i x o hp
        rw [hp] at hb
        obtain ⟨h1, h2, h3⟩ := hloop { s with sent := s.sent ++ [(x, o)] } rfl rfl hl
        exact ⟨hb, h1, h2, h3⟩
      all_goals exact h
    | fail => exact ⟨hb, nofun, h.noEnd, nofun⟩
    | push | pushPriority | finish => exact ha.elim
  · exact h

theorem tears_loop (hs : s.queue = q₁ ++ .terminate :: q₂) (hd : ∀ i ∈ q₁, i.isData = true)
    (hn : q₁.length ≤ n) : Tears n s.loop := by
  cases q₁ with
  | nil =>
    have hq : s.queue = .terminate :: q₂ := hs
    left
    unfold loop
    simp only [hq]
  | cons item rest =>
    right
    have hitem := hd item (List.mem_cons_self ..)
    cases item with
    | data x o =>
      have hq : s.queue = .data x o :: (rest ++ .terminate :: q₂) := hs
      unfold loop
      simp only [hq]
      refine ⟨rfl, rest, q₂, rfl, fun i hi => hd i (List.mem_cons_of_mem _ hi), ?_⟩
      show rest.length + 1 ≤ n
      exact hn
    | terminate | done => cases hitem

theorem tears_step (hb : s.Bounded) (ha : Feeds a) (hf : a ≠ .fail) (hs : s.Heeds a)
    (h : Tears n s) : Tears (if isResume a then n - 1 else n) (s.step a) := by
  rcases h with hr | ⟨hl, q₁, q₂, hq, hd, hn⟩
  · left
    have hl : s.listening = false := by unfold listening; rw [hr]
    unfold step
    rw [if_neg (by rw [hl]; nofun)]
    exact hr
  · unfold step
    rw [if_pos hl]
    cases a with
    | pushOrTerminate x =>
      show Tears n (s.pushOrTerminate x)
      unfold pushOrTerminate
      split
      · rename_i hfull
        have hpos := (queueFull_iff.1 hfull).1
        have hforce := forceEnqueue_full .terminate (hb hpos) hfull
        refine .inr ⟨hl, ?_⟩
        show ∃ r₁ r₂, forceEnqueue _ _ _ = r₁ ++ _ ∧ _
        rw [hforce, hq]
        cases q₁ with
        | nil =>
          -- the marker itself goes, in a queue of one slot
          have hone := hs hfull (by rw [hq]; rfl)
          have hlen := hb hpos
          rw [hq, List.nil_append, List.length_cons] at hlen
          have hq₂ : q₂ = [] := List.length_eq_zero_iff.1 (by omega)
          subst hq₂
          exact ⟨[], [], rfl, nofun, hn⟩
        | cons item rest =>
          refine ⟨rest, q₂ ++ [.terminate], by simp,
            fun i hi => hd i (List.mem_cons_of_mem _ hi), ?_⟩
          rw [List.length_cons] at hn
          show rest.length + s.awaits ≤ n
          omega
      · refine .inr ⟨hl, q₁, q₂ ++ [.data x false], ?_, hd, hn⟩
        show s.queue ++ _ = _
        rw [hq, List.append_assoc, List.cons_append]
    | resume =>
      show Tears (n - 1) s.resume
      unfold resume
      unfold awaits at hn
      split
      · rename_i x rest hp
        rw [hp] at hn
        refine .inr ⟨rfl, q₁, q₂, hq, hd, ?_⟩
        show q₁.length + (rest.length + 1) ≤ n - 1
        simp only [List.length_cons] at hn
        omega
      · rename_i hp
        rw [hp] at hn
        exact tears_loop hq hd (by simp only [List.length_nil] at hn; omega)
      · rename_i hp
        rw [hp] at hn
        exact tears_loop hq hd (by simp only at hn; omega)
      · rename_i x o hp
        rw [hp] at hn
        exact tears_loop hq hd (by simp only at hn; omega)
      all_goals rename_i hp; rw [listening, hp] at hl; cases hl
    | fail => exact absurd rfl hf
    | push | pushPriority | finish => exact ha.elim

/-- **An overflow makes the loop raise**, when no event evicts the marker itself. -/
theorem overflow_raises (hm : s.Marked) (hd : s.dropped = true) (hp : s.phase ≠ .failed)
    {as : List (StreamAction α)}
    (has : Along step (fun s a => Feeds a ∧ a ≠ .fail ∧ s.Heeds a) s as)
    (hn : s.queue.length + s.awaits ≤ as.countP isResume) : (s.run as).phase = .raised := by
  have hstart : Tears (as.countP isResume) s := by
    by_cases hl : s.listening = true
    · obtain ⟨q₁, q₂, hq, hnot⟩ := List.eq_append_cons_of_mem (hm.marked hl hd)
      refine .inr ⟨hl, q₁, q₂, hq, fun i hi => ?_, ?_⟩
      · cases i with
        | data x o => rfl
        | terminate => exact absurd hi hnot
        | done => exact absurd (hq ▸ List.mem_append_left _ hi) hm.noEnd
      · rw [hq, List.length_append, List.length_cons] at hn
        omega
    · left
      have hopen := hm.open_
      unfold listening at hl
      split at hl <;> simp_all
  have hend := has.count (I := fun n u => u.Bounded ∧ Tears n u) isResume
    ⟨hm.bounded, hstart⟩ fun n u a ha hu =>
      ⟨(bounded_step hu.1 a).1, tears_step hu.1 ha.1 ha.2.1 ha.2.2 hu.2⟩
  rw [Nat.sub_self] at hend
  rcases hend.2 with hraised | ⟨hl, q₁, q₂, -, -, hle⟩
  · exact hraised
  · have hpos : 0 < (s.run as).awaits := awaits_pos hl
    have hz : q₁.length + (s.run as).awaits ≤ 0 := hle
    omega

theorem initial_step (s : EventStream α) (a : StreamAction α) : (s.step a).initial = s.initial := by
  have hloop : ∀ u : EventStream α, u.loop.initial = u.initial := fun u => u.loop_history.2.1
  unfold step
  split
  · cases a with
    | push x => dsimp only [push]; split <;> rfl
    | pushOrTerminate x => dsimp only [pushOrTerminate]; split <;> rfl
    | resume => dsimp only [resume]; split <;> first | rfl | exact hloop _
    | _ => rfl
  · rfl

theorem marked_reachable {queueMax : ℤ} {initial : List α}
    (h : Reaches step (fun s a => Feeds a ∧ s.Fits a) (init queueMax initial) s) : s.Marked := by
  refine h.invariant ?_ fun s a ha hm => marked_step ha.1 hm
  refine ⟨fun hm => ?_, nofun, nofun, nofun⟩
  simp only [init, List.length_nil] at hm ⊢
  omega

/-- **A stream is gapless, and an overflow ends it**: for any capacity, in runs where no event
meets a full queue of more than one slot. -/
theorem stream_gapless {queueMax : ℤ} {initial : List α}
    (h : Reaches step (fun s a => Feeds a ∧ s.Fits a) (init queueMax initial) s) :
    s.sent.map Prod.fst <+: initial ++ s.fired ∧
      (s.dropped = true → s.phase ≠ .failed → ∀ as : List (StreamAction α),
        Along step (fun s a => Feeds a ∧ a ≠ .fail ∧ s.Fits a) s as →
        s.queue.length + s.awaits ≤ as.countP isResume → (s.run as).phase = .raised) := by
  have hinit : s.initial = initial :=
    h.invariant (I := fun s => s.initial = initial) rfl fun s a _ hs => (initial_step s a).trans hs
  constructor
  · have hrec := (gapless_reachable h).received
    rw [hinit] at hrec
    exact (List.prefix_append ..).trans hrec
  · intro hd hp as has hn
    exact overflow_raises (marked_reachable h) hd hp
      (has.mono fun s a ha => ⟨ha.1, ha.2.1, ha.2.2.heeds⟩) hn

/-- One slot: the second event takes the place of the first one, and the loop raises. -/
theorem stream_gapless_one_slot :
    let s := (init 1 ["state"]).run [.pushOrTerminate "added", .pushOrTerminate "removed"]
    s.sent.map Prod.fst <+: ["state"] ++ s.fired ∧
      (s.run [.resume, .resume, .resume]).phase = .raised := by
  have hs : Along step (fun s a => Feeds a ∧ s.Fits a) (init 1 ["state"])
      [.pushOrTerminate "added", .pushOrTerminate "removed"] :=
    ⟨⟨trivial, fun _ => by decide⟩, ⟨trivial, fun _ => by decide⟩, trivial⟩
  obtain ⟨hpre, hraise⟩ := stream_gapless hs.reaches
  refine ⟨hpre, hraise rfl nofun _ ?_ (by decide)⟩
  exact ⟨⟨trivial, nofun, trivial⟩, ⟨trivial, nofun, trivial⟩, ⟨trivial, nofun, trivial⟩, trivial⟩

/-- Two slots, and two events for each item sent: every second event takes the place of the
marker, and the loop does not see it. -/
theorem run_overflowing {s : EventStream ℕ} (hm : s.queueMax = 2) (hq : s.queue = [.terminate])
    (hp : s.phase = .sending 0 false) (n : ℕ) :
    (s.run (List.replicate n [.pushOrTerminate 0, .pushOrTerminate 0, .resume]).flatten).phase =
      .sending 0 false := by
  induction n generalizing s with
  | zero => exact hp
  | succ n ih =>
    obtain ⟨m, i, q, p, sent, g, e, f, d⟩ := s
    obtain rfl := hm
    obtain rfl := hq
    obtain rfl := hp
    rw [List.replicate_succ, List.flatten_cons, run, List.foldl_append]
    exact ih rfl rfl rfl

/-- The second of four events arrives without the first, and the loop goes on; and a loop whose
queue keeps overflowing goes on for ever. -/
theorem stream_gapped :
    let s := (init 3 ([] : List ℕ)).run [.pushOrTerminate 1, .pushOrTerminate 2,
      .pushOrTerminate 3, .pushOrTerminate 4, .resume, .resume]
    let t := (init 2 ([] : List ℕ)).run
      [.pushOrTerminate 0, .pushOrTerminate 0, .pushOrTerminate 0, .resume]
    (s.sent.map Prod.fst = [2] ∧ s.fired = [1, 2, 3, 4] ∧ s.phase = .sending 3 false) ∧
      t.dropped = true ∧ ∀ n, (t.run (List.replicate n
        [.pushOrTerminate 0, .pushOrTerminate 0, .resume]).flatten).phase = .sending 0 false :=
  ⟨⟨rfl, rfl, rfl⟩, rfl, fun n => run_overflowing rfl rfl rfl n⟩

/-! ### Order -/

variable {l : List α}

/-- Does the step call a control on a full queue? -/
def overflow (s : EventStream α) : StreamAction α → ℕ
  | .resume | .fail => 0
  | _ => if s.listening && s.full then 1 else 0

/-- How many calls of a control met a full queue. -/
def overflows (s : EventStream α) : List (StreamAction α) → ℕ
  | [] => 0
  | a :: as => s.overflow a + (s.step a).overflows as

/-- **What arrived is in the order of the calls**, which offered `l`; overflows explain what is
missing. -/
structure Ordered (l : List α) (n : ℕ) (s : EventStream α) : Prop where
  sent : ∃ late, late.Sublist l ∧ s.received <+: s.initial ++ late
  ahead : s.listening = true → ∃ early, s.received ++ s.pending = s.initial ++ early ∧
    (early ++ payloads s.queue).Sublist l ∧ l.length ≤ (early ++ payloads s.queue).length + 2 * n

/-- Room is made for an item by the loss of one at most. -/
theorem payloads_forceEnqueue (item : StreamItem α) (hb : s.Bounded) :
    let q := forceEnqueue s.queueMax item s.queue
    (payloads q).Sublist (payloads s.queue ++ payloads [item]) ∧
      (payloads s.queue).length + (payloads [item]).length ≤
        (payloads q).length + if s.full then 1 else 0 := by
  intro q
  rcases forceEnqueue_cases item hb with ⟨hf, h⟩ | ⟨hf, head, rest, hq, h⟩
  · rw [show q = s.queue ++ [item] from h, payloads_append, List.length_append]
    exact ⟨.refl _, Nat.le_add_right ..⟩
  · have hfull : s.full = true := hf
    have hone : (payloads [head]).length ≤ 1 := List.length_filterMap_le ..
    have hhead : payloads s.queue = payloads [head] ++ payloads rest := by
      rw [hq, ← payloads_append]
      rfl
    rw [show q = rest ++ [item] from h, payloads_append, hhead, if_pos hfull]
    refine ⟨(List.sublist_append_right ..).append_right _, ?_⟩
    simp only [List.length_append]
    omega

/-- A call of a control leaves the coroutine where it is. -/
theorem Ordered.put (h : s.Ordered l n) (hl : s.listening = true) {g f new : List α} {e d : Bool}
    {k : ℕ} (hsub : (payloads q).Sublist (payloads s.queue ++ new))
    (hlen : (payloads s.queue).length + new.length ≤ (payloads q).length + 2 * k) :
    Ordered (l ++ new) (n + k)
      { s with queue := q, given := g, ended := e, fired := f, dropped := d } := by
  obtain ⟨early, hearly, hsubl, hcount⟩ := h.ahead hl
  obtain ⟨late, hlate, hpre⟩ := h.sent
  refine ⟨⟨late, hlate.trans (List.sublist_append_left ..), hpre⟩, fun _ => ⟨early, hearly, ?_, ?_⟩⟩
  · refine (hsub.append_left early).trans ?_
    rw [← List.append_assoc]
    exact hsubl.append_right _
  · simp only [List.length_append] at hcount ⊢
    omega

/-- The loop takes the next item in hand. -/
theorem Ordered.loop {early : List α} (hr : s.received = s.initial ++ early)
    (hs : (early ++ payloads s.queue).Sublist l)
    (hn : l.length ≤ (early ++ payloads s.queue).length + 2 * n) : s.loop.Ordered l n := by
  have hsent : ∃ late, late.Sublist l ∧ s.received <+: s.initial ++ late :=
    ⟨early, (List.sublist_append_left ..).trans hs, hr ▸ List.prefix_rfl⟩
  unfold EventStream.loop
  split
  · refine ⟨hsent, fun _ => ⟨early, ?_, hs, hn⟩⟩
    show s.received ++ [] = _
    rw [List.append_nil, hr]
  · exact ⟨hsent, fun hl => by cases hl⟩
  · exact ⟨hsent, fun hl => by cases hl⟩
  · rename_i x o rest hq
    have hmove : early ++ payloads s.queue = early ++ [x] ++ payloads rest := by
      rw [hq, List.append_assoc]
      rfl
    rw [hmove] at hs hn
    refine ⟨hsent, fun _ => ⟨early ++ [x], ?_, hs, hn⟩⟩
    show s.received ++ [x] = s.initial ++ (early ++ [x])
    rw [hr, List.append_assoc]

theorem ordered_step (hb : s.Bounded) (h : s.Ordered l n) (a : StreamAction α) :
    (s.step a).Ordered (l ++ a.payload?.toList) (n + s.overflow a) := by
  obtain ⟨late, hlate, hpre⟩ := h.sent
  have hover : l.Sublist (l ++ a.payload?.toList) := List.sublist_append_left ..
  unfold step
  split
  swap
  · rename_i hl
    exact ⟨⟨late, hlate.trans hover, hpre⟩, fun hl' => absurd hl' hl⟩
  rename_i hl
  have hforce := fun item => payloads_forceEnqueue (s := s) item hb
  have hroom : ∀ x, payloads (s.queue ++ [.data x false]) = payloads s.queue ++ [x] :=
    fun x => payloads_append
  cases a with
  | push x =>
    simp only [push, overflow, hl, Bool.true_and]
    split
    · exact h.put hl (List.sublist_append_left ..) (Nat.add_le_add_left (Nat.le_succ 1) _)
    · exact h.put hl (hroom x ▸ .refl _) (hroom x ▸ Nat.le_of_eq List.length_append.symm)
  | pushPriority x =>
    obtain ⟨hsub, hlen⟩ := hforce (.data x !s.ended)
    simp only [pushPriority, overflow, hl, Bool.true_and]
    exact h.put hl hsub (Nat.le_trans hlen (by omega))
  | pushOrTerminate x =>
    obtain ⟨hsub, hlen⟩ := hforce .terminate
    simp only [pushOrTerminate, overflow, hl, Bool.true_and]
    split
    · rename_i hf
      -- the event is lost, and so is the item it evicts
      rw [if_pos hf] at hlen
      refine h.put hl (hsub.trans ?_) (Nat.add_le_add_right hlen 1)
      exact (List.sublist_append_left ..).append_left _
    · exact h.put hl (hroom x ▸ .refl _) (hroom x ▸ Nat.le_of_eq List.length_append.symm)
  | finish =>
    obtain ⟨hsub, hlen⟩ := hforce .done
    simp only [finish, overflow, hl, Bool.true_and]
    exact h.put hl hsub (Nat.le_trans hlen (by omega))
  | resume =>
    obtain ⟨early, hearly, hsub, hcount⟩ := h.ahead hl
    show s.resume.Ordered (l ++ []) n
    rw [List.append_nil]
    unfold pending at hearly
    unfold resume
    split <;> rename_i hp <;> rw [hp] at hearly
    · rename_i x rest
      have hmove : s.received ++ x :: rest = (s.sent ++ [(x, false)]).map Prod.fst ++ rest := by
        simp [received]
      rw [hmove] at hearly
      refine ⟨⟨early, (List.sublist_append_left ..).trans hsub, ?_⟩,
        fun _ => ⟨early, hearly, hsub, hcount⟩⟩
      exact hearly ▸ List.prefix_append ..
    · exact Ordered.loop (by simpa using hearly) hsub hcount
    · exact Ordered.loop (by simpa using hearly) hsub hcount
    · refine Ordered.loop ?_ hsub hcount
      rw [← hearly]
      exact List.map_append
    all_goals exact h
  | fail => exact ⟨⟨late, hlate.trans hover, hpre⟩, fun hl' => by cases hl'⟩

theorem ordered_run (hb : s.Bounded) (h : s.Ordered l n) (as : List (StreamAction α)) :
    (s.run as).Ordered (l ++ as.filterMap StreamAction.payload?) (n + s.overflows as) := by
  induction as generalizing s l n with
  | nil => exact (List.append_nil l).symm ▸ h
  | cons a as ih =>
    have hstep := ih (bounded_step hb a).1 (ordered_step hb h a)
    have hmap : (a :: as).filterMap StreamAction.payload? =
        a.payload?.toList ++ as.filterMap StreamAction.payload? := by
      rw [List.filterMap_cons]
      cases a.payload? <;> rfl
    rw [hmap, ← List.append_assoc, overflows, ← Nat.add_assoc]
    exact hstep

theorem initial_run (s : EventStream α) (as : List (StreamAction α)) :
    (s.run as).initial = s.initial := by
  induction as generalizing s with
  | nil => rfl
  | cons a as ih => exact (ih (s.step a)).trans (initial_step s a)

/-- **No stream reorders or repeats**: for any capacity and any order of the calls of all controls,
the client received a prefix of the initial payload and some of the items offered, in the order of
the calls. While the coroutine runs, what it still holds completes them, and a call that met a full
queue cost two items at most. -/
theorem stream_ordered (queueMax : ℤ) (initial : List α) (as : List (StreamAction α)) :
    let s := (init queueMax initial).run as
    let offered := as.filterMap StreamAction.payload?
    ∃ late, late.Sublist offered ∧ s.received <+: initial ++ late ∧
      (s.listening = true → s.received ++ (s.pending ++ payloads s.queue) = initial ++ late ∧
        offered.length ≤ late.length + 2 * (init queueMax initial).overflows as) := by
  intro s offered
  have hb : (init queueMax initial).Bounded := by
    intro hm
    simp only [init, List.length_nil] at hm ⊢
    omega
  have hstart : (init queueMax initial).Ordered [] 0 :=
    ⟨⟨[], .slnil, List.nil_prefix⟩, fun _ => ⟨[], (List.append_nil _).symm, .slnil, Nat.le_refl _⟩⟩
  obtain ⟨hsent, hahead⟩ := ordered_run hb hstart as
  rw [initial_run, List.nil_append] at hsent hahead
  by_cases hl : s.listening = true
  · obtain ⟨early, hearly, hsub, hcount⟩ := hahead hl
    have hall : s.received ++ (s.pending ++ payloads s.queue) =
        initial ++ (early ++ payloads s.queue) := by
      rw [← List.append_assoc, ← List.append_assoc]
      exact congrArg (· ++ _) hearly
    rw [Nat.zero_add] at hcount
    exact ⟨_, hsub, hall ▸ List.prefix_append .., fun _ => ⟨hall, hcount⟩⟩
  · obtain ⟨late, hlate, hpre⟩ := hsent
    exact ⟨late, hlate, hpre, fun hl' => absurd hl' hl⟩

end EventStream
end DeviceBuilder
