import DeviceBuilder.RemoteBuild.ArtifactsDownload

/-!
# Downloads between two parties

Sessions open, supersede each other and end, calls and tasks are cancelled at any
await, and a frame that was sent need not have been reported so. Still:

* `Slots`: who holds the slot of a dashboard, and that one session carries one
  stream at a time.
* `Streams`: what stands on a session's wire, stream by stream.
* `Awaits`: what the offloader has put together, frame by frame.
-/

namespace DeviceBuilder

variable {τ : Type*} {digest : Digest} {codec : ChunkCodec τ}

/-- What a list holds that grew by one. -/
theorem of_getElem?_concat {α : Type*} {l : List α} {x y : α} {j : ℕ} (h : (l ++ [x])[j]? = some y) :
    l[j]? = some y ∨ j = l.length ∧ y = x := by
  obtain ⟨hlt, rfl⟩ := List.getElem?_eq_some_iff.1 h
  rw [List.length_append, List.length_singleton] at hlt
  rcases Nat.lt_succ_iff_lt_or_eq.1 hlt with hj | rfl
  · exact .inl (by rw [List.getElem_append_left hj, List.getElem?_eq_getElem hj])
  · exact .inr ⟨rfl, List.getElem_concat_length rfl ..⟩

namespace DownloadPoint

/-- In `_send_stream`. -/
def sending : DownloadPoint τ → Bool
  | send _ _ => true
  | _ => false

end DownloadPoint

namespace Transfer

variable {w w' : Transfer τ} {i k : ℕ} {n : SessionId} {d : DashboardId} {t : DownloadTask τ}
  {point : DownloadPoint τ}

/-! ### Slots -/

/-- **The slots of the receiver.** -/
structure Slots (w : Transfer τ) : Prop where
  opened : ∀ (i : ℕ) (t : DownloadTask τ), w.tasks[i]? = some t → (w.session t.session).opened = true
  registered : ∀ d n, w.registry.get? d = some n → (w.session n).dashboardId = d ∧ (w.session n).opened = true
  /-- An open session that is not closing is the one in the registry. -/
  live : ∀ n, (w.session n).opened = true → (w.session n).closing = false → (w.session n).loop ≠ .ended →
    w.registry.get? (w.session n).dashboardId = some n
  slot : ∀ d i, w.inflight.get? d = some i → ∃ t, w.tasks[i]? = some t ∧ (w.session t.session).dashboardId = d ∧
    (t.cancelled = false ∧ t.point.isEnded = false ∨ w.stopped = true)
  owner : ∀ (i : ℕ) (t : DownloadTask τ), w.tasks[i]? = some t → t.cancelled = false → t.point.isEnded = false →
    w.inflight.get? (w.session t.session).dashboardId = some i
  halted : w.stopped = true → ∀ (i : ℕ) (t : DownloadTask τ), w.tasks[i]? = some t → t.cancelled = true
  /-- A download is cancelled with its session. -/
  alive : ∀ (i : ℕ) (t : DownloadTask τ), w.tasks[i]? = some t → t.cancelled = false → t.point.isEnded = false →
    (w.session t.session).closing = true ∨ (w.session t.session).loop ≠ .ended
  gone : ∀ (i : ℕ) (t : DownloadTask τ), w.tasks[i]? = some t → t.cancelled = true → t.point.isEnded = false →
    w.stopped = false → (w.session t.session).closing = true ∨ (w.session t.session).loop = .ended
  /-- One stream at a time on a session. -/
  one : ∀ (i k : ℕ) (t u : DownloadTask τ), w.tasks[i]? = some t → w.tasks[k]? = some u → t.session = u.session →
    t.point.sending = true → u.point.sending = true → i = k

/-- Nothing changes for the slots, but that sessions may be closing. -/
structure SameSlots (w w' : Transfer τ) : Prop where
  tasks : w'.tasks = w.tasks
  inflight : w'.inflight = w.inflight
  registry : w'.registry = w.registry
  stopped : w'.stopped = w.stopped
  opened : ∀ n, (w'.session n).opened = (w.session n).opened
  dashboard : ∀ n, (w'.session n).dashboardId = (w.session n).dashboardId
  closing : ∀ n, (w.session n).closing = true → (w'.session n).closing = true
  ended : ∀ n, (w'.session n).loop = .ended ↔ (w.session n).loop = .ended

/-- One session changes, in what does not count. -/
theorem modifySession_same (w : Transfer τ) (n : SessionId) {f : DownloadSession τ → DownloadSession τ}
    (ho : ∀ s, (f s).opened = s.opened) (hd : ∀ s, (f s).dashboardId = s.dashboardId)
    (hc : ∀ s, s.closing = true → (f s).closing = true)
    (he : (f (w.session n)).loop = .ended ↔ (w.session n).loop = .ended) : SameSlots w (w.modifySession n f) := by
  have hget : ∀ m, (w.modifySession n f).session m = if m = n then f (w.session n) else w.session m := by
    intro m
    unfold modifySession
    exact Function.update_apply ..
  refine ⟨rfl, rfl, rfl, rfl, fun m => ?_, fun m => ?_, fun m hm => ?_, fun m => ?_⟩
  · rw [hget]
    split
    · next h => rw [ho, h]
    · rfl
  · rw [hget]
    split
    · next h => rw [hd, h]
    · rfl
  · rw [hget]
    split
    · next h => exact hc _ (h ▸ hm)
    · exact hm
  · rw [hget]
    split
    · next h => rw [h]; exact he
    · exact Iff.rfl

theorem Slots.same (h : Slots w) (hs : SameSlots w w') : Slots w' where
  opened i t hi := by
    rw [hs.opened]
    exact h.opened i t (hs.tasks ▸ hi)
  registered d n hn := by
    rw [hs.opened, hs.dashboard]
    exact h.registered d n (hs.registry ▸ hn)
  live n ho hc he := by
    rw [hs.registry, hs.dashboard]
    rw [hs.opened] at ho
    refine h.live n ho ?_ fun hend => he ((hs.ended n).2 hend)
    cases hw : (w.session n).closing with
    | false => rfl
    | true =>
      rw [hs.closing n hw] at hc
      cases hc
  slot d i hi := by
    rw [hs.inflight] at hi
    obtain ⟨t, ht, hd, hcase⟩ := h.slot d i hi
    refine ⟨t, hs.tasks ▸ ht, ?_, hs.stopped ▸ hcase⟩
    rw [hs.dashboard]
    exact hd
  owner i t hi hc he := by
    rw [hs.inflight, hs.dashboard]
    exact h.owner i t (hs.tasks ▸ hi) hc he
  halted hst i t hi := h.halted (hs.stopped ▸ hst) i t (hs.tasks ▸ hi)
  alive i t hi hc he := by
    rcases h.alive i t (hs.tasks ▸ hi) hc he with hcl | hl
    · exact .inl (hs.closing _ hcl)
    · exact .inr fun hend => hl ((hs.ended _).1 hend)
  gone i t hi hc he hst := by
    rcases h.gone i t (hs.tasks ▸ hi) hc he (hs.stopped ▸ hst) with hcl | hl
    · exact .inl (hs.closing _ hcl)
    · exact .inr ((hs.ended _).2 hl)
  one i k t u hi hk := h.one i k t u (hs.tasks ▸ hi) (hs.tasks ▸ hk)

/-! #### A task moves -/

theorem setPoint_get {j : ℕ} {u : DownloadTask τ} (hu : (w.setPoint i point).tasks[j]? = some u) :
    ∃ t, w.tasks[j]? = some t ∧ u.session = t.session ∧ u.jobId = t.jobId ∧ u.cancelled = t.cancelled ∧
      u.point = if j = i then point else t.point := by
  simp only [setPoint, List.getElem?_modify, Option.map_eq_map, Option.map_eq_some_iff] at hu
  obtain ⟨t, ht, rfl⟩ := hu
  refine ⟨t, ht, ?_⟩
  by_cases hij : i = j
  · subst hij
    simp
  · simp [hij, Ne.symm hij]

/-- A task moves, and the slots name it while it lives. It starts to send only where nothing keeps it
from it. -/
theorem Slots.move (h : Slots w) (hi : w.tasks[i]? = some t) {slots : Dict DashboardId ℕ}
    (he : point.isEnded = false → t.point.isEnded = false)
    (hs : point.sending = true → t.point.sending = true ∨ t.cancelled = false ∧ (w.session t.session).closing = false)
    (hsub : ∀ d j, slots.get? d = some j → w.inflight.get? d = some j ∧
      (j = i → point.isEnded = false ∨ w.stopped = true))
    (hkeep : ∀ d j, w.inflight.get? d = some j → (j = i → point.isEnded = false) → slots.get? d = some j) :
    Slots { w.setPoint i point with inflight := slots } := by
  have hlive : ∀ p : DownloadPoint τ, p.sending = true → p.isEnded = false := by
    intro p hp
    cases p <;> first | rfl | cases hp
  have hback : ∀ (j : ℕ) (u : DownloadTask τ), (w.setPoint i point).tasks[j]? = some u →
      ∃ t₀, w.tasks[j]? = some t₀ ∧ u.session = t₀.session ∧ u.cancelled = t₀.cancelled ∧
        (u.point.isEnded = false → t₀.point.isEnded = false ∧ (j = i → point.isEnded = false)) ∧
        (u.point.sending = true → t₀.point.sending = true ∨
          j = i ∧ t₀.cancelled = false ∧ (w.session t₀.session).closing = false) := by
    intro j u hu
    obtain ⟨t₀, ht₀, hsess, -, hc, hpt⟩ := setPoint_get hu
    refine ⟨t₀, ht₀, hsess, hc, ?_⟩
    rw [hpt]
    split
    · next hji =>
      subst hji
      obtain rfl := Option.some.inj (ht₀.symm.trans hi)
      exact ⟨fun hend => ⟨he hend, fun _ => hend⟩, fun hsend => (hs hsend).imp id fun hx => ⟨rfl, hx⟩⟩
    · next hji => exact ⟨fun hend => ⟨hend, fun hx => absurd hx hji⟩, .inl⟩
  -- two that send on one session: one of them was there first
  have hclash : ∀ (j : ℕ) (t₀ : DownloadTask τ) (k : ℕ) (u₀ : DownloadTask τ), w.tasks[j]? = some t₀ →
      w.tasks[k]? = some u₀ → t₀.session = u₀.session → t₀.point.sending = true → u₀.point.isEnded = false →
      u₀.cancelled = false → (w.session u₀.session).closing = false → j = k := by
    intro j t₀ k u₀ hj hk hsess hsend hue huc hcl
    have hte := hlive _ hsend
    have hown := h.owner k u₀ hk huc hue
    cases hc : t₀.cancelled with
    | false =>
      have hown' := h.owner j t₀ hj hc hte
      rw [hsess, hown] at hown'
      exact (Option.some.inj hown').symm
    | true =>
      exfalso
      cases hst : w.stopped with
      | true =>
        rw [h.halted hst k u₀ hk] at huc
        cases huc
      | false =>
        rcases h.gone j t₀ hj hc hte hst with hx | hx
        · rw [hsess, hcl] at hx
          cases hx
        · rcases h.alive k u₀ hk huc hue with hy | hy
          · rw [hcl] at hy
            cases hy
          · exact hy (hsess ▸ hx)
  refine ⟨?_, h.registered, h.live, ?_, ?_, ?_, ?_, ?_, ?_⟩
  · intro j u hu
    obtain ⟨t₀, ht₀, hsess, -⟩ := hback j u hu
    exact hsess ▸ h.opened j t₀ ht₀
  · intro d j hj
    obtain ⟨hold, hend⟩ := hsub d j hj
    obtain ⟨t₀, ht₀, hd, hcase⟩ := h.slot d j hold
    have hget : (w.setPoint i point).tasks[j]? = some (if i = j then { t₀ with point := point } else t₀) := by
      simp only [Transfer.setPoint, List.getElem?_modify, ht₀, Option.map_eq_map, Option.map_some]
    refine ⟨_, hget, ?_, ?_⟩
    · split <;> exact hd
    · split
      · next hij =>
        rcases hcase with ⟨hc, -⟩ | hst
        · exact (hend hij.symm).imp (fun hp => ⟨hc, hp⟩) id
        · exact .inr hst
      · exact hcase
  · intro j u hu hc hend
    obtain ⟨t₀, ht₀, hsess, hc', hend', -⟩ := hback j u hu
    have hown := h.owner j t₀ ht₀ (hc' ▸ hc) (hend' hend).1
    exact hkeep _ j ((congrArg (fun m => w.inflight.get? (w.session m).dashboardId) hsess).trans hown) (hend' hend).2
  · intro hst j u hu
    obtain ⟨t₀, ht₀, -, hc', -⟩ := hback j u hu
    exact hc'.trans (h.halted hst j t₀ ht₀)
  · intro j u hu hc hend
    obtain ⟨t₀, ht₀, hsess, hc', hend', -⟩ := hback j u hu
    exact hsess ▸ h.alive j t₀ ht₀ (hc' ▸ hc) (hend' hend).1
  · intro j u hu hc hend hst
    obtain ⟨t₀, ht₀, hsess, hc', hend', -⟩ := hback j u hu
    exact hsess ▸ h.gone j t₀ ht₀ (hc' ▸ hc) (hend' hend).1 hst
  · intro j k x y hj hk hsess hx hy
    obtain ⟨x₀, hx₀, hxs, -, hxe, hxsend⟩ := hback j x hj
    obtain ⟨y₀, hy₀, hys, -, hye, hysend⟩ := hback k y hk
    have hsame : x₀.session = y₀.session := hxs.symm.trans (hsess.trans hys)
    rcases hxsend hx with hx' | ⟨hji, hxc, hxcl⟩
    · rcases hysend hy with hy' | ⟨-, hyc, hycl⟩
      · exact h.one j k x₀ y₀ hx₀ hy₀ hsame hx' hy'
      · exact hclash j x₀ k y₀ hx₀ hy₀ hsame hx' (hye (hlive _ hy)).1 hyc hycl
    · rcases hysend hy with hy' | ⟨hki, -, -⟩
      · exact (hclash k y₀ j x₀ hy₀ hx₀ hsame.symm hy' (hxe (hlive _ hx)).1 hxc hxcl).symm
      · exact hji.trans hki.symm

/-- A task that lives goes on. -/
theorem Slots.setPoint (h : Slots w) (hi : w.tasks[i]? = some t) (he : t.point.isEnded = false)
    (hp : point.isEnded = false)
    (hs : point.sending = true → t.point.sending = true ∨ t.cancelled = false ∧ (w.session t.session).closing = false) :
    Slots (w.setPoint i point) :=
  h.move hi (fun _ => he) hs (fun _ _ hj => ⟨hj, fun _ => .inl hp⟩) fun _ _ hj _ => hj

/-- A task ends, and the slots no longer name it. -/
theorem Slots.ends (h : Slots w) (hi : w.tasks[i]? = some t) {slots : Dict DashboardId ℕ}
    (hsub : ∀ d j, slots.get? d = some j → w.inflight.get? d = some j ∧ (j = i → w.stopped = true))
    (hkeep : ∀ d j, w.inflight.get? d = some j → j ≠ i → slots.get? d = some j) :
    Slots { w.setPoint i .ended with inflight := slots } := by
  refine h.move hi (fun he => by cases he) (fun hs => by cases hs) (fun d j hj => ?_) fun d j hj hne => ?_
  · exact ⟨(hsub d j hj).1, fun hji => .inr ((hsub d j hj).2 hji)⟩
  · exact hkeep d j hj fun hji => by cases hne hji

/-- **The `finally` of a download.** -/
theorem Slots.finishDownload (h : Slots w) (hi : w.tasks[i]? = some t) : Slots (w.finishDownload i t.session) := by
  -- a task has the slot of one dashboard only
  have hown : ∀ d, w.inflight.get? d = some i → d = (w.session t.session).dashboardId := by
    intro d hd
    obtain ⟨t₀, ht₀, hdash, -⟩ := h.slot d i hd
    obtain rfl := Option.some.inj (ht₀.symm.trans hi)
    exact hdash.symm
  unfold Transfer.finishDownload
  simp only
  split
  · next hin =>
    refine h.ends hi (fun d j hj => ?_) fun d j hj hne => ?_
    · obtain ⟨hd, hold⟩ := Dict.of_get?_erase hj
      exact ⟨hold, fun he => absurd (hown d (he ▸ hold)) hd⟩
    · refine (Dict.get?_erase_ne fun he => ?_).trans hj
      subst he
      exact hne (Option.some.inj (hj.symm.trans hin))
  · next hin =>
    refine h.ends hi (fun d j hj => ⟨hj, fun he => absurd ?_ hin⟩) fun d j hj _ => hj
    subst he
    exact hown d hj ▸ hj

/-- A task that is cancelled before it runs leaves the slots alone. -/
theorem Slots.dropped (h : Slots w) (hi : w.tasks[i]? = some t) (hc : t.cancelled = true) :
    Slots (w.setPoint i .ended) := by
  refine h.ends hi (fun d j hj => ⟨hj, fun he => ?_⟩) fun _ _ hj _ => hj
  subst he
  obtain ⟨t₀, ht₀, -, hcase⟩ := h.slot d j hj
  obtain rfl := Option.some.inj (ht₀.symm.trans hi)
  rcases hcase with ⟨hf, -⟩ | hst
  · rw [hc] at hf
    cases hf
  · exact hst

/-- **A download is accepted**: its session is live, and its dashboard had no download. -/
theorem Slots.accept (h : Slots w) (ho : (w.session n).opened = true) (hl : (w.session n).loop ≠ .ended)
    (hfree : w.inflight.get? (w.session n).dashboardId = none) (hst : w.stopped = false) (jobId : String)
    (configuration : Configuration) :
    Slots { w with
      tasks := w.tasks ++ [{ session := n, jobId := jobId, configuration := configuration }]
      inflight := w.inflight.set (w.session n).dashboardId w.tasks.length } := by
  have hkeep : ∀ (j : ℕ) (u : DownloadTask τ), w.tasks[j]? = some u →
      (w.tasks ++ [{ session := n, jobId := jobId, configuration := configuration }])[j]? = some u := by
    intro j u hu
    exact (List.getElem?_append_left (List.getElem?_eq_some_iff.1 hu).1).trans hu
  refine ⟨?_, h.registered, h.live, ?_, ?_, ?_, ?_, ?_, ?_⟩
  · intro j u hu
    rcases of_getElem?_concat hu with hold | ⟨-, rfl⟩
    · exact h.opened j u hold
    · exact ho
  · intro d j hj
    rw [Dict.get?_set] at hj
    split at hj
    · next hd =>
      obtain rfl := Option.some.inj hj
      refine ⟨{ session := n, jobId := jobId, configuration := configuration }, ?_, hd.symm, .inl ⟨rfl, rfl⟩⟩
      exact List.getElem?_concat_length
    · obtain ⟨t₀, ht₀, hd, hcase⟩ := h.slot d j hj
      exact ⟨t₀, hkeep j t₀ ht₀, hd, hcase⟩
  · intro j u hu hc he
    rcases of_getElem?_concat hu with hold | ⟨rfl, rfl⟩
    · have hown := h.owner j u hold hc he
      refine (Dict.get?_set_ne fun hd => ?_).trans hown
      rw [hd, hfree] at hown
      cases hown
    · exact Dict.get?_set_self
  · intro hst' j u hu
    rw [hst] at hst'
    cases hst'
  · intro j u hu hc he
    rcases of_getElem?_concat hu with hold | ⟨-, rfl⟩
    · exact h.alive j u hold hc he
    · exact .inr hl
  · intro j u hu hc he hst'
    rcases of_getElem?_concat hu with hold | ⟨-, rfl⟩
    · exact h.gone j u hold hc he hst'
    · cases hc
  · intro j k x y hj hk hsess hx hy
    rcases of_getElem?_concat hj with hj | ⟨-, rfl⟩
    · rcases of_getElem?_concat hk with hk | ⟨-, rfl⟩
      · exact h.one j k x y hj hk hsess hx hy
      · cases hy
    · cases hx

/-- **The sender stops**: every task is cancelled. -/
theorem Slots.stop (h : Slots w) :
    Slots { w with stopped := true, tasks := w.tasks.map fun t => { t with cancelled := true } } := by
  have hback : ∀ (j : ℕ) (u : DownloadTask τ), (w.tasks.map fun t => { t with cancelled := true })[j]? = some u →
      ∃ t₀, w.tasks[j]? = some t₀ ∧ u = { t₀ with cancelled := true } := by
    intro j u hu
    rw [List.getElem?_map, Option.map_eq_some_iff] at hu
    obtain ⟨t₀, ht₀, rfl⟩ := hu
    exact ⟨t₀, ht₀, rfl⟩
  refine ⟨?_, h.registered, h.live, ?_, ?_, ?_, ?_, ?_, ?_⟩
  · intro j u hu
    obtain ⟨t₀, ht₀, rfl⟩ := hback j u hu
    exact h.opened j t₀ ht₀
  · intro d j hj
    obtain ⟨t₀, ht₀, hd, -⟩ := h.slot d j hj
    refine ⟨{ t₀ with cancelled := true }, ?_, hd, .inr rfl⟩
    simp only [List.getElem?_map, ht₀, Option.map_some]
  · intro j u hu hc
    obtain ⟨t₀, -, rfl⟩ := hback j u hu
    cases hc
  · intro _ j u hu
    obtain ⟨t₀, -, rfl⟩ := hback j u hu
    rfl
  · intro j u hu hc
    obtain ⟨t₀, -, rfl⟩ := hback j u hu
    cases hc
  · intro _ _ _ _ _ hst
    cases hst
  · intro j k x y hj hk hsess hx hy
    obtain ⟨x₀, hx₀, rfl⟩ := hback j x hj
    obtain ⟨y₀, hy₀, rfl⟩ := hback k y hk
    exact h.one j k x₀ y₀ hx₀ hy₀ hsess hx hy

theorem Slots.drained (h : Slots w) (hall : w.tasks.all (·.point.isEnded) = true) :
    Slots { w with inflight := ∅ } := by
  refine ⟨h.opened, h.registered, h.live, ?_, ?_, h.halted, h.alive, h.gone, h.one⟩
  · intro d j hj
    cases hj
  · intro j u hu _ he
    rw [List.all_eq_true.1 hall u (List.mem_of_getElem? hu)] at he
    cases he

/-- **A session opens**, and supersedes the one in its place. -/
theorem Slots.register (h : Slots w) (hn : (w.session n).opened = false) (d : DashboardId) (mine : Bool) :
    Slots (w.register n d mine) := by
  have hne : ∀ m, (w.session m).opened = true → m ≠ n := by
    rintro m hm rfl
    rw [hn] at hm
    cases hm
  -- what it does to each session
  have hsess : ∀ m, m ≠ n → ((w.register n d mine).session m).opened = (w.session m).opened ∧
      ((w.register n d mine).session m).dashboardId = (w.session m).dashboardId ∧
      ((w.register n d mine).session m).loop = (w.session m).loop ∧
      ((w.session m).closing = true → ((w.register n d mine).session m).closing = true) ∧
      (w.registry.get? d = some m → ((w.register n d mine).session m).closing = true) := by
    intro m hm
    unfold Transfer.register
    simp only
    split
    · next hnone => simp [modifySession, Function.update_of_ne hm, hnone]
    · next m' hsome =>
      by_cases hmm : m = m'
      · subst hmm
        simp [modifySession, Function.update_of_ne hm]
      · have hmm' : ¬ m' = m := fun he => hmm he.symm
        simp [modifySession, Function.update_of_ne hm, Function.update_of_ne hmm, hsome, hmm']
  have hself : ((w.register n d mine).session n).opened = true ∧
      ((w.register n d mine).session n).dashboardId = d := by
    unfold Transfer.register
    simp only
    split
    · simp [modifySession]
    · next m' hsome =>
      by_cases hmm : n = m'
      · subst hmm
        simp [modifySession]
      · simp [modifySession, Function.update_of_ne hmm]
  have hparts : (w.register n d mine).tasks = w.tasks ∧ (w.register n d mine).inflight = w.inflight ∧
      (w.register n d mine).registry = w.registry.set d n ∧ (w.register n d mine).stopped = w.stopped := by
    unfold Transfer.register
    simp only
    split <;> exact ⟨rfl, rfl, rfl, rfl⟩
  obtain ⟨htasks, hinf, hreg, hstop⟩ := hparts
  have htask : ∀ (j : ℕ) (u : DownloadTask τ), w.tasks[j]? = some u → u.session ≠ n :=
    fun j u hu => hne _ (h.opened j u hu)
  refine ⟨?_, ?_, ?_, ?_, ?_, ?_, ?_, ?_, ?_⟩
  · intro j u hu
    rw [htasks] at hu
    rw [(hsess _ (htask j u hu)).1]
    exact h.opened j u hu
  · intro d' m hm
    rw [hreg, Dict.get?_set] at hm
    split at hm
    · next hd =>
      obtain rfl := Option.some.inj hm
      exact ⟨hself.2.trans hd.symm, hself.1⟩
    · obtain ⟨hd, ho⟩ := h.registered d' m hm
      have hs := hsess m (hne m ho)
      exact ⟨hs.2.1.trans hd, hs.1.trans ho⟩
  · intro m ho hc he
    by_cases hm : m = n
    · subst hm
      rw [hreg, hself.2]
      exact Dict.get?_set_self
    · obtain ⟨ho', hd', hl', hc', hex⟩ := hsess m hm
      have hold : w.registry.get? (w.session m).dashboardId = some m := by
        refine h.live m (ho'.symm.trans ho) ?_ (hl' ▸ he)
        cases hcl : (w.session m).closing with
        | false => rfl
        | true =>
          rw [hc' hcl] at hc
          cases hc
      rw [hreg, hd']
      refine (Dict.get?_set_ne fun hdd => ?_).trans hold
      rw [hdd] at hold
      rw [hex hold] at hc
      cases hc
  · intro d' j hj
    rw [hinf] at hj
    obtain ⟨t₀, ht₀, hd, hcase⟩ := h.slot d' j hj
    refine ⟨t₀, htasks ▸ ht₀, ?_, hstop ▸ hcase⟩
    rw [(hsess _ (htask j t₀ ht₀)).2.1]
    exact hd
  · intro j u hu hc he
    rw [htasks] at hu
    rw [hinf, (hsess _ (htask j u hu)).2.1]
    exact h.owner j u hu hc he
  · intro hst j u hu
    exact h.halted (hstop ▸ hst) j u (htasks ▸ hu)
  · intro j u hu hc he
    rw [htasks] at hu
    obtain ⟨-, -, hl, hcl, -⟩ := hsess _ (htask j u hu)
    rw [hl]
    exact (h.alive j u hu hc he).imp hcl id
  · intro j u hu hc he hst
    rw [htasks] at hu
    obtain ⟨-, -, hl, hcl, -⟩ := hsess _ (htask j u hu)
    rw [hl]
    exact (h.gone j u hu hc he (hstop ▸ hst)).imp hcl id
  · intro j k x y hj hk
    exact h.one j k x y (htasks ▸ hj) (htasks ▸ hk)

/-- What the end of a session's receive loop does: where the session is the registered one, its slot
is freed and the task in it is cancelled. -/
structure LoopEnded (w : Transfer τ) (n : SessionId) (w' : Transfer τ) : Prop where
  same : ∀ m, (w'.session m).opened = (w.session m).opened ∧
    (w'.session m).dashboardId = (w.session m).dashboardId ∧ (w'.session m).closing = (w.session m).closing ∧
    (w'.session m).sent = (w.session m).sent ∧ (m ≠ n → (w'.session m).loop = (w.session m).loop)
  self : (w'.session n).loop = .ended
  stopped : w'.stopped = w.stopped
  packs : w'.packs = w.packs
  registry : ∀ d m, w'.registry.get? d = some m ↔ w.registry.get? d = some m ∧
    ¬ (w.registry.get? (w.session n).dashboardId = some n ∧ d = (w.session n).dashboardId)
  inflight : ∀ d j, w'.inflight.get? d = some j ↔ w.inflight.get? d = some j ∧
    ¬ (w.registry.get? (w.session n).dashboardId = some n ∧ d = (w.session n).dashboardId)
  tasks : ∀ (j : ℕ) (u : DownloadTask τ), w'.tasks[j]? = some u ↔ ∃ t, w.tasks[j]? = some t ∧
    u = { t with cancelled := t.cancelled || decide (w.registry.get? (w.session n).dashboardId = some n ∧
      w.inflight.get? (w.session n).dashboardId = some j) }

theorem erase_iff {κ ν : Type*} [DecidableEq κ] {m : Dict κ ν} {a k : κ} {v : ν} {c : Prop} (hc : c) :
    (m.erase a).get? k = some v ↔ m.get? k = some v ∧ ¬ (c ∧ k = a) := by
  by_cases hk : k = a
  · subst hk
    simp [hc]
  · rw [Dict.get?_erase_ne hk]
    simp [hk]

theorem endLoop_spec (w : Transfer τ) (n : SessionId) : LoopEnded w n (w.endLoop n) := by
  have hsess : ∀ m, ((w.setLoop n .ended).session m).opened = (w.session m).opened ∧
      ((w.setLoop n .ended).session m).dashboardId = (w.session m).dashboardId ∧
      ((w.setLoop n .ended).session m).closing = (w.session m).closing ∧
      ((w.setLoop n .ended).session m).sent = (w.session m).sent ∧
      (m ≠ n → ((w.setLoop n .ended).session m).loop = (w.session m).loop) := by
    intro m
    unfold setLoop modifySession
    by_cases hm : m = n
    · subst hm
      simp
    · simp [Function.update_of_ne hm]
  have hself : ((w.setLoop n .ended).session n).loop = .ended := by
    unfold setLoop modifySession
    simp
  unfold Transfer.endLoop
  simp only
  by_cases hreg : w.registry.get? (w.session n).dashboardId = some n
  · have hreg' : (w.setLoop n .ended).registry.get? (w.session n).dashboardId = some n := hreg
    rw [if_pos hreg']
    unfold discardSession
    simp only
    cases hin : w.inflight.get? (w.session n).dashboardId with
    | none =>
      have hin' : (w.setLoop n .ended).inflight.get? (w.session n).dashboardId = none := hin
      simp only [hin']
      refine ⟨hsess, hself, rfl, rfl, fun d m => erase_iff hreg, fun d j => ?_, fun j u => ?_⟩
      · refine ⟨fun hj => ⟨hj, fun hd => ?_⟩, fun hj => hj.1⟩
        rw [hd.2] at hj
        exact absurd (hin.symm.trans hj) (by simp)
      · simp [hin]
        rfl
    | some i =>
      have hin' : (w.setLoop n .ended).inflight.get? (w.session n).dashboardId = some i := hin
      simp only [hin']
      refine ⟨hsess, hself, rfl, rfl, fun d m => erase_iff hreg, fun d j => erase_iff hreg, fun j u => ?_⟩
      simp only [List.getElem?_modify, Option.map_eq_map, Option.map_eq_some_iff, hreg, hin, true_and,
        Option.some.injEq]
      refine exists_congr fun t => and_congr_right fun _ => ?_
      by_cases hij : i = j
      · simp [hij, eq_comm]
      · simp [hij, eq_comm]
  · have hreg' : ¬ (w.setLoop n .ended).registry.get? (w.session n).dashboardId = some n := hreg
    rw [if_neg hreg']
    refine ⟨hsess, hself, rfl, rfl, fun d m => ?_, fun d j => ?_, fun j u => ?_⟩
    · simp [hreg]
      rfl
    · simp [hreg]
      rfl
    · simp [hreg]
      rfl

/-- **A session ends**, and takes its dashboard's download with it. -/
theorem Slots.endLoop (h : Slots w) (ho : (w.session n).opened = true) : Slots (w.endLoop n) := by
  have hs := endLoop_spec w n
  generalize w.endLoop n = v at hs
  -- the registered session is the only live one of its dashboard
  have hlive : ∀ m, (w.session m).opened = true → (w.session m).closing = false → (w.session m).loop ≠ .ended →
      (w.session m).dashboardId = (w.session n).dashboardId →
      w.registry.get? (w.session n).dashboardId = some n → m = n := by
    intro m hmo hmc hml hd hreg
    have hold := h.live m hmo hmc hml
    rw [hd, hreg] at hold
    exact (Option.some.inj hold).symm
  refine ⟨?_, ?_, ?_, ?_, ?_, ?_, ?_, ?_, ?_⟩
  · intro j u hu
    obtain ⟨t₀, ht₀, rfl⟩ := (hs.tasks j u).1 hu
    exact (hs.same _).1.trans (h.opened j t₀ ht₀)
  · intro d m hm
    obtain ⟨hd, hmo⟩ := h.registered d m ((hs.registry d m).1 hm).1
    exact ⟨(hs.same m).2.1.trans hd, (hs.same m).1.trans hmo⟩
  · intro m hmo hmc hml
    obtain ⟨h1, h2, h3, -, h4⟩ := hs.same m
    have hm : m ≠ n := by
      rintro rfl
      exact hml hs.self
    rw [h1] at hmo
    rw [h3] at hmc
    rw [h4 hm] at hml
    rw [h2]
    refine (hs.registry _ m).2 ⟨h.live m hmo hmc hml, fun hd => hm ?_⟩
    exact hlive m hmo hmc hml hd.2 hd.1
  · intro d j hj
    obtain ⟨hj', hd⟩ := (hs.inflight d j).1 hj
    obtain ⟨t₀, ht₀, hdash, hcase⟩ := h.slot d j hj'
    refine ⟨_, (hs.tasks j _).2 ⟨t₀, ht₀, rfl⟩, (hs.same _).2.1.trans hdash, ?_⟩
    rw [hs.stopped]
    refine hcase.imp (fun hx => ⟨?_, hx.2⟩) id
    have hnot : ¬ (w.registry.get? (w.session n).dashboardId = some n ∧
        w.inflight.get? (w.session n).dashboardId = some j) := by
      rintro ⟨hr, hi⟩
      obtain ⟨t₁, ht₁, hd₁, -⟩ := h.slot _ j hi
      obtain rfl := Option.some.inj (ht₁.symm.trans ht₀)
      exact hd ⟨hr, hdash.symm.trans hd₁⟩
    simp [hx.1, hnot]
  · intro j u hu hc he
    obtain ⟨t₀, ht₀, rfl⟩ := (hs.tasks j u).1 hu
    obtain ⟨hc₀, hdec⟩ := Bool.or_eq_false_iff.1 hc
    have hown := h.owner j t₀ ht₀ hc₀ he
    rw [(hs.same _).2.1]
    refine (hs.inflight _ j).2 ⟨hown, fun hd => of_decide_eq_false hdec ⟨hd.1, ?_⟩⟩
    exact hd.2 ▸ hown
  · intro hst j u hu
    obtain ⟨t₀, ht₀, rfl⟩ := (hs.tasks j u).1 hu
    rw [hs.stopped] at hst
    exact Bool.or_eq_true_iff.2 (.inl (h.halted hst j t₀ ht₀))
  · intro j u hu hc he
    obtain ⟨t₀, ht₀, rfl⟩ := (hs.tasks j u).1 hu
    obtain ⟨hc₀, hdec⟩ := Bool.or_eq_false_iff.1 hc
    have hold := h.alive j t₀ ht₀ hc₀ he
    obtain ⟨h1, h2, h3, -, h4⟩ := hs.same t₀.session
    by_cases hm : t₀.session = n
    · -- a download that is not cancelled here is on a session that was superseded
      left
      refine h3.trans ?_
      cases hcl : (w.session t₀.session).closing with
      | true => rfl
      | false =>
        exfalso
        have hl := hold.resolve_left (by simp [hcl])
        have hreg := h.live _ (h.opened j t₀ ht₀) hcl hl
        have hown := h.owner j t₀ ht₀ hc₀ he
        rw [hm] at hreg hown
        exact of_decide_eq_false hdec ⟨hreg, hown⟩
    · exact hold.imp h3.trans fun hl => (h4 hm).symm ▸ hl
  · intro j u hu hc he hst
    obtain ⟨t₀, ht₀, rfl⟩ := (hs.tasks j u).1 hu
    obtain ⟨h1, h2, h3, -, h4⟩ := hs.same t₀.session
    rw [hs.stopped] at hst
    by_cases hm : t₀.session = n
    · exact .inr (hm ▸ hs.self)
    · refine Or.imp h3.trans (h4 hm).trans ?_
      cases hc₀ : t₀.cancelled with
      | true => exact h.gone j t₀ ht₀ hc₀ he hst
      | false =>
        have hdec : (t₀.cancelled || decide (w.registry.get? (w.session n).dashboardId = some n ∧
            w.inflight.get? (w.session n).dashboardId = some j)) = true := hc
        rw [hc₀, Bool.false_or] at hdec
        obtain ⟨hreg, hin⟩ := of_decide_eq_true hdec
        obtain ⟨t₁, ht₁, hd, -⟩ := h.slot _ j hin
        obtain rfl := Option.some.inj (ht₁.symm.trans ht₀)
        by_contra hcon
        obtain ⟨hcl, hl⟩ := not_or.1 hcon
        exact hm (hlive _ (h.opened j t₁ ht₁) (Bool.eq_false_iff.2 hcl) hl hd hreg)
  · intro j k x y hj hk hsess hx hy
    obtain ⟨x₀, hx₀, rfl⟩ := (hs.tasks j x).1 hj
    obtain ⟨y₀, hy₀, rfl⟩ := (hs.tasks k y).1 hk
    exact h.one j k x₀ y₀ hx₀ hy₀ hsess hx hy

end Transfer

/-! ### Streams -/

structure StreamHeader where
  totalBytes : ℤ
  numChunks : ℤ
  sha256Hex : String
  firmwareOffset : String

namespace ArtifactsFrame

/-- What a frame does to the last stream of job `j`: its header, and its chunks so far. -/
def track (j : String) (s : Option (StreamHeader × List (ℤ × τ × Bool))) :
    ArtifactsFrame τ → Option (StreamHeader × List (ℤ × τ × Bool))
  | artifactsStart j' totalBytes numChunks hex offset =>
    if j' = j then some (⟨totalBytes, numChunks, hex, offset⟩, []) else s
  | artifactsChunk j' index data isLast =>
    if j' = j then s.map fun x => (x.1, x.2 ++ [(index, data, isLast)]) else s
  | artifactsEnd .. => s

theorem track_ne {j : String} {f : ArtifactsFrame τ} (h : f.jobId ≠ j)
    (s : Option (StreamHeader × List (ℤ × τ × Bool))) : f.track j s = s := by
  cases f with
  | artifactsStart j' a b c e => exact if_neg h
  | artifactsChunk j' a b c => exact if_neg h
  | artifactsEnd j' a b c => rfl

end ArtifactsFrame

/-- The last stream of job `j` in some frames. -/
def streamed (j : String) (fs : List (ArtifactsFrame τ)) : Option (StreamHeader × List (ℤ × τ × Bool)) :=
  fs.foldl (ArtifactsFrame.track j) none

theorem streamed_concat (j : String) (fs : List (ArtifactsFrame τ)) (f : ArtifactsFrame τ) :
    streamed j (fs ++ [f]) = f.track j (streamed j fs) := by
  unfold streamed
  rw [List.foldl_append]
  rfl

def packedHeader (digest : Digest) (p : PackedArtifacts) : StreamHeader where
  totalBytes := p.tarball.length
  numChunks := ((p.tarball.length + bundleChunkSizeBytes - 1) / bundleChunkSizeBytes : ℕ)
  sha256Hex := digest.hex p.tarball
  firmwareOffset := p.firmwareOffset

def packedChunks (codec : ChunkCodec τ) (p : PackedArtifacts) : List (ℤ × τ × Bool) :=
  (chunkBundleIter bundleChunkSizeBytes 0 p.tarball).map fun c => (c.1, codec.encode c.2.1, c.2.2)

/-- The frames of a stream, one by one. -/
theorem streamFrames_get {j : String} {p : PackedArtifacts} {k : ℕ} {f : ArtifactsFrame τ} {label : String}
    (h : (streamFrames digest codec j p)[k]? = some (f, label)) :
    f.jobId = j ∧ ((k = 0 ∧ ∀ s, f.track j s = some (packedHeader digest p, [])) ∨
      (∃ m c, k = m + 1 ∧ (packedChunks codec p)[m]? = some c ∧
        ∀ x, f.track j (some x) = some (x.1, x.2 ++ [c])) ∨
      (k = (packedChunks codec p).length + 1 ∧ ∀ s, f.track j s = s)) := by
  have hchunks : packedChunks codec p = (chunkBundleIter bundleChunkSizeBytes 0 p.tarball).map
      fun c => (c.1, codec.encode c.2.1, c.2.2) := rfl
  unfold streamFrames at h
  simp only at h
  rw [hchunks]
  generalize chunkBundleIter bundleChunkSizeBytes 0 p.tarball = cs at h ⊢
  cases k with
  | zero =>
    simp only [List.cons_append, List.getElem?_cons_zero, Option.some.injEq, Prod.mk.injEq] at h
    obtain ⟨rfl, -⟩ := h
    exact ⟨rfl, .inl ⟨rfl, fun s => if_pos rfl⟩⟩
  | succ m =>
    simp only [List.cons_append, List.getElem?_cons_succ, List.getElem?_append, List.length_map, List.getElem?_map] at h
    split at h
    · next hm =>
      obtain ⟨c, hc, he⟩ := Option.map_eq_some_iff.1 h
      simp only [Prod.mk.injEq] at he
      obtain ⟨rfl, -⟩ := he
      refine ⟨rfl, .inr (.inl ⟨m, (c.1, codec.encode c.2.1, c.2.2), rfl, ?_, fun x => if_pos rfl⟩)⟩
      simp only [List.getElem?_map, hc, Option.map_some]
    · next hm =>
      have hlast := List.mem_of_getElem? h
      have hlt := (List.getElem?_eq_some_iff.1 h).1
      simp only [List.length_singleton] at hlt
      obtain ⟨rfl, -⟩ := Prod.mk.inj (List.mem_singleton.1 hlast)
      refine ⟨rfl, .inr (.inr ⟨?_, fun s => rfl⟩)⟩
      simp only [List.length_map]
      omega

namespace Transfer

variable {w w' : Transfer τ} {i k : ℕ} {n : SessionId} {d : DashboardId} {t : DownloadTask τ}
  {point : DownloadPoint τ} {frames : List (ArtifactsFrame τ × String)} {f : ArtifactsFrame τ} {label : String}

/-- A task has put the first `k` frames of a stream onto its session's wire. -/
def Streamed (digest : Digest) (codec : ChunkCodec τ) (w : Transfer τ) (t : DownloadTask τ)
    (frames : List (ArtifactsFrame τ × String)) (out : Bool) : Prop :=
  ∃ p k, (t.session, t.jobId, p) ∈ w.packs ∧ frames = (streamFrames digest codec t.jobId p).drop k ∧
    (0 < k + out.toNat → streamed t.jobId (w.session t.session).sent =
      some (packedHeader digest p, (packedChunks codec p).take (k + out.toNat - 1)))

/-- **The wires.** The last stream of a job, at any point of a session's wire, is the beginning of
one that was packed. -/
structure Streams (digest : Digest) (codec : ChunkCodec τ) (w : Transfer τ) : Prop where
  stream : ∀ (i : ℕ) (t : DownloadTask τ) frames out, w.tasks[i]? = some t → t.point = .send frames out →
    Streamed digest codec w t frames out
  good : ∀ n pre j h cs, pre <+: (w.session n).sent → streamed j pre = some (h, cs) →
    ∃ p k, (n, j, p) ∈ w.packs ∧ h = packedHeader digest p ∧ cs = (packedChunks codec p).take k

/-- Nothing goes onto a wire, and no stream starts or goes on. -/
structure SameWires (w w' : Transfer τ) : Prop where
  sent : ∀ n, (w'.session n).sent = (w.session n).sent
  packs : w'.packs = w.packs
  sending : ∀ (i : ℕ) (u : DownloadTask τ) frames out, w'.tasks[i]? = some u → u.point = .send frames out →
    ∃ t, w.tasks[i]? = some t ∧ t.point = .send frames out ∧ t.session = u.session ∧ t.jobId = u.jobId

theorem Streams.same (h : Streams digest codec w) (hs : SameWires w w') : Streams digest codec w' where
  stream i u frames out hu hp := by
    obtain ⟨t, ht, hpt, hsess, hjob⟩ := hs.sending i u frames out hu hp
    obtain ⟨p, k, hmem, hfr, hst⟩ := h.stream i t frames out ht hpt
    rw [hsess, hjob] at hmem hst
    rw [hjob] at hfr
    refine ⟨p, k, hs.packs ▸ hmem, hfr, fun hk => ?_⟩
    rw [hs.sent]
    exact hst hk
  good n pre j hd cs hpre hst := by
    rw [hs.packs]
    exact h.good n pre j hd cs (hs.sent n ▸ hpre) hst

theorem emit_sent (w : Transfer τ) (n : SessionId) (f : ArtifactsFrame τ) (m : SessionId) :
    ((w.emit n f).session m).sent = if m = n then (w.session m).sent ++ [f] else (w.session m).sent := by
  unfold emit modifySession
  by_cases hm : m = n
  · subst hm
    simp
  · simp [hm]

/-- A frame that is no part of a stream goes onto a wire. -/
theorem Streams.emitEnd (h : Streams digest codec w) (hf : ∀ j s, f.track j s = s) (n : SessionId) :
    Streams digest codec (w.emit n f) := by
  have hst : ∀ j m, streamed j ((w.emit n f).session m).sent = streamed j (w.session m).sent := by
    intro j m
    rw [emit_sent]
    split
    · rw [streamed_concat, hf]
    · rfl
  refine ⟨fun i t frames out hi hp => ?_, fun m pre j hd cs hpre hs => ?_⟩
  · obtain ⟨p, k, hmem, hfr, hsent⟩ := h.stream i t frames out hi hp
    exact ⟨p, k, hmem, hfr, fun hk => (hst _ _).trans (hsent hk)⟩
  · rw [emit_sent] at hpre
    split at hpre
    · rcases List.prefix_concat_iff.1 hpre with rfl | hpre
      · rw [streamed_concat, hf] at hs
        exact h.good m _ j hd cs (List.prefix_refl _) hs
      · exact h.good m pre j hd cs hpre hs
    · exact h.good m pre j hd cs hpre hs

/-- Task `i` has `frames` to send; the other tasks keep their streams. -/
theorem setPoint_streamed {out out' : Bool} {frames' : List (ArtifactsFrame τ × String)} {u : DownloadTask τ}
    (hi : w.tasks[i]? = some t) (hnew : Streamed digest codec w t frames out)
    (hold : ∀ (j : ℕ) (u : DownloadTask τ), w.tasks[j]? = some u → u.point = .send frames' out' → j ≠ i →
      Streamed digest codec w u frames' out')
    (hk : (w.setPoint i (.send frames out)).tasks[k]? = some u) (hp : u.point = .send frames' out') :
    Streamed digest codec (w.setPoint i (.send frames out)) u frames' out' := by
  obtain ⟨u₀, hu₀, hsess, hjob, -, hp'⟩ := setPoint_get hk
  rw [hp] at hp'
  have hsame : Streamed digest codec w u₀ frames' out' := by
    by_cases hki : k = i
    · subst hki
      obtain rfl := Option.some.inj (hu₀.symm.trans hi)
      rw [if_pos rfl] at hp'
      obtain ⟨rfl, rfl⟩ := DownloadPoint.send.inj hp'
      exact hnew
    · rw [if_neg hki] at hp'
      exact hold k u₀ hu₀ hp'.symm hki
  unfold Streamed at hsame ⊢
  rw [hsess, hjob]
  exact hsame

/-- **A stream goes on**: the next frame of task `i` goes onto the wire of its session, which no
other stream uses. -/
theorem Streams.emit (h : Streams digest codec w) (hslots : Slots w) (hi : w.tasks[i]? = some t)
    (hp : t.point = .send ((f, label) :: frames) false) :
    Streams digest codec ((w.emit t.session f).setPoint i (.send ((f, label) :: frames) true)) := by
  obtain ⟨p, k, hmem, hfr, hst⟩ := h.stream i t _ _ hi hp
  have hget : (streamFrames digest codec t.jobId p)[k]? = some (f, label) := by
    have hhead : ((streamFrames digest codec t.jobId p).drop k)[0]? = some (f, label) := by
      rw [← hfr]
      rfl
    rw [List.getElem?_drop] at hhead
    exact hhead
  obtain ⟨hjob, hcase⟩ := streamFrames_get hget
  have hnew : streamed t.jobId ((w.session t.session).sent ++ [f]) =
      some (packedHeader digest p, (packedChunks codec p).take k) := by
    rw [streamed_concat]
    rcases hcase with ⟨rfl, hf⟩ | ⟨m, c, rfl, hc, hf⟩ | ⟨hk, hf⟩
    · rw [hf]
      simp
    · obtain ⟨hlt, rfl⟩ := List.getElem?_eq_some_iff.1 hc
      rw [hst (by omega), hf, List.take_succ_eq_append_getElem hlt]
      rfl
    · rw [hf, hst (by omega)]
      rw [List.take_of_length_le (by simp; omega), List.take_of_length_le (by omega)]
  have hother : ∀ j m, (m = t.session → j ≠ t.jobId) →
      streamed j ((w.emit t.session f).session m).sent = streamed j (w.session m).sent := by
    intro j m hjm
    rw [emit_sent]
    split
    · next hm =>
      rw [streamed_concat, ArtifactsFrame.track_ne]
      rw [hjob]
      exact (hjm hm).symm
    · rfl
  refine ⟨fun j u frames' out hj hpt => setPoint_streamed (w := w.emit t.session f) hi
    ⟨p, k, hmem, hfr, fun _ => ?_⟩ (fun j u hu hpt hji => ?_) hj hpt, fun m pre j hd cs hpre hs => ?_⟩
  · rw [emit_sent, if_pos rfl]
    exact hnew
  · obtain ⟨q, m, hmem', hfr', hst'⟩ := h.stream j u frames' out hu hpt
    -- nobody else sends on this session
    have hne : u.session ≠ t.session := fun he =>
      hji (hslots.one j i u t hu hi he (by rw [hpt]; rfl) (by rw [hp]; rfl))
    exact ⟨q, m, hmem', hfr', fun hk => (hother u.jobId u.session fun he => absurd he hne).trans (hst' hk)⟩
  · have hpre' : pre <+: ((w.emit t.session f).session m).sent := hpre
    rw [emit_sent] at hpre'
    split at hpre'
    · next hm =>
      rcases List.prefix_concat_iff.1 hpre' with rfl | hpre'
      · by_cases hjj : j = t.jobId
        · subst hjj hm
          rw [hnew] at hs
          obtain ⟨rfl, rfl⟩ := Prod.mk.inj (Option.some.inj hs)
          exact ⟨p, k, hmem, rfl, rfl⟩
        · rw [streamed_concat, ArtifactsFrame.track_ne (by rw [hjob]; exact Ne.symm hjj)] at hs
          exact h.good m _ j hd cs (List.prefix_refl _) hs
      · exact h.good m pre j hd cs hpre' hs
    · exact h.good m pre j hd cs hpre' hs

/-- Task `i` goes on to the next of its frames. -/
theorem Streams.next (h : Streams digest codec w) (hi : w.tasks[i]? = some t) {x : ArtifactsFrame τ × String}
    (hp : t.point = .send (x :: frames) true) : Streams digest codec (w.setPoint i (.send frames false)) := by
  obtain ⟨p, k, hmem, hfr, hst⟩ := h.stream i t _ _ hi hp
  refine ⟨fun j u frames' out hj hpt => setPoint_streamed hi ⟨p, k + 1, hmem, ?_, fun _ => hst (by simp)⟩
    (fun j u hu hpt _ => h.stream j u _ _ hu hpt) hj hpt, h.good⟩
  rw [← List.drop_drop, ← hfr]
  rfl

/-- A stream is about to start. -/
theorem Streams.start (h : Streams digest codec w) (hi : w.tasks[i]? = some t) (p : PackedArtifacts) :
    Streams digest codec ({ w with packs := w.packs ++ [(t.session, t.jobId, p)] }.setPoint i
      (.send (streamFrames digest codec t.jobId p) false)) := by
  refine ⟨fun j u frames' out hj hpt => setPoint_streamed
    (w := { w with packs := w.packs ++ [(t.session, t.jobId, p)] }) hi
    ⟨p, 0, List.mem_append_right _ (List.mem_singleton.2 rfl), rfl, fun hk => by simp at hk⟩
    (fun j u hu hpt _ => ?_) hj hpt, fun m pre j hd cs hpre hs => ?_⟩
  · obtain ⟨q, m, hmem', hrest⟩ := h.stream j u _ _ hu hpt
    exact ⟨q, m, List.mem_append_left _ hmem', hrest⟩
  · obtain ⟨q, k, hmem, hrest⟩ := h.good m pre j hd cs hpre hs
    exact ⟨q, k, List.mem_append_left _ hmem, hrest⟩

end Transfer

/-! ### What the offloader puts together -/

/-- The chunks of a payload, put together again. -/
theorem payload_chunkBundleIter {size : ℕ} (hs : size ≠ 0) (data : List UInt8) (index : ℤ) :
    payload (chunkBundleIter size index data) = data := by
  induction hn : data.length using Nat.strong_induction_on generalizing data index with
  | _ n ih =>
    by_cases hd : data = []
    · subst hd
      rw [chunkBundleIter_nil]
      rfl
    · rw [chunkBundleIter_cons index hd hs]
      have hlt : (data.drop size).length < n := by
        have hpos := List.length_pos_iff.2 hd
        rw [List.length_drop]
        omega
      have hrest := ih _ hlt (data.drop size) (index + 1) rfl
      unfold payload at hrest ⊢
      rw [List.map_cons, List.flatten_cons, hrest]
      exact List.take_append_drop size data

/-- The entry of a job has taken the chunks of its last stream. -/
def Built (digest : Digest) (codec : ChunkCodec τ) (fs : List (ArtifactsFrame τ)) (j : String)
    (s : DownloadArtifactsState) (a : BundleAssembler) : Prop :=
  ∃ h cs raws, streamed j fs = some (h, cs) ∧
    cs.map (fun c => (c.1, codec.decode c.2.1, c.2.2)) = raws.map (fun c => (c.1, some c.2.1, c.2.2)) ∧
    Assembled digest.hex h.totalBytes h.numChunks (digest.lower h.sha256Hex) raws a ∧
    s.firmwareOffset = h.firmwareOffset

theorem fail_future (s : DownloadArtifactsState) (e : DownloadArtifactsError) :
    (s.fail e).future.isSome = true ∧ ∀ r, (s.fail e).future = some (.ok r) → s.future = some (.ok r) := by
  unfold DownloadArtifactsState.fail
  split
  · next h => exact ⟨h, fun r hr => hr⟩
  · exact ⟨rfl, fun r hr => by cases hr⟩

/-- **A frame reaches the entry of its job.** While its future is not done, what it has put together
stays true to the stream; and it is done with what it put together. -/
theorem dispatch_built (digest : Digest) (codec : ChunkCodec τ) {fs : List (ArtifactsFrame τ)} {s : DownloadArtifactsState} (f : ArtifactsFrame τ)
    (hb : s.future = none → ∀ a, s.assembler = some a → Built digest codec fs f.jobId s a) :
    ((f.dispatch digest codec s).future = none → s.future = none ∧ ∀ a,
      (f.dispatch digest codec s).assembler = some a →
        Built digest codec (fs ++ [f]) f.jobId (f.dispatch digest codec s) a) ∧
    ∀ r, (f.dispatch digest codec s).future = some (.ok r) → s.future = some (.ok r) ∨
      s.future = none ∧ ∃ h cs raws, streamed f.jobId fs = some (h, cs) ∧
        cs.map (fun c => (c.1, codec.decode c.2.1, c.2.2)) = raws.map (fun c => (c.1, some c.2.1, c.2.2)) ∧
        r.tarball = payload raws ∧ (r.tarball.length : ℤ) = h.totalBytes ∧
        digest.hex r.tarball = digest.lower h.sha256Hex ∧ r.firmwareOffset = h.firmwareOffset := by
  -- a failed future is done, with no result
  have hfail : ∀ (s' : DownloadArtifactsState) e, (s'.fail e).future = none → False := by
    intro s' e hn
    have := (fail_future s' e).1
    rw [hn] at this
    cases this
  cases f with
  | artifactsStart j total num hex offset =>
    simp only [ArtifactsFrame.dispatch, DownloadArtifactsState.dispatchArtifactsStart, ArtifactsFrame.jobId] at hb ⊢
    cases hc : BundleAssembler.create total num (digest.lower hex) firmwareMaxTotalBytes with
    | error e =>
      simp only
      exact ⟨fun hn => (hfail s _ hn).elim, fun r hr => .inl ((fail_future s _).2 r hr)⟩
    | ok a =>
      simp only
      refine ⟨fun hn => ⟨hn, fun a' ha' => ?_⟩, fun r hr => .inl hr⟩
      obtain rfl := Option.some.inj ha'
      refine ⟨⟨total, num, hex, offset⟩, [], [], ?_, rfl, (assembled_create hc).1, rfl⟩
      rw [streamed_concat]
      exact if_pos rfl
  | artifactsChunk j index data isLast =>
    simp only [ArtifactsFrame.dispatch, DownloadArtifactsState.dispatchArtifactsChunk, ArtifactsFrame.jobId] at hb ⊢
    cases ha : s.assembler with
    | none =>
      simp only
      refine ⟨fun hn => ⟨hn, fun a' ha' => ?_⟩, fun r hr => .inl hr⟩
      rw [ha] at ha'
      cases ha'
    | some a =>
      simp only
      cases hd : codec.decode data with
      | none => exact ⟨fun hn => (hfail s _ hn).elim, fun r hr => .inl ((fail_future s _).2 r hr)⟩
      | some raw =>
        simp only
        cases hf : a.feed index raw isLast with
        | mk code a' =>
          cases code with
          | some code =>
            exact ⟨fun hn => (hfail _ _ hn).elim,
              fun r hr => .inl ((fail_future { s with assembler := some a' } _).2 r hr)⟩
          | none =>
            refine ⟨fun hn => ⟨hn, fun b hb' => ?_⟩, fun r hr => .inl hr⟩
            obtain rfl := Option.some.inj hb'
            obtain ⟨h, cs, raws, hst, hmap, hasm, hoff⟩ := hb hn a ha
            refine ⟨h, cs ++ [(index, data, isLast)], raws ++ [(index, raw, isLast)], ?_, ?_, hasm.feed hf, hoff⟩
            · rw [streamed_concat, hst]
              exact if_pos rfl
            · rw [List.map_append, List.map_append, hmap]
              simp [hd]
  | artifactsEnd j accepted reason detail =>
    simp only [ArtifactsFrame.dispatch, DownloadArtifactsState.dispatchArtifactsEnd, ArtifactsFrame.jobId] at hb ⊢
    split
    · next hdone =>
      refine ⟨fun hn => ?_, fun r hr => .inl hr⟩
      rw [hn] at hdone
      cases hdone
    next hundone =>
    have hnone : s.future = none := by
      cases hs : s.future with
      | none => rfl
      | some x =>
        rw [hs] at hundone
        exact absurd rfl hundone
    split
    · exact ⟨fun hn => (hfail s _ hn).elim, fun r hr => .inl ((fail_future s _).2 r hr)⟩
    · cases ha : s.assembler with
      | none => exact ⟨fun hn => (hfail s _ hn).elim, fun r hr => .inl ((fail_future s _).2 r hr)⟩
      | some a =>
        simp only
        obtain ⟨h, cs, raws, hst, hmap, hasm, hoff⟩ := hb hnone a ha
        have hfin := hasm.finalise.2
        cases hf : a.finalise digest.hex with
        | mk res a' =>
          rw [hf] at hfin
          cases res with
          | error code =>
            exact ⟨fun hn => (hfail _ _ hn).elim,
              fun r hr => .inl ((fail_future { s with assembler := some a' } _).2 r hr)⟩
          | ok tarball =>
            refine ⟨fun hn => (by cases hn), fun r hr => .inr ⟨hnone, h, cs, raws, hst, hmap, ?_⟩⟩
            obtain rfl := Except.ok.inj (Option.some.inj hr)
            obtain ⟨rfl, -, hlen, hsha⟩ := hfin tarball rfl
            exact ⟨rfl, hlen, hsha, hoff⟩

/-- **A stream that was packed** is put together to what was packed. -/
theorem packed_of_stream (digest : Digest) {p : PackedArtifacts} {k : ℕ} {raws : List (ℤ × List UInt8 × Bool)} {data : List UInt8}
    (hmap : ((packedChunks codec p).take k).map (fun c => (c.1, codec.decode c.2.1, c.2.2)) =
      raws.map (fun c => (c.1, some c.2.1, c.2.2)))
    (hd : data = payload raws) (hlen : (data.length : ℤ) = (packedHeader digest p).totalBytes) : data = p.tarball := by
  have hraws : raws = (chunkBundleIter bundleChunkSizeBytes 0 p.tarball).take k := by
    have hinj : Function.Injective fun c : ℤ × List UInt8 × Bool => (c.1, some c.2.1, c.2.2) := by
      intro x y hxy
      simp only [Prod.mk.injEq, Option.some.injEq] at hxy
      exact Prod.ext hxy.1 (Prod.ext hxy.2.1 hxy.2.2)
    refine (List.map_injective_iff.2 hinj ?_).symm
    rw [← hmap, packedChunks, ← List.map_take, List.map_map]
    refine List.map_congr_left fun c _ => ?_
    simp only [Function.comp_apply, codec.decode_encode]
  have hsize : bundleChunkSizeBytes ≠ 0 := by decide
  have hall := payload_chunkBundleIter hsize p.tarball 0
  have hpre : data <+: p.tarball := by
    rw [hd, hraws]
    refine ⟨payload ((chunkBundleIter bundleChunkSizeBytes 0 p.tarball).drop k), ?_⟩
    rw [← payload_append, List.take_append_drop, hall]
  have hnat : data.length = p.tarball.length := Int.ofNat.inj hlen
  exact hpre.eq_of_length hnat

/-- The call has not ended. -/
def DownloadCallPoint.active : DownloadCallPoint → Bool
  | requesting _ | waiting => true
  | _ => false

namespace Transfer

variable {w w' : Transfer τ} {i k c : ℕ} {n : SessionId} {d : DashboardId} {t : DownloadTask τ}
  {call : DownloadCall} {point : DownloadCallPoint} {r : DownloadArtifactsResult} {j : String}

/-- `r` was packed for job `j` on session `n`. -/
def Packed (w : Transfer τ) (n : SessionId) (j : String) (r : DownloadArtifactsResult) : Prop :=
  ∃ p, (n, j, p) ∈ w.packs ∧ p.tarball = r.tarball ∧ p.firmwareOffset = r.firmwareOffset

/-- **The calls of the offloader.** -/
structure Awaits (digest : Digest) (codec : ChunkCodec τ) (w : Transfer τ) : Prop where
  read : ∀ n, (w.session n).seen ≤ (w.session n).sent.length
  entry : ∀ j s, w.downloads.get? j = some s →
    ∃ (c : ℕ) (call : DownloadCall), w.calls[c]? = some call ∧ call.point.active = true ∧ call.jobId = j
  known : ∀ (c : ℕ) (call : DownloadCall), w.calls[c]? = some call → call.point.active = true →
    ∃ s, w.downloads.get? call.jobId = some s
  unique : ∀ (c e : ℕ) (x y : DownloadCall), w.calls[c]? = some x → w.calls[e]? = some y → x.point.active = true →
    y.point.active = true → x.jobId = y.jobId → c = e
  /-- Who waits, waits on the live session. -/
  live : ∀ (c : ℕ) (call : DownloadCall) s, w.calls[c]? = some call → call.point.active = true →
    w.downloads.get? call.jobId = some s → s.future = none → w.channel = some call.session
  built : ∀ n j s a, w.channel = some n → w.downloads.get? j = some s → s.future = none → s.assembler = some a →
    Built digest codec ((w.session n).sent.take (w.session n).seen) j s a
  done : ∀ (c : ℕ) (call : DownloadCall) s r, w.calls[c]? = some call → call.point.active = true →
    w.downloads.get? call.jobId = some s → s.future = some (.ok r) → Packed w call.session call.jobId r
  returned : ∀ (c : ℕ) (call : DownloadCall) r, w.calls[c]? = some call → call.point = .returned (.ok r) →
    Packed w call.session call.jobId r

/-- The offloader does nothing; a wire and what was packed may grow. -/
structure SameCalls (w w' : Transfer τ) : Prop where
  channel : w'.channel = w.channel
  downloads : w'.downloads = w.downloads
  calls : w'.calls = w.calls
  seen : ∀ n, (w'.session n).seen = (w.session n).seen
  sent : ∀ n, (w.session n).sent <+: (w'.session n).sent
  packs : ∀ x ∈ w.packs, x ∈ w'.packs

theorem SameCalls.refl (w : Transfer τ) : SameCalls w w :=
  ⟨rfl, rfl, rfl, fun _ => rfl, fun _ => List.prefix_refl _, fun _ => id⟩

theorem SameCalls.trans {w'' : Transfer τ} (h : SameCalls w w') (h' : SameCalls w' w'') : SameCalls w w'' where
  channel := h'.channel.trans h.channel
  downloads := h'.downloads.trans h.downloads
  calls := h'.calls.trans h.calls
  seen n := (h'.seen n).trans (h.seen n)
  sent n := (h.sent n).trans (h'.sent n)
  packs x hx := h'.packs x (h.packs x hx)

theorem Packed.mono (h : Packed w n j r) (hp : ∀ x ∈ w.packs, x ∈ w'.packs) : Packed w' n j r := by
  obtain ⟨p, hmem, hrest⟩ := h
  exact ⟨p, hp _ hmem, hrest⟩

theorem Awaits.same (h : Awaits digest codec w) (hs : SameCalls w w') : Awaits digest codec w' where
  read n := by
    rw [hs.seen]
    exact (h.read n).trans (hs.sent n).length_le
  entry j s hj := hs.calls ▸ h.entry j s (hs.downloads ▸ hj)
  known c call hc := hs.downloads ▸ h.known c call (hs.calls ▸ hc)
  unique c e x y hc he := h.unique c e x y (hs.calls ▸ hc) (hs.calls ▸ he)
  live c call s hc ha hj hf := hs.channel.trans (h.live c call s (hs.calls ▸ hc) ha (hs.downloads ▸ hj) hf)
  built n j s a hn hj hf ha := by
    have htake : (w'.session n).sent.take (w'.session n).seen = (w.session n).sent.take (w.session n).seen := by
      rw [hs.seen]
      obtain ⟨more, he⟩ := hs.sent n
      rw [← he, List.take_append_of_le_length (h.read n)]
    rw [htake]
    exact h.built n j s a (hs.channel ▸ hn) (hs.downloads ▸ hj) hf ha
  done c call s r hc ha hj hf := (h.done c call s r (hs.calls ▸ hc) ha (hs.downloads ▸ hj) hf).mono hs.packs
  returned c call r hc hp := (h.returned c call r (hs.calls ▸ hc) hp).mono hs.packs

theorem setCall_get {e : ℕ} {x : DownloadCall} (hx : (w.setCall c point).calls[e]? = some x) :
    ∃ y, w.calls[e]? = some y ∧ x.session = y.session ∧ x.jobId = y.jobId ∧
      x.point = if e = c then point else y.point := by
  simp only [setCall, List.getElem?_modify, Option.map_eq_map, Option.map_eq_some_iff] at hx
  obtain ⟨y, hy, rfl⟩ := hx
  refine ⟨y, hy, ?_⟩
  by_cases hce : c = e
  · subst hce
    simp
  · simp [hce, Ne.symm hce]

theorem setCall_get' (point : DownloadCallPoint) {e : ℕ} {y : DownloadCall} (hy : w.calls[e]? = some y) :
    (w.setCall c point).calls[e]? = some (if c = e then { y with point := point } else y) := by
  simp only [setCall, List.getElem?_modify, hy, Option.map_eq_map, Option.map_some]

/-- A call goes on to its next await. -/
theorem Awaits.goes (h : Awaits digest codec w) (hc : w.calls[c]? = some call) (ha : call.point.active = true)
    (hp : point.active = true) : Awaits digest codec (w.setCall c point) := by
  have hback : ∀ (e : ℕ) (x : DownloadCall), (w.setCall c point).calls[e]? = some x →
      ∃ y, w.calls[e]? = some y ∧ x.session = y.session ∧ x.jobId = y.jobId ∧
        x.point.active = y.point.active ∧ ∀ r, x.point = .returned r → y.point = .returned r := by
    intro e x hx
    obtain ⟨y, hy, hsess, hjob, hpt⟩ := setCall_get hx
    refine ⟨y, hy, hsess, hjob, ?_⟩
    rw [hpt]
    split
    · next hec =>
      subst hec
      obtain rfl := Option.some.inj (hy.symm.trans hc)
      refine ⟨hp.trans ha.symm, fun r hr => ?_⟩
      rw [hr] at hp
      cases hp
    · exact ⟨rfl, fun r => id⟩
  refine ⟨h.read, ?_, ?_, ?_, ?_, h.built, ?_, ?_⟩
  · intro j s hj
    obtain ⟨e, y, hy, hya, hyj⟩ := h.entry j s hj
    refine ⟨e, _, setCall_get' point hy, ?_, ?_⟩
    · split
      · exact hp
      · exact hya
    · split <;> exact hyj
  · intro e x hx hxa
    obtain ⟨y, hy, -, hjob, hact, -⟩ := hback e x hx
    rw [hjob]
    exact h.known e y hy (hact ▸ hxa)
  · intro e g x y hx hy hxa hya hj
    obtain ⟨x₀, hx₀, -, hxj, hxact, -⟩ := hback e x hx
    obtain ⟨y₀, hy₀, -, hyj, hyact, -⟩ := hback g y hy
    exact h.unique e g x₀ y₀ hx₀ hy₀ (hxact ▸ hxa) (hyact ▸ hya) (hxj.symm.trans (hj.trans hyj))
  · intro e x s hx hxa hj hf
    obtain ⟨y, hy, hsess, hjob, hact, -⟩ := hback e x hx
    rw [hsess]
    exact h.live e y s hy (hact ▸ hxa) (hjob ▸ hj) hf
  · intro e x s r hx hxa hj hf
    obtain ⟨y, hy, hsess, hjob, hact, -⟩ := hback e x hx
    rw [hsess, hjob]
    exact h.done e y s r hy (hact ▸ hxa) (hjob ▸ hj) hf
  · intro e x r hx hr
    obtain ⟨y, hy, hsess, hjob, -, hret⟩ := hback e x hx
    rw [hsess, hjob]
    exact h.returned e y r hy (hret _ hr)

/-- **A call ends**, and takes its entry with it. -/
theorem Awaits.endCall (h : Awaits digest codec w) (hc : w.calls[c]? = some call) (ha : call.point.active = true)
    (hp : point.active = false) (hr : ∀ r, point = .returned (.ok r) → Packed w call.session call.jobId r) :
    Awaits digest codec (w.endCall c call.jobId point) := by
  have hback : ∀ (e : ℕ) (x : DownloadCall), (w.endCall c call.jobId point).calls[e]? = some x →
      ∃ y, w.calls[e]? = some y ∧ x.session = y.session ∧ x.jobId = y.jobId ∧
        x.point = if e = c then point else y.point :=
    fun e x hx => setCall_get (w := { w with downloads := w.downloads.erase call.jobId }) hx
  have hact : ∀ (e : ℕ) (x : DownloadCall), (w.endCall c call.jobId point).calls[e]? = some x → x.point.active = true →
      ∃ y, w.calls[e]? = some y ∧ x.session = y.session ∧ x.jobId = y.jobId ∧ y.point.active = true ∧
        x.jobId ≠ call.jobId := by
    intro e x hx hxa
    obtain ⟨y, hy, hsess, hjob, hpt⟩ := hback e x hx
    have hne : e ≠ c := by
      rintro rfl
      rw [hpt, if_pos rfl, hp] at hxa
      cases hxa
    rw [hpt, if_neg hne] at hxa
    exact ⟨y, hy, hsess, hjob, hxa, fun hj => hne (h.unique e c y call hy hc hxa ha (hjob.symm.trans hj))⟩
  refine ⟨h.read, ?_, ?_, ?_, ?_, ?_, ?_, ?_⟩
  · intro j s hj
    obtain ⟨hne, hj'⟩ := Dict.of_get?_erase hj
    obtain ⟨e, y, hy, hya, hyj⟩ := h.entry j s hj'
    have hec : ¬ c = e := by
      rintro rfl
      obtain rfl := Option.some.inj (hy.symm.trans hc)
      exact hne hyj.symm
    refine ⟨e, y, ?_, hya, hyj⟩
    have hget := setCall_get' (c := c) (w := { w with downloads := w.downloads.erase call.jobId }) point hy
    rw [if_neg hec] at hget
    exact hget
  · intro e x hx hxa
    obtain ⟨y, hy, -, hjob, hya, hne⟩ := hact e x hx hxa
    obtain ⟨s, hs⟩ := h.known e y hy hya
    rw [← hjob] at hs
    exact ⟨s, (Dict.get?_erase_ne hne).trans hs⟩
  · intro e g x y hx hy hxa hya hj
    obtain ⟨x₀, hx₀, -, hxj, hxa₀, -⟩ := hact e x hx hxa
    obtain ⟨y₀, hy₀, -, hyj, hya₀, -⟩ := hact g y hy hya
    exact h.unique e g x₀ y₀ hx₀ hy₀ hxa₀ hya₀ (hxj.symm.trans (hj.trans hyj))
  · intro e x s hx hxa hj hf
    obtain ⟨y, hy, hsess, hjob, hya, -⟩ := hact e x hx hxa
    rw [hsess]
    exact h.live e y s hy hya (hjob ▸ (Dict.of_get?_erase hj).2) hf
  · intro n j s a hn hj hf hs
    exact h.built n j s a hn (Dict.of_get?_erase hj).2 hf hs
  · intro e x s r hx hxa hj hf
    obtain ⟨y, hy, hsess, hjob, hya, -⟩ := hact e x hx hxa
    rw [hsess, hjob]
    exact h.done e y s r hy hya (hjob ▸ (Dict.of_get?_erase hj).2) hf
  · intro e x r hx hret
    obtain ⟨y, hy, hsess, hjob, hpt⟩ := hback e x hx
    rw [hsess, hjob]
    rw [hpt] at hret
    split at hret
    · next hec =>
      subst hec
      obtain rfl := Option.some.inj (hy.symm.trans hc)
      exact hr r hret
    · exact h.returned e y r hy hret

/-- With no live session, every future is done. -/
theorem Awaits.settled (h : Awaits digest codec w) (hn : w.channel = none) {s : DownloadArtifactsState}
    (hj : w.downloads.get? j = some s) : s.future ≠ none := by
  intro hf
  obtain ⟨c, call, hc, ha, rfl⟩ := h.entry j s hj
  have := h.live c call s hc ha hj hf
  rw [hn] at this
  cases this

/-- The offloader has a session again. -/
theorem Awaits.connect (h : Awaits digest codec w) (hn : w.channel = none) (n : SessionId) :
    Awaits digest codec { w with channel := some n } := by
  refine ⟨h.read, h.entry, h.known, h.unique, ?_, ?_, h.done, h.returned⟩
  · intro c call s hc ha hj hf
    exact absurd hf (h.settled hn hj)
  · intro n j s a _ hj hf
    exact absurd hf (h.settled hn hj)

/-- **The session ends**, and every future is done. -/
theorem Awaits.disconnect (h : Awaits digest codec w) : Awaits digest codec w.disconnect := by
  have hback : ∀ j s, w.disconnect.downloads.get? j = some s →
      ∃ s₀, w.downloads.get? j = some s₀ ∧ s = s₀.fail .sessionLost := by
    intro j s hj
    simp only [Transfer.disconnect, Dict.get?_mapValues, Option.map_eq_some_iff] at hj
    obtain ⟨s₀, hs₀, rfl⟩ := hj
    exact ⟨s₀, hs₀, rfl⟩
  have hdone : ∀ j s, w.disconnect.downloads.get? j = some s → s.future ≠ none := by
    intro j s hj hf
    obtain ⟨s₀, -, rfl⟩ := hback j s hj
    have := (fail_future s₀ .sessionLost).1
    rw [hf] at this
    cases this
  refine ⟨h.read, ?_, ?_, h.unique, ?_, ?_, ?_, h.returned⟩
  · intro j s hj
    obtain ⟨s₀, hs₀, -⟩ := hback j s hj
    exact h.entry j s₀ hs₀
  · intro c call hc ha
    obtain ⟨s, hs⟩ := h.known c call hc ha
    exact ⟨s.fail .sessionLost, by simp only [Transfer.disconnect, Dict.get?_mapValues, hs, Option.map_some]⟩
  · intro c call s _ _ hj hf
    exact absurd hf (hdone _ s hj)
  · intro n j s a _ hj hf
    exact absurd hf (hdone _ s hj)
  · intro c call s r hc ha hj hf
    obtain ⟨s₀, hs₀, rfl⟩ := hback _ s hj
    exact h.done c call s₀ r hc ha hs₀ ((fail_future s₀ _).2 r hf)

/-- **A call starts.** -/
theorem Awaits.downloadArtifacts (h : Awaits digest codec w) (j : String) : Awaits digest codec (w.downloadArtifacts j) := by
  unfold Transfer.downloadArtifacts
  cases hn : w.channel with
  | none => exact h
  | some n =>
    simp only
    split
    · exact h
    next hfree =>
    have hnone : w.downloads.get? j = none := by
      cases hj : w.downloads.get? j with
      | none => rfl
      | some s =>
        rw [hj] at hfree
        exact absurd rfl hfree
    have hold : ∀ (e : ℕ) (x : DownloadCall), w.calls[e]? = some x → x.point.active = true → x.jobId ≠ j := by
      rintro e x hx hxa rfl
      obtain ⟨s, hs⟩ := h.known e x hx hxa
      rw [hnone] at hs
      cases hs
    refine ⟨h.read, ?_, ?_, ?_, ?_, ?_, ?_, ?_⟩
    · intro j' s hj'
      rw [Dict.get?_set] at hj'
      split at hj'
      · next he =>
        exact ⟨w.calls.length, { jobId := j, session := n }, List.getElem?_concat_length, rfl, he.symm⟩
      · obtain ⟨e, x, hx, hxa, hxj⟩ := h.entry j' s hj'
        exact ⟨e, x, (List.getElem?_append_left (List.getElem?_eq_some_iff.1 hx).1).trans hx, hxa, hxj⟩
    · intro e x hx hxa
      rcases of_getElem?_concat hx with hx | ⟨-, rfl⟩
      · obtain ⟨s, hs⟩ := h.known e x hx hxa
        exact ⟨s, (Dict.get?_set_ne (hold e x hx hxa)).trans hs⟩
      · exact ⟨_, Dict.get?_set_self⟩
    · intro e g x y hx hy hxa hya hj
      rcases of_getElem?_concat hx with hx | ⟨rfl, rfl⟩
      · rcases of_getElem?_concat hy with hy | ⟨rfl, rfl⟩
        · exact h.unique e g x y hx hy hxa hya hj
        · exact absurd hj (hold e x hx hxa)
      · rcases of_getElem?_concat hy with hy | ⟨rfl, rfl⟩
        · exact absurd hj.symm (hold g y hy hya)
        · rfl
    · intro e x s hx hxa hj hf
      rcases of_getElem?_concat hx with hx | ⟨-, rfl⟩
      · rw [Dict.get?_set_ne (hold e x hx hxa)] at hj
        exact hn.symm.trans (h.live e x s hx hxa hj hf)
      · rfl
    · intro m j' s a hm hj' hf ha
      rw [Dict.get?_set] at hj'
      split at hj'
      · obtain rfl := Option.some.inj hj'
        cases ha
      · exact h.built m j' s a (hn.trans hm) hj' hf ha
    · intro e x s r hx hxa hj hf
      rcases of_getElem?_concat hx with hx | ⟨-, rfl⟩
      · rw [Dict.get?_set_ne (hold e x hx hxa)] at hj
        exact h.done e x s r hx hxa hj hf
      · rw [Dict.get?_set_self] at hj
        obtain rfl := Option.some.inj hj
        cases hf
    · intro e x r hx hret
      rcases of_getElem?_concat hx with hx | ⟨-, rfl⟩
      · exact h.returned e x r hx hret
      · cases hret

/-- **A frame is read.** -/
theorem Awaits.deliver (h : Awaits digest codec w) (hs : Streams digest codec w) :
    Awaits digest codec (w.deliver digest codec) := by
  unfold Transfer.deliver
  cases hn : w.channel with
  | none => exact h
  | some n =>
    simp only
    cases hf : (w.session n).sent[(w.session n).seen]? with
    | none => exact h
    | some f =>
      simp only
      obtain ⟨hlt, hfe⟩ := List.getElem?_eq_some_iff.1 hf
      have hsess : ∀ m, ((w.modifySession n fun s => { s with seen := s.seen + 1 }).session m).sent = (w.session m).sent ∧
          ((w.modifySession n fun s => { s with seen := s.seen + 1 }).session m).seen =
            if m = n then (w.session n).seen + 1 else (w.session m).seen := by
        intro m
        unfold modifySession
        by_cases hm : m = n
        · subst hm
          simp
        · simp [hm]
      have htake : (w.session n).sent.take ((w.session n).seen + 1) =
          (w.session n).sent.take (w.session n).seen ++ [f] := by
        rw [List.take_succ_eq_append_getElem hlt, hfe]
      have hget : ∀ j s, (w.downloads.adjust f.jobId fun s => f.dispatch digest codec s).get? j = some s →
          ∃ s₀, w.downloads.get? j = some s₀ ∧ s = if j = f.jobId then f.dispatch digest codec s₀ else s₀ := by
        intro j s hj
        rw [Dict.get?_adjust] at hj
        split at hj
        · next he =>
          obtain ⟨s₀, hs₀, rfl⟩ := Option.map_eq_some_iff.1 hj
          exact ⟨s₀, hs₀, by rw [if_pos he]⟩
        · next he => exact ⟨s, hj, by rw [if_neg he]⟩
      have hstep : ∀ s₀, w.downloads.get? f.jobId = some s₀ → _ := fun s₀ hs₀ =>
        dispatch_built digest codec f
          (fun hu a ha => h.built n f.jobId s₀ a hn hs₀ hu ha)
      have hfut : ∀ j s s₀, w.downloads.get? j = some s₀ → s = (if j = f.jobId then f.dispatch digest codec s₀ else s₀) →
          s.future = none → s₀.future = none := by
        intro j s s₀ hs₀ he hu
        split at he
        · next hj =>
          subst hj he
          exact ((hstep s₀ hs₀).1 hu).1
        · exact he ▸ hu
      refine ⟨?_, ?_, ?_, h.unique, ?_, ?_, ?_, h.returned⟩
      · intro m
        rw [show _ = _ from (hsess m).1, show _ = _ from (hsess m).2]
        split
        · next hm =>
          rw [hm]
          exact hlt
        · exact h.read m
      · intro j s hj
        obtain ⟨s₀, hs₀, -⟩ := hget j s hj
        exact h.entry j s₀ hs₀
      · intro c call hc ha
        obtain ⟨s, hs'⟩ := h.known c call hc ha
        have hsome : ((w.downloads.adjust f.jobId fun s => f.dispatch digest codec s).get? call.jobId).isSome = true := by
          rw [Dict.get?_adjust, hs']
          split <;> rfl
        exact Option.isSome_iff_exists.1 hsome
      · intro c call s hc ha hj hu
        obtain ⟨s₀, hs₀, he⟩ := hget _ s hj
        exact h.live c call s₀ hc ha hs₀ (hfut _ s s₀ hs₀ he hu)
      · intro m j s a hm hj hu ha
        obtain rfl : n = m := Option.some.inj (hn.symm.trans hm)
        obtain ⟨s₀, hs₀, he⟩ := hget j s hj
        have hu₀ := hfut j s s₀ hs₀ he hu
        have hfs : ((w.modifySession n fun s => { s with seen := s.seen + 1 }).session n).sent.take
            ((w.modifySession n fun s => { s with seen := s.seen + 1 }).session n).seen =
            (w.session n).sent.take (w.session n).seen ++ [f] := by
          rw [(hsess n).1, (hsess n).2, if_pos rfl, htake]
        rw [show _ = _ from hfs]
        split at he
        · next hjj =>
          subst hjj he
          exact ((hstep s₀ hs₀).1 hu).2 a ha
        · next hjj =>
          subst he
          obtain ⟨hd, cs, raws, hst, hrest⟩ := h.built n j s a hn hs₀ hu₀ ha
          refine ⟨hd, cs, raws, ?_, hrest⟩
          rw [streamed_concat, ArtifactsFrame.track_ne (Ne.symm hjj), hst]
      · intro c call s r hc ha hj hr
        obtain ⟨s₀, hs₀, he⟩ := hget _ s hj
        split at he
        · next hjj =>
          subst he
          rw [hjj] at hs₀
          rcases (hstep s₀ hs₀).2 r hr with hold | ⟨hu₀, hd, cs, raws, hst, hmap, hpay, hlen, -, hoff⟩
          · exact h.done c call s₀ r hc ha (hjj ▸ hs₀) hold
          · have hlive := h.live c call s₀ hc ha (hjj ▸ hs₀) hu₀
            obtain rfl := Option.some.inj (hn.symm.trans hlive)
            obtain ⟨p, k, hmem, rfl, rfl⟩ := hs.good call.session _ f.jobId hd cs (List.take_prefix _ _) hst
            refine ⟨p, hjj ▸ hmem, ?_, hoff.symm⟩
            exact (packed_of_stream digest hmap hpay hlen).symm
        · subst he
          exact h.done c call s r hc ha hs₀ hr

end Transfer

end DeviceBuilder
