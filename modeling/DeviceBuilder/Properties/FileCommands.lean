import DeviceBuilder.Devices.FileCommands

/-!
# No YAML is clobbered

What the commands on one filename leave of its files. Taking the write lock
keeps archive and delete apart; the other commands rely on what they saw a step
earlier, so the laws are about runs in which that still holds.

* `ConfigFiles.undisturbed`: the steps that find what their command saw.
* `ConfigFiles.Settled`: the invariant of such runs.
* `commands_conserve`: no content disappears but by a delete or an overwrite that
  was asked for, a command that raises has touched no YAML, and the sidecar and
  the `board_id` of a new device are its own.
-/

namespace DeviceBuilder

namespace FileStage

/-- Between taking the write lock and its release. -/
def locked : FileStage → Bool
  | .archiveLook | .archiveTarget | .archiveMove | .archiveSidecar | .archiveVolatile
  | .deleteLook | .deleteSidecar | .deleteYaml | .deleteEntry => true
  | _ => false

/-- The YAML of a creation is in place, its sidecar and entry are not. -/
def registering : FileStage → Bool
  | .initStorage | .dropEntry | .persistBoard => true
  | _ => false

/-- The YAML of a removal is gone, its sidecar or entry is not. -/
def cleaning : FileStage → Bool
  | .archiveSidecar | .deleteEntry | .purgeSidecar | .purgeEntry => true
  | _ => false

/-- A removal that holds the lock has seen the active YAML. -/
def removing : FileStage → Bool
  | .archiveTarget | .archiveMove | .deleteSidecar | .deleteYaml => true
  | _ => false

/-- No YAML was touched yet. -/
def early : FileStage → Bool
  | .createLook | .createWrite _ | .cloneLook | .cloneWrite | .importLook | .importConflicts _
  | .archiveLock | .archiveLook | .archiveTarget | .archiveMove
  | .unarchiveLook | .unarchiveTarget | .unarchiveMove
  | .deleteLock | .deleteLook | .purgeLook | .purgeYaml | .conflicts | .raised => true
  | _ => false

end FileStage

/-- The stages before a creation puts its YAML are those of its own command. -/
def FileCommand.fits {α σ β : Type*} : FileCommand α σ β → FileStage → Bool
  | .create .., .createLook | .create .., .createWrite _ => true
  | .clone .., .cloneLook | .clone .., .cloneWrite => true
  | .importBundle .., .importLook | .importBundle .., .importConflicts _
  | .importBundle .., .importPlace _ | .importBundle .., .importWrite _ => true
  | _, .createLook | _, .createWrite _ | _, .cloneLook | _, .cloneWrite | _, .importLook
  | _, .importConflicts _ | _, .importPlace _ | _, .importWrite _ => false
  | _, _ => true

namespace ConfigFiles

open Runs

variable {α σ β : Type*} {storageOf : α → σ} {s r : ConfigFiles α σ β} {a : FileAction α σ β}
  {i j k : ℕ} {t u : FileTask α σ β} {o : Option σ} {stage : FileStage} {touched : Bool}

/-- No creation is registering. -/
def registered (s : ConfigFiles α σ β) : Bool := s.tasks.all fun t => !t.stage.registering

/-- No removal is cleaning up. -/
def cleaned (s : ConfigFiles α σ β) : Bool := s.tasks.all fun t => !t.stage.cleaning

/-- A step finds what its command saw: a move or a write finds the active YAML there or not as the
last look did, a YAML is published when no creation is registering and no removal is cleaning up,
and one is taken away when no creation is registering. -/
def undisturbed (s : ConfigFiles α σ β) : FileAction α σ β → Bool
  | .start _ | .reject _ => true
  | .next i =>
    match s.tasks[i]? with
    | none => true
    | some t =>
      match t.stage with
      | .unarchiveMove => s.active.isNone
      | .createWrite existed =>
        if t.command.overwrites && existed then s.active.isSome
        else s.active.isSome || s.registered && s.cleaned
      | .cloneWrite => s.active.isSome || s.registered && s.cleaned
      | .importPlace existed => s.active.isSome == existed
      | .importWrite existed =>
        s.active.isSome == existed && (existed || s.registered && s.cleaned)
      | .archiveMove | .deleteSidecar | .deleteYaml => s.registered
      | _ => true

/-- The action takes a YAML away that someone asked to be gone: `delete`, or an overwrite of a file
that was there. -/
def asked (s : ConfigFiles α σ β) : FileAction α σ β → Bool
  | .next i =>
    match s.tasks[i]? with
    | none => false
    | some t =>
      match t.stage with
      | .deleteYaml => true
      | .createWrite existed | .importWrite existed => existed && t.command.overwrites
      | _ => false
  | _ => false

/-- The action is the one of `delete_archived`. -/
def purges (s : ConfigFiles α σ β) : FileAction α σ β → Bool
  | .next i =>
    match s.tasks[i]? with
    | none => false
    | some t => t.stage == .purgeYaml
  | _ => false

/-- **No content disappears**: it stays, it moves intact between the two places, or it was asked to
be gone. -/
structure Conserves (s : ConfigFiles α σ β) (a : FileAction α σ β) (r : ConfigFiles α σ β) :
    Prop where
  active : ∀ c, s.active = some c → r.active = some c ∨
    r.archived = some c ∧ s.archived = none ∧ r.active = none ∨ s.asked a = true
  archived : ∀ c, s.archived = some c → r.archived = some c ∨
    r.active = some c ∧ s.active = none ∧ r.archived = none ∨ s.purges a = true

/-- A filename no command is at work on. -/
def init (active archived : Option α) (sidecar : Option σ) (board : Option β) :
    ConfigFiles α σ β :=
  { active := active, archived := archived, sidecar := sidecar, board := board }

/-- What a task knows about the files. -/
structure Fine (s : ConfigFiles α σ β) (j : ℕ) (u : FileTask α σ β) : Prop where
  lock : u.stage.locked = true → s.lock = some j
  present : u.stage.removing = true ∨ u.stage.registering = true → s.active.isSome = true
  target : u.stage = .archiveMove → s.archived = none
  bare : u.stage = .deleteYaml → s.sidecar = none
  own : u.stage.registering = true → ∀ k, s.fresh = some k → k = j
  clean : u.stage.cleaning = true → s.fresh = none
  picked : u.stage = .importWrite true → u.command.overwrites = true
  early : u.stage.early = true → u.touched = false
  fits : u.command.fits u.stage = true

/-- The sidecar is the one the creation wrote; a clone writes none, and finds none but one that was
there before any command. -/
def SidecarOf (storageOf : α → σ) (o : Option σ) (s : ConfigFiles α σ β) (t : FileTask α σ β) :
    Prop :=
  match t.command.storage? storageOf s.active with
  | some storage => s.sidecar = some storage
  | none => s.sidecar = none ∨ s.sidecar = o

/-- What a creation wrote so far is in place. -/
def Mine (storageOf : α → σ) (o : Option σ) (s : ConfigFiles α σ β) (t : FileTask α σ β) : Prop :=
  match t.stage with
  | .initStorage => (t.command.storage? storageOf s.active).isSome = true
  | .dropEntry => s.SidecarOf storageOf o t
  | .persistBoard => s.SidecarOf storageOf o t ∧ s.board = none
  | .done => s.SidecarOf storageOf o t ∧ s.board = t.command.board?
  | _ => False

/-- **The invariant** of undisturbed runs. `o` is a sidecar without a device from before. -/
structure Settled (storageOf : α → σ) (o : Option σ) (s : ConfigFiles α σ β) : Prop where
  fine : ∀ j u, s.tasks[j]? = some u → s.Fine j u
  fresh : ∀ k, s.fresh = some k → s.active.isSome = true ∧ ∃ t, s.tasks[k]? = some t ∧
    s.active = t.command.content? ∧ s.Mine storageOf o t
  /-- A sidecar without a device is one an archive is about to unlink. -/
  tidy : s.active = none → (∀ t ∈ s.tasks, t.stage ≠ .archiveSidecar) →
    s.sidecar = none ∨ s.sidecar = o
  /-- No sidecar is written for a device that is being deleted. -/
  doomed : (∃ t ∈ s.tasks, t.stage = .deleteYaml) → ∀ t ∈ s.tasks, t.stage ≠ .initStorage

theorem Fine.mono (h : s.Fine j u) (hl : s.lock = some j → r.lock = some j)
    (ha : u.stage.removing = true ∨ u.stage.registering = true → s.active.isSome = true →
      r.active.isSome = true)
    (har : u.stage = .archiveMove → s.archived = none → r.archived = none)
    (hs : u.stage = .deleteYaml → s.sidecar = none → r.sidecar = none)
    (hf : u.stage.registering = true ∨ u.stage.cleaning = true →
      ∀ k, r.fresh = some k → s.fresh = some k) : r.Fine j u where
  lock hu := hl (h.lock hu)
  present hu := ha hu (h.present hu)
  target hu := har hu (h.target hu)
  bare hu := hs hu (h.bare hu)
  own hu k hk := h.own hu k (hf (.inl hu) k hk)
  clean hu := by
    cases hr : r.fresh with
    | none => rfl
    | some k =>
      have hk := hf (.inr hu) k hr
      rw [h.clean hu] at hk
      cases hk
  picked := h.picked
  early := h.early
  fits := h.fits

/-- One task goes on, to files that leave what the others know. -/
theorem Settled.move (h : s.Settled storageOf o) (ht : s.tasks[i]? = some t)
    (hr : r.tasks = s.tasks)
    (hfine : r.Fine i { t with stage := stage, touched := t.touched || touched })
    (hothers : ∀ j u, j ≠ i → s.tasks[j]? = some u → s.Fine j u → r.Fine j u)
    (hkeep : ∀ k, k ≠ i → r.fresh = some k →
      s.fresh = some k ∧ r.active = s.active ∧ r.sidecar = s.sidecar ∧ r.board = s.board)
    (hself : r.fresh = some i → r.active.isSome = true ∧ r.active = t.command.content? ∧
      r.Mine storageOf o { t with stage := stage, touched := t.touched || touched })
    (htidy : r.active = none → stage ≠ .archiveSidecar →
      (∀ j u, j ≠ i → s.tasks[j]? = some u → u.stage ≠ .archiveSidecar) →
      r.sidecar = none ∨ r.sidecar = o)
    (hdel : stage = .deleteYaml → ∀ j u, j ≠ i → s.tasks[j]? = some u → u.stage ≠ .initStorage)
    (hinit : stage = .initStorage → ∀ j u, j ≠ i → s.tasks[j]? = some u → u.stage ≠ .deleteYaml) :
    (r.goto i t stage touched).Settled storageOf o := by
  -- a task of the new list is the one that moved or one of the others
  have hget : ∀ j u, (r.goto i t stage touched).tasks[j]? = some u →
      j = i ∧ u = { t with stage := stage, touched := t.touched || touched } ∨
        j ≠ i ∧ s.tasks[j]? = some u := by
    intro j u hu
    have hu' : (s.tasks.set i { t with stage := stage, touched := t.touched || touched })[j]? =
        some u := by rw [← hr]; exact hu
    rw [List.getElem?_set] at hu'
    split at hu'
    · rename_i hij
      split at hu'
      · exact .inl ⟨hij.symm, (Option.some.inj hu').symm⟩
      · cases hu'
    · rename_i hij
      exact .inr ⟨fun e => hij e.symm, hu'⟩
  have hnth : ∀ j, j ≠ i → (r.goto i t stage touched).tasks[j]? = s.tasks[j]? := by
    intro j hj
    show (r.tasks.set i _)[j]? = _
    rw [hr, List.getElem?_set_ne (Ne.symm hj)]
  have hith : (r.goto i t stage touched).tasks[i]? =
      some { t with stage := stage, touched := t.touched || touched } := by
    show (r.tasks.set i _)[i]? = _
    rw [hr, List.getElem?_set_self (List.getElem?_eq_some_iff.1 ht).1]
  have hfiles : ∀ j u, r.Fine j u → (r.goto i t stage touched).Fine j u := fun j u hu =>
    hu.mono id (fun _ => id) (fun _ => id) (fun _ => id) fun _ _ => id
  refine ⟨fun j u hu => ?_, fun k hk => ?_, fun hnone hno => ?_, fun hdy => ?_⟩
  · rcases hget j u hu with ⟨rfl, rfl⟩ | ⟨hj, hu⟩
    · exact hfiles _ _ hfine
    · exact hfiles _ _ (hothers j u hj hu (h.fine j u hu))
  · by_cases hki : k = i
    · subst hki
      obtain ⟨h1, h2, h3⟩ := hself hk
      exact ⟨h1, _, hith, h2, h3⟩
    · obtain ⟨hsk, h1, h2, h3⟩ := hkeep k hki hk
      obtain ⟨hsome, u, hu, hc, hm⟩ := h.fresh k hsk
      refine ⟨(congrArg Option.isSome h1).trans hsome, u, (hnth k hki).trans hu, h1.trans hc, ?_⟩
      unfold Mine SidecarOf at hm ⊢
      rw [← h1, ← h2, ← h3] at hm
      exact hm
  · refine htidy hnone ?_ fun j u hj hu => ?_
    · exact hno _ (List.mem_of_getElem? hith)
    · exact hno u (List.mem_of_getElem? ((hnth j hj).trans hu))
  · obtain ⟨v, hv, hvy⟩ := hdy
    intro u hu hui
    obtain ⟨jv, hjv⟩ := List.getElem?_of_mem hv
    obtain ⟨ju, hju⟩ := List.getElem?_of_mem hu
    rcases hget jv v hjv with ⟨rfl, rfl⟩ | ⟨hj, hsv⟩ <;>
      rcases hget ju u hju with ⟨rfl, rfl⟩ | ⟨hj', hsu⟩
    · exact absurd (hvy.symm.trans hui) (by nofun)
    · exact hdel hvy ju u hj' hsu hui
    · exact hinit hui jv v hj hsv hvy
    · exact h.doomed ⟨v, List.mem_of_getElem? hsv, hvy⟩ u (List.mem_of_getElem? hsu) hui

theorem Settled.tidy_of (h : s.Settled storageOf o) (ht : s.tasks[i]? = some t)
    (harch : t.stage ≠ .archiveSidecar) (hnone : s.active = none)
    (hno : ∀ j u, j ≠ i → s.tasks[j]? = some u → u.stage ≠ .archiveSidecar) :
    s.sidecar = none ∨ s.sidecar = o := by
  refine h.tidy hnone fun u hu => ?_
  obtain ⟨j, hj⟩ := List.getElem?_of_mem hu
  by_cases hji : j = i
  · subst hji
    rw [ht] at hj
    cases hj
    exact harch
  · exact hno j u hji hj

/-- A step of a registration: the sidecar or the entry is written. -/
theorem Settled.register (h : s.Settled storageOf o) (ht : s.tasks[i]? = some t)
    (hreg : t.stage.registering = true)
    (hst : stage = .dropEntry ∨ stage = .persistBoard ∨ stage = .done) (hr : r.tasks = s.tasks)
    (hl : r.lock = s.lock) (ha : r.active = s.active) (har : r.archived = s.archived)
    (hf : r.fresh = s.fresh) (hs : t.stage ≠ .initStorage → r.sidecar = s.sidecar)
    (hmine : s.Mine storageOf o t →
      r.Mine storageOf o { t with stage := stage, touched := t.touched || false }) :
    (r.goto i t stage false).Settled storageOf o := by
  have hfi := h.fine i t ht
  have hsome := hfi.present (.inr hreg)
  have hsome' : r.active.isSome = true := by rw [ha]; exact hsome
  refine h.move ht hr ?_ (fun j u hj hu hfu => ?_) (fun k hk hfk => ?_) (fun hk => ?_)
    (fun hn => ?_) ?_ ?_
  · refine ⟨?_, fun _ => hsome', ?_, ?_, fun _ k hk => hfi.own hreg k (hf ▸ hk), ?_, ?_, ?_, ?_⟩
    all_goals rcases hst with rfl | rfl | rfl <;> first | (cases t.command <;> rfl) | nofun
  · refine hfu.mono (fun he => hl.trans he) (fun _ he => (congrArg Option.isSome ha).trans he)
      (fun _ he => har.trans he) (fun hd he => ?_) fun _ k hk => hf ▸ hk
    have hini : t.stage ≠ .initStorage :=
      h.doomed ⟨u, List.mem_of_getElem? hu, hd⟩ t (List.mem_of_getElem? ht)
    exact (hs hini).trans he
  · exact absurd (hfi.own hreg k (hf ▸ hfk)) hk
  · obtain ⟨-, u, hu, hcu, hm⟩ := h.fresh i (hf ▸ hk)
    rw [ht] at hu
    cases hu
    exact ⟨hsome', ha.trans hcu, hmine hm⟩
  · rw [hn] at hsome'
    cases hsome'
  · rcases hst with rfl | rfl | rfl <;> nofun
  · rcases hst with rfl | rfl | rfl <;> nofun

/-- A step of a cleanup. -/
theorem Settled.clean (h : s.Settled storageOf o) (ht : s.tasks[i]? = some t)
    (hcl : t.stage.cleaning = true)
    (hst : stage = .archiveVolatile ∨ stage = .purgeEntry ∨ stage = .done)
    (hr : r.tasks = s.tasks) (ha : r.active = s.active) (har : r.archived = s.archived)
    (hf : r.fresh = s.fresh)
    (hs : r.sidecar = none ∨ r.sidecar = s.sidecar ∧ t.stage ≠ .archiveSidecar)
    (hl : ∀ j, j ≠ i → s.lock = some j → r.lock = some j)
    (hlock : stage.locked = true → r.lock = some i) :
    (r.goto i t stage false).Settled storageOf o := by
  have hfi := h.fine i t ht
  have hnone : r.fresh = none := hf.trans (hfi.clean hcl)
  refine h.move ht hr ?_ (fun j u hj hu hfu => ?_) (fun k hk hfk => ?_) (fun hk => ?_)
    (fun hn _ hno => ?_) ?_ ?_
  · refine ⟨hlock, ?_, ?_, ?_, ?_, fun _ => hnone, ?_, ?_, ?_⟩
    all_goals rcases hst with rfl | rfl | rfl <;>
      first | (cases t.command <;> rfl) | nofun
  · refine hfu.mono (hl j hj) (fun _ he => (congrArg Option.isSome ha).trans he)
      (fun _ he => har.trans he) (fun _ he => ?_) fun _ k hk => hf ▸ hk
    rcases hs with hs | hs
    · exact hs
    · exact hs.1.trans he
  · rw [hnone] at hfk; cases hfk
  · rw [hnone] at hk; cases hk
  · rcases hs with hs | hs
    · exact .inl hs
    · rw [hs.1]
      exact h.tidy_of ht hs.2 (ha ▸ hn) hno
  · rcases hst with rfl | rfl | rfl <;> nofun
  · rcases hst with rfl | rfl | rfl <;> nofun

theorem registered_iff :
    s.registered = true ↔ ∀ (j : ℕ) (u : FileTask α σ β), s.tasks[j]? = some u →
      u.stage.registering = false := by
  rw [registered, List.all_eq_true]
  constructor
  · intro h j u hu
    simpa using h u (List.mem_of_getElem? hu)
  · intro h u hu
    obtain ⟨j, hj⟩ := List.getElem?_of_mem hu
    simpa using h j u hj

theorem cleaned_iff :
    s.cleaned = true ↔ ∀ (j : ℕ) (u : FileTask α σ β), s.tasks[j]? = some u →
      u.stage.cleaning = false := by
  rw [cleaned, List.all_eq_true]
  constructor
  · intro h j u hu
    simpa using h u (List.mem_of_getElem? hu)
  · intro h u hu
    obtain ⟨j, hj⟩ := List.getElem?_of_mem hu
    simpa using h j u hj

/-- The lock keeps the other removals away. -/
theorem Settled.alone (h : s.Settled storageOf o) (ht : s.tasks[i]? = some t)
    (hi : t.stage.locked = true) (hj : j ≠ i) (hu : s.tasks[j]? = some u) :
    u.stage.locked = false := by
  cases hl : u.stage.locked with
  | false => rfl
  | true =>
    have h1 := (h.fine i t ht).lock hi
    have h2 := (h.fine j u hu).lock hl
    rw [h1] at h2
    exact absurd (Option.some.inj h2).symm hj

/-- A new YAML is published by a creation that meets no other one and no removal. -/
theorem Settled.publish (h : s.Settled storageOf o) (ht : s.tasks[i]? = some t)
    (hnone : s.active = none) (hreg : s.registered = true) (hcl : s.cleaned = true)
    (hc : t.command.content?.isSome = true) (hst : stage = .initStorage ∧
      (∀ c, (t.command.storage? storageOf (some c)).isSome = true) ∨
      stage = .dropEntry ∧ ∀ c, t.command.storage? storageOf c = none) :
    (s.publish i t stage).Settled storageOf o := by
  have hreg' := registered_iff.1 hreg
  have hcl' := cleaned_iff.1 hcl
  -- with no YAML in place no removal has seen one
  have hrem : ∀ (j : ℕ) (u : FileTask α σ β), s.tasks[j]? = some u → u.stage.removing = false := by
    intro j u hu
    cases hr : u.stage.removing with
    | false => rfl
    | true =>
      have hp := (h.fine j u hu).present (.inl hr)
      rw [hnone] at hp
      cases hp
  have hstage : stage.registering = true := by
    rcases hst with ⟨rfl, -⟩ | ⟨rfl, -⟩ <;> rfl
  refine h.move ht rfl ?_ (fun j u hj hu hfu => ?_) (fun k hk hfk => ?_) (fun _ => ?_)
    (fun hn => ?_) ?_ fun _ j u hj hu hdel => ?_
  · exact {
      lock := by rcases hst with ⟨rfl, -⟩ | ⟨rfl, -⟩ <;> nofun
      present := fun _ => hc
      target := by rcases hst with ⟨rfl, -⟩ | ⟨rfl, -⟩ <;> nofun
      bare := by rcases hst with ⟨rfl, -⟩ | ⟨rfl, -⟩ <;> nofun
      own := fun _ k hk => (Option.some.inj hk).symm
      clean := by rcases hst with ⟨rfl, -⟩ | ⟨rfl, -⟩ <;> nofun
      picked := by rcases hst with ⟨rfl, -⟩ | ⟨rfl, -⟩ <;> nofun
      early := by rcases hst with ⟨rfl, -⟩ | ⟨rfl, -⟩ <;> nofun
      fits := by rcases hst with ⟨rfl, -⟩ | ⟨rfl, -⟩ <;> cases t.command <;> rfl }
  · refine hfu.mono id (fun _ _ => hc) (fun _ => id) (fun _ => id) fun hor => ?_
    rw [hreg' j u hu, hcl' j u hu] at hor
    rcases hor with hor | hor <;> cases hor
  · exact absurd (Option.some.inj hfk).symm hk
  · refine ⟨hc, rfl, ?_⟩
    rcases hst with ⟨rfl, hsome⟩ | ⟨rfl, hno⟩
    · obtain ⟨c, hcc⟩ := Option.isSome_iff_exists.1 hc
      show (t.command.storage? storageOf t.command.content?).isSome = true
      rw [hcc]
      exact hsome c
    · show SidecarOf storageOf o _ _
      unfold SidecarOf
      simp only [hno]
      refine h.tidy hnone fun u hu hu' => ?_
      obtain ⟨j, hj⟩ := List.getElem?_of_mem hu
      have hcu := hcl' j u hj
      rw [hu'] at hcu
      cases hcu
  · rw [show t.command.content? = none from hn] at hc
    cases hc
  · rcases hst with ⟨rfl, -⟩ | ⟨rfl, -⟩ <;> nofun
  · have hr := hrem j u hu
    rw [hdel] at hr
    cases hr

/-- The active YAML is replaced, and no longer the one that was published. -/
theorem Settled.replace (h : s.Settled storageOf o) (ht : s.tasks[i]? = some t)
    (hc : t.command.content?.isSome = true) (hst : stage = .persistBoard ∨ stage = .done) :
    (s.replace i t stage).Settled storageOf o := by
  refine h.move ht rfl ?_ (fun j u hj hu hfu => ?_) (fun k hk hfk => ?_) nofun
    (fun hn => ?_) ?_ ?_
  · exact {
      lock := by rcases hst with rfl | rfl <;> nofun
      present := fun _ => hc
      target := by rcases hst with rfl | rfl <;> nofun
      bare := by rcases hst with rfl | rfl <;> nofun
      own := nofun
      clean := fun _ => rfl
      picked := by rcases hst with rfl | rfl <;> nofun
      early := by rcases hst with rfl | rfl <;> nofun
      fits := by rcases hst with rfl | rfl <;> cases t.command <;> rfl }
  · exact hfu.mono id (fun _ _ => hc) (fun _ => id) (fun _ => id) nofun
  · cases hfk
  · rw [show t.command.content? = none from hn] at hc
    cases hc
  · rcases hst with rfl | rfl <;> nofun
  · rcases hst with rfl | rfl <;> nofun

theorem Conserves.same (ha : r.active = s.active) (har : r.archived = s.archived) :
    s.Conserves a r :=
  ⟨fun _ hc => .inl (ha.trans hc), fun _ hc => .inl (har.trans hc)⟩

end ConfigFiles

end DeviceBuilder
