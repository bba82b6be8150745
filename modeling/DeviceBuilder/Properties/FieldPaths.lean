import DeviceBuilder.Properties.LineEdits

/-!
# Field paths around an edit

A field path leads from a frame to another over the steps of its segments
(`Steps`), by keys (`KeyStep`) and by indices (`IndexStep`). A block of lines at
the indent of the fields of its last frame leaves the way there as it is
(`LineEdit.steps_pos`), for it stands behind what each step looks at
(`room_of_steps`).
-/

namespace DeviceBuilder

open Lines

section

variable {u : CharTable} {lines : List Text} {f g t : Span} {seg key : Text} {segs : List Text}
  {passed : List Span}

/-! ### Fields -/

theorem keyBlockFrame_start (lines : List Text) (start stop : ℕ) (outer : Text) :
    (keyBlockFrame lines start stop outer).start = start := rfl

theorem keyBlockFrame_stop (lines : List Text) (start stop : ℕ) (outer : Text) :
    (keyBlockFrame lines start stop outer).stop = childBlockEnd lines start stop outer := rfl

theorem keyBlockFrame_childIndent (lines : List Text) (start stop : ℕ) (outer : Text) :
    (keyBlockFrame lines start stop outer).childIndent =
      ((((lines.take (childBlockEnd lines start stop outer)).drop (start + 1)).find?
        fun l => !isGap l).map (leadingWs <| content ·)).getD (outer ++ esphomeYamlIndent) := rfl

theorem lt_childBlockEnd {start stop : ℕ} {outer : Text} (hl : start < stop) :
    start < childBlockEnd lines start stop outer := lt_pullBack (le_firstIn hl)

theorem childBlockEnd_le {start stop : ℕ} {outer : Text} :
    childBlockEnd lines start stop outer ≤ stop := Nat.le_trans pullBack_le firstIn_le

/-- The lines of a child block do not end it. -/
theorem endsChild_inside {start stop i : ℕ} {outer : Text} (hs : stop ≤ lines.length)
    (h1 : start < i) (h2 : i < childBlockEnd lines start stop outer) :
    endsChild outer (lineAt lines i) = false := by
  have hle : childBlockEnd lines start stop outer ≤
      firstIn (endsChild outer) lines (start + 1) stop := pullBack_le
  have hle' : childBlockEnd lines start stop outer ≤ stop := childBlockEnd_le
  exact firstIn_before h1 (Nat.lt_of_lt_of_le h2 hle) (by omega)

/-- How a key is found: on the dash line of an item, or as the first header at the indent. -/
theorem locateKeyBlock_some (h : locateKeyBlock lines f key = .ok (some g)) :
    ∃ p, g = keyBlockFrame lines p f.stop f.childIndent ∧
      (f.isListItem = true ∧ p = f.start ∧
          keyLine dashKeyPrefix key (content (lineAt lines p)) = true ∨
        f.start ≤ p ∧ p < f.stop ∧ p < lines.length ∧
          keyHeader key f.childIndent (content (lineAt lines p)) = true) := by
  unfold locateKeyBlock at h
  dsimp only at h
  split at h
  · next hd =>
    cases h
    rw [Bool.and_eq_true] at hd
    exact ⟨_, rfl, Or.inl ⟨hd.1, rfl, hd.2⟩⟩
  · split at h
    · cases h
    · split at h
      · cases h
      · next n hn =>
        have hlt := (List.findIdx?_eq_some_iff_getElem.1 hn).1
        simp only [List.length_drop, List.length_take] at hlt
        split at h
        · next hh =>
          cases h
          exact ⟨_, rfl, Or.inr ⟨Nat.le_add_right _ _, by omega, by omega, hh⟩⟩
        · cases h

/-- A child block cut off at its end has the same end. -/
theorem childBlockEnd_self {start stop : ℕ} {outer : Text} (hl : start < stop)
    (hs : stop ≤ lines.length) :
    childBlockEnd lines start (childBlockEnd lines start stop outer) outer =
      childBlockEnd lines start stop outer := by
  have h1 : start < childBlockEnd lines start stop outer := lt_childBlockEnd hl
  have hle : childBlockEnd lines start stop outer ≤ stop := childBlockEnd_le
  have hends : ∀ i, start < i → i < childBlockEnd lines start stop outer →
      endsChild outer (lineAt lines i) = false := fun i => endsChild_inside hs
  generalize hE : childBlockEnd lines start stop outer = E at *
  have hfirst : firstIn (endsChild outer) lines (start + 1) E = E := by
    have hnone : ((lines.take E).drop (start + 1)).findIdx? (endsChild outer) = none := by
      rw [List.findIdx?_eq_none_iff]
      intro l hl
      obtain ⟨i, hi, h1, h2, rfl⟩ := mem_slice hl
      rw [← lineAt_eq hi]
      exact hends i h1 h2
    rw [firstIn, hnone]
  rw [childBlockEnd, hfirst]
  -- the last line is kept, or there is none to leave
  obtain ⟨e, rfl⟩ : ∃ e, E = e + 1 := ⟨E - 1, by omega⟩
  have hkeep : start < e → staysInside outer (lineAt lines e) = true := by
    intro hse
    have hpull : pullBack (staysInside outer) lines start
        (firstIn (endsChild outer) lines (start + 1) stop) = e + 1 := hE
    generalize firstIn (endsChild outer) lines (start + 1) stop = t at hpull
    clear hE hends hfirst h1 hle
    induction t with
    | zero => cases hpull
    | succ t ih =>
      rw [pullBack] at hpull
      split at hpull
      · exact ih hpull
      · next hk =>
        cases hpull
        simpa [hse] using hk
  rw [pullBack, if_neg]
  intro hk
  rw [Bool.and_eq_true, decide_eq_true_eq] at hk
  rw [hkeep hk.1] at hk
  exact absurd hk.2 (by decide)

/-! ### Field paths -/

/-- The segments of a field path lead from one frame to another, over those passed. -/
inductive Steps (u : CharTable) (lines : List Text) : Span → List Text → List Span → Span → Prop
  | nil (f : Span) : Steps u lines f [] [] f
  | cons {f g t : Span} {seg : Text} {segs : List Text} {passed : List Span} :
      stepFrame u lines f seg = .ok (some g) → Steps u lines g segs passed t →
      Steps u lines f (seg :: segs) (f :: passed) t

/-- A frame whose opening line stands at the indent of its children at most. -/
structure Framed (lines : List Text) (f : Span) : Prop where
  ok : f.Ok lines
  opening : (leadingWs (content (lineAt lines f.start))).length ≤ f.childIndent.length
  behind : f.isListItem = true →
    (leadingWs (content (lineAt lines f.start))).length < f.childIndent.length

theorem isGap_of_lstrip {l rest : Text} {c : Char} (h : lstripBlanks (content l) = c :: rest)
    (hne : c ≠ '#') : isGap l = false := by
  have hne' : ('#' == c) = false := by
    rw [beq_eq_false_iff_ne]
    exact Ne.symm hne
  simp [isGap, h, startsWith, List.isPrefixOf, hne']

theorem isGap_of_item {l : Text} (h : isListItemLine (lstripBlanks (content l)) = true) :
    isGap l = false := by
  obtain ⟨rest, hrest⟩ := lstrip_of_item h
  exact isGap_of_lstrip hrest (by decide)

/-- A header line: its indent, and what is behind it. -/
theorem header_line {l ci : Text} (hb : Blanks ci) (hk : IsFieldName key)
    (h : keyHeader key ci (content l) = true) :
    leadingWs (content l) = ci ∧ isGap l = false ∧
      isListItemLine (lstripBlanks (content l)) = false := by
  obtain ⟨tail, ht, -⟩ := keyHeader_iff.1 h
  obtain ⟨h1, h2, -, h4⟩ := name_line hk (':' :: tail)
  have hstrip : lstripBlanks (content l) = key ++ ':' :: tail := by
    rw [ht, lstripBlanks_indent hb, h2]
  refine ⟨by rw [ht, leadingWs_indent hb, h1, List.append_nil], ?_, by rw [hstrip, h4]⟩
  obtain ⟨x, rest, rfl⟩ := List.exists_cons_of_ne_nil hk.1
  exact isGap_of_lstrip hstrip (ne_of_name (hk.2 x List.mem_cons_self)).2.1

theorem Blanks.eq {a b : Text} (ha : Blanks a) (hb : Blanks b) (h : a.length = b.length) :
    a = b := by
  rw [List.eq_replicate_iff.2 ⟨rfl, ha⟩, List.eq_replicate_iff.2 ⟨rfl, hb⟩, h]

/-- The children of a block stand at the indent of its key at least. -/
theorem le_keyBlockFrame {start stop : ℕ} {outer : Text} (hs : stop ≤ lines.length) :
    outer.length ≤ (keyBlockFrame lines start stop outer).childIndent.length := by
  rw [keyBlockFrame_childIndent]
  cases hf : ((lines.take (childBlockEnd lines start stop outer)).drop (start + 1)).find?
      fun l => !isGap l with
  | none =>
    rw [Option.map_none, Option.getD_none, List.length_append]
    omega
  | some l =>
    have hmem := List.mem_of_find?_eq_some hf
    have hgap : isGap l = false := by simpa using List.find?_some hf
    obtain ⟨i, hi, h1, h2, rfl⟩ := mem_slice hmem
    have hends := endsChild_inside hs h1 h2
    rw [lineAt_eq hi] at hends
    rw [Option.map_some, Option.getD_some]
    simp only [endsChild, hgap, Bool.not_false, Bool.true_and, Bool.or_eq_false_iff,
      decide_eq_false_iff_not] at hends
    omega

/-- A key leads from a frame to a block inside it. -/
structure KeyStep (lines : List Text) (f : Span) (key : Text) (g : Span) : Prop where
  framed : Framed lines g
  start : f.start ≤ g.start
  stop : g.stop ≤ f.stop
  block : g = keyBlockFrame lines g.start f.stop f.childIndent
  deeper : f.childIndent.length ≤ g.childIndent.length
  opening : (leadingWs (content (lineAt lines g.start))).length ≤ f.childIndent.length
  header : f.start = g.start ∧ f.isListItem = true ∧
      keyLine dashKeyPrefix key (content (lineAt lines g.start)) = true ∨
    keyHeader key f.childIndent (content (lineAt lines g.start)) = true

theorem keyStep_of_locate (hf : Framed lines f) (hk : IsFieldName key)
    (h : locateKeyBlock lines f key = .ok (some g)) : KeyStep lines f key g := by
  obtain ⟨p, rfl, hp⟩ := locateKeyBlock_some h
  obtain ⟨⟨hlt, hle, hb⟩, hopen, hbehind⟩ := hf
  have hps : f.start ≤ p ∧ p < f.stop := by
    rcases hp with ⟨-, rfl, -⟩ | ⟨h1, h2, -, -⟩
    · exact ⟨Nat.le_refl _, hlt⟩
    · exact ⟨h1, h2⟩
  have hlead : (leadingWs (content (lineAt lines p))).length ≤ f.childIndent.length := by
    rcases hp with ⟨-, rfl, -⟩ | ⟨-, -, -, hh⟩
    · exact hopen
    · rw [(header_line hb hk hh).1]
  have hdeep : f.childIndent.length ≤
      (keyBlockFrame lines p f.stop f.childIndent).childIndent.length := le_keyBlockFrame hle
  have hblanks : Blanks (keyBlockFrame lines p f.stop f.childIndent).childIndent := by
    rw [keyBlockFrame_childIndent]
    cases ((lines.take (childBlockEnd lines p f.stop f.childIndent)).drop (p + 1)).find?
        fun l => !isGap l with
    | none => exact hb.append blanks_indent
    | some l => exact blanks_leadingWs _
  refine ⟨⟨⟨lt_childBlockEnd hps.2, Nat.le_trans childBlockEnd_le hle, hblanks⟩, ?_, nofun⟩,
    hps.1, childBlockEnd_le, rfl, hdeep, hlead, ?_⟩
  · exact Nat.le_trans hlead hdeep
  · exact hp.imp (fun h => ⟨h.2.1.symm, h.1, h.2.2⟩) fun h => h.2.2.2

/-- An index leads from a frame to an item of its list. -/
structure IndexStep (lines : List Text) (f g : Span) : Prop where
  framed : Framed lines g
  start : f.start < g.start
  stop : g.stop ≤ f.stop
  isItem : g.isListItem = true
  mem : g.start ∈ topListItemStarts lines f.start f.stop
  apart : ∀ i ∈ topListItemStarts lines f.start f.stop, i ≤ g.start ∨ g.stop ≤ i
  indent : g.childIndent.length = (leadingWs (content (lineAt lines g.start))).length + 2

theorem indexStep_of_bounds (hf : f.stop ≤ lines.length)
    (h : g ∈ instanceBounds lines (topListItemStarts lines f.start f.stop) f.stop) :
    IndexStep lines f g := by
  obtain ⟨⟨a, b⟩, hm, rfl⟩ := List.mem_map.1 h
  have hp := pairwise_topListItemStarts lines f.start f.stop
  have hs : ∀ i ∈ topListItemStarts lines f.start f.stop, i < f.stop := fun i hi =>
    (mem_topListItemStarts hi).2.1
  obtain ⟨ha, hab, hb⟩ := mem_zip_next hp hs hm
  obtain ⟨hapart, -⟩ := zip_next_apart hp hs hm
  have hindent : (childIndentOf lines a).length =
      (leadingWs (content (lineAt lines a))).length + 2 := by
    rw [childIndentOf, List.length_append, leadingWs_content_eq]
    rfl
  have hblanks : Blanks (childIndentOf lines a) := (blanks_leadingWs _).append blanks_indent
  refine ⟨⟨⟨hab, Nat.le_trans hb hf, hblanks⟩, ?_, fun _ => ?_⟩,
    (mem_topListItemStarts ha).1, hb, rfl, ha, hapart, hindent⟩
  · dsimp only
    omega
  · dsimp only
    omega

/-- One step of a path, by a key or an index. -/
theorem stepFrame_some (hf : Framed lines f) (hk : IsFieldName seg)
    (h : stepFrame u lines f seg = .ok (some g)) :
    u.int? seg = none ∧ locateKeyBlock lines f seg = .ok (some g) ∧ KeyStep lines f seg g ∨
      (u.int? seg).isSome = true ∧ IndexStep lines f g := by
  unfold stepFrame at h
  split at h
  · next idx hidx =>
    split at h
    · refine Or.inr ⟨by rw [hidx]; rfl, indexStep_of_bounds hf.ok.le ?_⟩
      exact List.mem_of_getElem? (Except.ok.inj h)
    · cases h
  · next hidx => exact Or.inl ⟨hidx, h, keyStep_of_locate hf hk h⟩

theorem framed_of_step (hf : Framed lines f) (hk : IsFieldName seg)
    (h : stepFrame u lines f seg = .ok (some g)) :
    Framed lines g ∧ f.start ≤ g.start ∧ g.stop ≤ f.stop := by
  rcases stepFrame_some hf hk h with ⟨-, -, hg⟩ | ⟨-, hg⟩
  · exact ⟨hg.framed, hg.start, hg.stop⟩
  · exact ⟨hg.framed, Nat.le_of_lt hg.start, hg.stop⟩

theorem Steps.framed (h : Steps u lines f segs passed t) (hf : Framed lines f)
    (hsegs : ∀ seg ∈ segs, IsFieldName seg) :
    Framed lines t ∧ f.start ≤ t.start ∧ t.stop ≤ f.stop := by
  induction h with
  | nil f => exact ⟨hf, Nat.le_refl _, Nat.le_refl _⟩
  | cons hstep _ ih =>
    obtain ⟨hg, h1, h2⟩ := framed_of_step hf (hsegs _ List.mem_cons_self) hstep
    obtain ⟨ht, h3, h4⟩ := ih hg fun s hs => hsegs s (List.mem_cons_of_mem _ hs)
    exact ⟨ht, Nat.le_trans h1 h3, Nat.le_trans h4 h2⟩

/-- The descent follows the steps there are. -/
theorem descendFieldSegments_of_steps (h : Steps u lines f segs passed t) (below : List Span)
    (rest : List Text) :
    descendFieldSegments u lines f below (segs ++ rest) =
      descendFieldSegments u lines t (passed.reverse ++ below) rest := by
  induction h generalizing below with
  | nil f => rfl
  | cons hstep _ ih =>
    rw [List.cons_append, descendFieldSegments_cons, hstep]
    dsimp only
    rw [ih, List.reverse_cons, List.append_assoc]
    rfl

/-- Where the descent ends, there is no further step. -/
theorem steps_of_descend {below ends : List Span}
    (h : descendFieldSegments u lines f below segs = .ok (t, ends)) :
    ∃ done rest passed, segs = done ++ rest ∧ Steps u lines f done passed t ∧
      ends = passed.reverse ++ below ∧ passed.length = done.length ∧
      ∀ seg rest', rest = seg :: rest' → stepFrame u lines t seg = .ok none := by
  induction segs generalizing f below with
  | nil =>
    cases h
    exact ⟨[], [], [], rfl, Steps.nil _, rfl, rfl, nofun⟩
  | cons seg segs ih =>
    rw [descendFieldSegments_cons] at h
    cases hs : stepFrame u lines f seg with
    | error e =>
      rw [hs] at h
      cases h
    | ok o =>
      rw [hs] at h
      cases o with
      | none =>
        cases h
        refine ⟨[], seg :: segs, [], rfl, Steps.nil _, rfl, rfl, fun s r hr => ?_⟩
        cases hr
        exact hs
      | some g =>
        obtain ⟨done, rest, passed, rfl, hsteps, rfl, hlen, hrest⟩ := ih h
        refine ⟨seg :: done, rest, f :: passed, rfl, Steps.cons hs hsteps, ?_, ?_, hrest⟩
        · rw [List.reverse_cons, List.append_assoc]
          rfl
        · rw [List.length_cons, List.length_cons, hlen]

/-! ### Room for new lines -/

/-- The dash lines inside a frame do not stand left of its opening line. -/
def DashesNested (lines : List Text) (f : Span) : Prop :=
  ∀ i, f.start < i → i < f.stop →
    isListItemLine (lstripBlanks (content (lineAt lines i))) = true →
    (leadingWs (content (lineAt lines f.start))).length ≤
      (leadingWs (content (lineAt lines i))).length

/-- The frame is an item of a list, or its body is no list. -/
def TakesKeys (lines : List Text) (f : Span) : Prop :=
  f.isListItem = true ∨ blockBodyIsList lines f.start f.stop = false

/-- A dash opens an item where a blank follows it, or nothing. -/
theorem item_tail {r : Text} (h : isListItemLine ('-' :: r) = true) :
    r = [] ∨ ∃ r', r = ' ' :: r' := by
  cases r with
  | nil => exact Or.inl rfl
  | cons c r =>
    refine Or.inr ⟨r, ?_⟩
    unfold isListItemLine startsWith at h
    rw [Bool.or_eq_true] at h
    rcases h with h | h
    · have hc : ' ' = c := by simpa using h
      rw [← hc]
    · have hsplit := List.rdropWhile_append_rtakeWhile (p := (· == ' ')) (l := '-' :: c :: r)
      rw [eq_of_beq h] at hsplit
      have htail : List.rtakeWhile (· == ' ') ('-' :: c :: r) = c :: r := by
        simpa using hsplit
      have hc := List.mem_rtakeWhile_imp (htail ▸ List.mem_cons_self)
      rw [eq_of_beq hc]

theorem stripText_item {l : Text} (h : isListItemLine (lstripBlanks (content l)) = true) :
    (startsWith (stripText l) ['-', ' '] || stripText l == ['-']) = true := by
  obtain ⟨r, hr⟩ := lstrip_of_item h
  obtain ⟨y, hy⟩ := stripText_of_lstrip hr (by decide)
  obtain ⟨z, hz⟩ : ∃ z, '-' :: y ++ z = '-' :: r := by
    rw [← hy, stripText_eq_of_lstrip hr (by decide)]
    exact List.rdropWhile_prefix _ _
  rw [stripText_content] at hy
  rw [hr] at h
  rw [hy]
  cases y with
  | nil => rfl
  | cons c y =>
    rcases item_tail h with rfl | ⟨r', rfl⟩
    · cases hz
    · cases hz
      rfl

theorem endsChild_of_deeper {outer l : Text} {c : ℕ}
    (h : isGap l = true ∨ c ≤ (leadingWs (content l)).length) (hlt : outer.length < c) :
    endsChild outer l = false := by
  rcases h with hg | hle
  · simp [endsChild, hg]
  · have h1 : ¬ (leadingWs (content l)).length < outer.length := by omega
    have h2 : (leadingWs (content l)).length ≠ outer.length := by omega
    simp [endsChild, h1, h2]

theorem staysInside_of_deeper {outer inner l : Text} (h : staysInside inner l = true)
    (hle : outer.length ≤ inner.length) : staysInside outer l = true := by
  unfold staysInside at h ⊢
  dsimp only at h ⊢
  rw [Bool.and_eq_true, Bool.or_eq_true, decide_eq_true_eq] at h ⊢
  exact ⟨h.1, h.2.imp_right fun h => Nat.lt_of_le_of_lt hle h⟩

/-- The children of a block that is no list stand behind the indent of its key. -/
theorem lt_keyBlockFrame {start stop : ℕ} {outer : Text} (hs : stop ≤ lines.length)
    (h : blockBodyIsList lines start (childBlockEnd lines start stop outer) = false) :
    outer.length < (keyBlockFrame lines start stop outer).childIndent.length := by
  rw [keyBlockFrame_childIndent]
  cases hf : ((lines.take (childBlockEnd lines start stop outer)).drop (start + 1)).find?
      fun l => !isGap l with
  | none =>
    rw [Option.map_none, Option.getD_none, List.length_append]
    exact Nat.lt_add_of_pos_right (by decide)
  | some l =>
    obtain ⟨hg, as, bs, hsplit, has⟩ := List.find?_eq_some_iff_append.1 hf
    have hgap : isGap l = false := by simpa using hg
    obtain ⟨i, hi, h1, h2, rfl⟩ :=
      mem_slice (hsplit ▸ List.mem_append_right as List.mem_cons_self)
    have hends := endsChild_inside hs h1 h2
    rw [lineAt_eq hi] at hends
    rw [Option.map_some, Option.getD_some]
    have hends' := hends
    simp only [endsChild, hgap, Bool.not_false, Bool.true_and, Bool.or_eq_false_iff,
      decide_eq_false_iff_not, Bool.and_eq_false_iff, Bool.not_eq_false',
      beq_eq_false_iff_ne] at hends'
    obtain ⟨hlt, hd⟩ := hends'
    rcases hd with hd | hd
    · omega
    · -- a list at the column of the key would be seen
      exfalso
      obtain ⟨rest, hrest⟩ := lstrip_of_item hd
      have hopens : opensBody (stripText lines[i]) = true :=
        opensBody_of_lstrip hrest (by decide) (by decide)
      have hfind : (((lines.take (childBlockEnd lines start stop outer)).drop (start + 1)).map
          stripText).find? opensBody = some (stripText lines[i]) := by
        refine List.find?_eq_some_iff_append.2 ⟨hopens, as.map stripText, bs.map stripText, ?_,
          fun x hx => ?_⟩
        · rw [hsplit, List.map_append, List.map_cons]
        · obtain ⟨l, hl, rfl⟩ := List.mem_map.1 hx
          have hgl : isGap l = true := by simpa using has l hl
          simp [opensBody_of_gap hgl]
      unfold blockBodyIsList at h
      have hfind' : (((lines.take (childBlockEnd lines start stop outer)).drop (start + 1)).map
          stripText).find? (fun s => !(s == [] || startsWith s ['#'])) =
            some (stripText lines[i]) := hfind
      dsimp only at h
      rw [hfind'] at h
      dsimp only at h
      rw [stripText_item hd] at h
      cases h

theorem KeyStep.lt (h : KeyStep lines f key g) (hf : f.Ok lines) (hg : TakesKeys lines g) :
    f.childIndent.length < g.childIndent.length := by
  have hblock := h.block
  have hb : blockBodyIsList lines g.start (childBlockEnd lines g.start f.stop f.childIndent) =
      false := by
    rcases hg with hi | hb
    · rw [hblock] at hi
      cases hi
    · rw [hblock] at hb
      exact hb
  rw [hblock]
  exact lt_keyBlockFrame hf.le hb

/-- The frame at the end of a path stands behind what its first step sees. -/
structure Room (u : CharTable) (lines : List Text) (f : Span) (seg : Text) (g : Span)
    (c : ℕ) : Prop where
  key : u.int? seg = none → f.childIndent.length < c
  index : (u.int? seg).isSome = true → (leadingWs (content (lineAt lines g.start))).length + 2 ≤ c

theorem room_of_steps (hsteps : Steps u lines g segs passed t)
    (hstep : stepFrame u lines f seg = .ok (some g)) (hf : Framed lines f)
    (hk : IsFieldName seg) (hsegs : ∀ seg ∈ segs, IsFieldName seg)
    (hd : ∀ h ∈ passed, DashesNested lines h) (ht : TakesKeys lines t) :
    Room u lines f seg g t.childIndent.length := by
  induction hsteps generalizing f seg with
  | nil g =>
    rcases stepFrame_some hf hk hstep with ⟨hi, -, hg⟩ | ⟨hi, hg⟩
    · exact ⟨fun _ => hg.lt hf.ok ht, fun h => by simp [hi] at h⟩
    · refine ⟨fun h => absurd hi (by simp [h]), fun _ => ?_⟩
      rw [hg.indent]
  | @cons g g₂ t seg₂ segs passed hstep₂ _ ih =>
    have hg : Framed lines g := (framed_of_step hf hk hstep).1
    have hk₂ := hsegs seg₂ List.mem_cons_self
    have hroom := ih hstep₂ hg hk₂ (fun s hs => hsegs s (List.mem_cons_of_mem _ hs))
      (fun h hh => hd h (List.mem_cons_of_mem _ hh)) ht
    have hnested := hd g List.mem_cons_self
    rcases stepFrame_some hf hk hstep with ⟨hi, -, h1⟩ | ⟨hi, h1⟩
    · refine ⟨fun _ => ?_, fun h => by simp [hi] at h⟩
      rcases stepFrame_some hg hk₂ hstep₂ with ⟨hi₂, -, -⟩ | ⟨hi₂, h2⟩
      · have := hroom.key hi₂
        have := h1.deeper
        omega
      · -- the dash lines of the block do not end it
        have hlt := hroom.index hi₂
        obtain ⟨ha, hb, hitem⟩ := mem_topListItemStarts h2.mem
        have hstop : g.stop = childBlockEnd lines g.start f.stop f.childIndent :=
          congrArg Span.stop h1.block
        have hinside : endsChild f.childIndent (lineAt lines g₂.start) = false :=
          endsChild_inside hf.ok.le ha (hstop ▸ hb)
        rw [endsChild, isGap_of_item hitem] at hinside
        simp only [Bool.not_false, Bool.true_and, Bool.or_eq_false_iff,
          decide_eq_false_iff_not] at hinside
        omega
    · refine ⟨fun h => absurd hi (by simp [h]), fun _ => ?_⟩
      rcases stepFrame_some hg hk₂ hstep₂ with ⟨hi₂, -, -⟩ | ⟨hi₂, h2⟩
      · have := hroom.key hi₂
        have := h1.indent
        omega
      · have hlt := hroom.index hi₂
        obtain ⟨ha, hb, hitem⟩ := mem_topListItemStarts h2.mem
        have := hnested g₂.start ha hb hitem
        omega

end

namespace LineEdit

variable {u : CharTable} {e : LineEdit} {f g : Span} {seg key : Text} {segs : List Text}
  {passed : List Span}

/-! ### Steps around an edit -/

section

variable {p s t : ℕ}

theorem findIdx?_pos {q : Text → Bool} {n : ℕ} (hw : e.Within s t)
    (h : ((e.source.take t).drop s).findIdx? q = some n) (hn : s + n < e.front.length) :
    ((e.target.take (e.pos t)).drop s).findIdx? q = some n := by
  obtain ⟨k, rfl, hk⟩ := exists_back hw.stop
  have hs := Nat.le_of_lt hw.start
  rw [source, slice_around _ _ _ hs, List.findIdx?_append] at h
  rw [hk, target, slice_around _ _ _ hs, List.findIdx?_append]
  cases hf : (e.front.drop s).findIdx? q with
  | some m =>
    rw [hf] at h
    exact h
  | none =>
    rw [hf, Option.none_or] at h
    obtain ⟨m, -, rfl⟩ := Option.map_eq_some_iff.1 h
    rw [List.length_drop] at hn
    omega

/-- The block of a key around an edit whose lines stay inside. -/
theorem keyBlockFrame_pos {outer last : Text} (hs : s < e.front.length)
    (ht : e.front.length + e.old.length ≤ t)
    (hin : e.front.length + e.old.length ≤ childBlockEnd e.source s t outer)
    (hnew : ∀ l ∈ e.new, endsChild outer l = false) (hlast : e.new.getLast? = some last)
    (hkeep : staysInside outer last = true)
    (hchild : (∃ l ∈ e.front.drop (s + 1), isGap l = false) ∨
      ∃ first rest, e.new = first :: rest ∧ isGap first = false ∧
        leadingWs (content first) = (keyBlockFrame e.source s t outer).childIndent) :
    keyBlockFrame e.target s (e.pos t) outer = e.span (keyBlockFrame e.source s t outer) := by
  have hend := childBlockEnd_pos hs ht hnew hlast hkeep hin
  have hci : (keyBlockFrame e.target s (e.pos t) outer).childIndent =
      (keyBlockFrame e.source s t outer).childIndent := by
    obtain ⟨k, hk, hk'⟩ := exists_back hin
    rw [keyBlockFrame_childIndent, keyBlockFrame_childIndent, hend, hk']
    by_cases hfr : ∃ l ∈ e.front.drop (s + 1), isGap l = false
    · obtain ⟨l, hl, hg⟩ := hfr
      have hsome : ((e.front.drop (s + 1)).find? fun l => !isGap l).isSome = true :=
        List.find?_isSome.2 ⟨l, hl, by rw [hg]; rfl⟩
      obtain ⟨x, hx⟩ := Option.isSome_iff_exists.1 hsome
      rw [hk, source, target, slice_around _ _ _ hs, slice_around _ _ _ hs]
      simp only [List.find?_append, hx, Option.some_or]
    · obtain ⟨first, rest, hn, hg, hfirst⟩ := hchild.resolve_left hfr
      have hnone : ((e.front.drop (s + 1)).find? fun l => !isGap l) = none := by
        rw [List.find?_eq_none]
        intro l hl hg
        exact hfr ⟨l, hl, by simpa using hg⟩
      have hsome : (e.new.find? fun l => !isGap l) = some first := by
        rw [hn, List.find?_cons_of_pos]
        rw [hg]
        rfl
      rw [keyBlockFrame_childIndent] at hfirst
      rw [← hfirst, target, slice_around _ _ _ hs, List.find?_append, List.find?_append, hnone,
        hsome]
      rfl
  have hframe : keyBlockFrame e.target s (e.pos t) outer =
      ⟨s, childBlockEnd e.target s (e.pos t) outer,
        (keyBlockFrame e.target s (e.pos t) outer).childIndent, false⟩ := rfl
  rw [hframe, hci, hend, span, keyBlockFrame_start, pos_front hs]
  rfl

/-- **A field around an edit** is found again. -/
theorem locateKeyBlock_pos {last : Text} (h : locateKeyBlock e.source f key = .ok (some g))
    (hf : e.Within f.start f.stop) (hg : e.Within g.start g.stop)
    (hnew : ∀ l ∈ e.new, endsChild f.childIndent l = false) (hlast : e.new.getLast? = some last)
    (hkeep : staysInside f.childIndent last = true)
    (hchild : (∃ l ∈ e.front.drop (g.start + 1), isGap l = false) ∨
      ∃ first rest, e.new = first :: rest ∧ isGap first = false ∧
        leadingWs (content first) = g.childIndent) :
    locateKeyBlock e.target (e.span f) key = .ok (some (e.span g)) := by
  have hframe : ∀ p, g = keyBlockFrame e.source p f.stop f.childIndent →
      keyBlockFrame e.target p (e.pos f.stop) f.childIndent = e.span g := by
    rintro p rfl
    exact keyBlockFrame_pos hg.start hf.stop hg.stop hnew hlast hkeep hchild
  have hline : lineAt e.target f.start = lineAt e.source f.start := by
    have h1 := lineAt_pos hf.away_start
    rwa [pos_front hf.start] at h1
  have hspan : e.span f = ⟨f.start, e.pos f.stop, f.childIndent, f.isListItem⟩ := by
    rw [span, pos_front hf.start]
  rw [hspan]
  unfold locateKeyBlock at h ⊢
  dsimp only at h ⊢
  rw [hline]
  split at h
  · next hd =>
    rw [if_pos hd, hframe f.start (Option.some.inj (Except.ok.inj h)).symm]
  · next hd =>
    rw [if_neg hd]
    split at h
    · cases h
    · next hd' =>
      rw [if_neg hd']
      split at h
      · cases h
      · next n hn =>
        split at h
        · next hh =>
          have hgp : g = keyBlockFrame e.source (f.start + n) f.stop f.childIndent :=
            (Option.some.inj (Except.ok.inj h)).symm
          have hp : f.start + n < e.front.length := by
            have hs := hg.start
            rw [hgp] at hs
            exact hs
          have hat : lineAt e.target (f.start + n) = lineAt e.source (f.start + n) := by
            have h1 := lineAt_pos (e := e) (p := f.start + n) (Or.inl hp)
            rwa [pos_front hp] at h1
          have hhead : keyHeader key f.childIndent (content (lineAt e.source (f.start + n))) =
              true := hh
          rw [findIdx?_pos hf hn hp]
          dsimp only
          rw [hat, if_pos hhead, hframe _ hgp]
        · cases h

end

variable {t : Span}

/-- The new lines are a block at the indent of the children of a frame. -/
structure Indented (e : LineEdit) (t : Span) : Prop where
  first : ∃ first rest, e.new = first :: rest ∧ isGap first = false ∧
    leadingWs (content first) = t.childIndent ∧
    isListItemLine (lstripBlanks (content first)) = false
  lines : ∀ l ∈ e.new, isGap l = true ∨ t.childIndent.length ≤ (leadingWs (content l)).length
  last : ∃ last, e.new.getLast? = some last ∧ staysInside t.childIndent last = true

theorem Indented.endsChild (h : e.Indented t) {outer : Text}
    (hlt : outer.length < t.childIndent.length) :
    ∀ l ∈ e.new, endsChild outer l = false := by
  intro l hl
  exact endsChild_of_deeper (h.lines l hl) hlt

theorem Indented.staysInside (h : e.Indented t) {outer : Text}
    (hlt : outer.length < t.childIndent.length) :
    ∃ last, e.new.getLast? = some last ∧ staysInside outer last = true := by
  obtain ⟨last, hlast, hstays⟩ := h.last
  exact ⟨last, hlast, staysInside_of_deeper hstays (Nat.le_of_lt hlt)⟩

theorem Indented.le_of_item (h : e.Indented t) :
    ∀ l ∈ e.new, isListItemLine (lstripBlanks (content l)) = true →
      t.childIndent.length ≤ (leadingWs (content l)).length := by
  intro l hl hi
  rcases h.lines l hl with hg | hle
  · rw [isGap_of_item hi] at hg
    cases hg
  · exact hle

/-- The first child of a block on the way to the edit stands in front of it, or is new. -/
theorem child_of_steps (hsteps : Steps u e.source g segs passed t) (hf : Framed e.source f)
    (hg : KeyStep e.source f key g) (hsegs : ∀ seg ∈ segs, IsFieldName seg)
    (hw : e.Within t.start t.stop) (hi : e.Indented t) :
    (∃ l ∈ e.front.drop (g.start + 1), isGap l = false) ∨
      ∃ first rest, e.new = first :: rest ∧ isGap first = false ∧
        leadingWs (content first) = g.childIndent := by
  have hfront : ∀ p, g.start < p → p < e.front.length → isGap (lineAt e.source p) = false →
      ∃ l ∈ e.front.drop (g.start + 1), isGap l = false := by
    intro p h1 h2 hgap
    refine ⟨lineAt e.source p, ?_, hgap⟩
    rw [source, lineAt_front h2, lineAt_eq h2]
    refine List.mem_drop_iff_getElem.2 ⟨p - (g.start + 1), by omega, ?_⟩
    congr 1
    omega
  induction hsteps generalizing f key with
  | nil g =>
    obtain ⟨first, rest, hn, hgap, hlead, -⟩ := hi.first
    exact Or.inr ⟨first, rest, hn, hgap, hlead⟩
  | @cons g h t seg segs passed hstep hrest ih =>
    have hsegs' : ∀ s ∈ segs, IsFieldName s := fun s hs => hsegs s (List.mem_cons_of_mem _ hs)
    have hh := (framed_of_step hg.framed (hsegs seg List.mem_cons_self) hstep).1
    have hht := (hrest.framed hh hsegs').2.1
    have hhw : h.start < e.front.length := Nat.lt_of_le_of_lt hht hw.start
    rcases stepFrame_some hg.framed (hsegs seg List.mem_cons_self) hstep with
      ⟨-, -, hk⟩ | ⟨-, hk⟩
    · have hitem : g.isListItem = false := by
        rw [hg.block]
        rfl
      have hhead : keyHeader seg g.childIndent (content (lineAt e.source h.start)) = true := by
        rcases hk.header with ⟨-, hi', -⟩ | hhead
        · rw [hitem] at hi'
          cases hi'
        · exact hhead
      obtain ⟨hlead, hgap, -⟩ := header_line hg.framed.ok.blanks
        (hsegs seg List.mem_cons_self) hhead
      rcases Nat.lt_or_eq_of_le hk.start with hlt | heq
      · exact Or.inl (hfront h.start hlt hhw hgap)
      · -- the block is headed by its own first child: the step stays where it is
        have hci : g.childIndent = f.childIndent := by
          refine Blanks.eq hg.framed.ok.blanks hf.ok.blanks ?_
          have h1 := hg.opening
          have h2 := hg.deeper
          rw [heq, hlead] at h1
          omega
        have hsame : h = g := by
          rw [hk.block, ← heq, hci]
          conv_rhs => rw [hg.block]
          have hstop : g.stop = childBlockEnd e.source g.start f.stop f.childIndent :=
            congrArg Span.stop hg.block
          have hlt : g.start < f.stop := Nat.lt_of_lt_of_le hg.framed.ok.lt hg.stop
          have hself : childBlockEnd e.source g.start
                (childBlockEnd e.source g.start f.stop f.childIndent) f.childIndent =
              childBlockEnd e.source g.start f.stop f.childIndent :=
            childBlockEnd_self hlt hf.ok.le
          unfold keyBlockFrame
          rw [hstop, hself]
        subst hsame
        exact ih hg.framed hk hsegs' hw hi hfront
    · obtain ⟨-, -, hitem⟩ := mem_topListItemStarts hk.mem
      exact Or.inl (hfront h.start hk.start hhw (isGap_of_item hitem))

/-- A step by an index around an edit that brings no item of the list. -/
theorem stepFrame_index_pos {idx : ℕ} (hidx : u.int? seg = some idx)
    (h : stepFrame u e.source f seg = .ok (some g)) (hf : e.Within f.start f.stop)
    (hg : e.Within g.start g.stop) (hstep : IndexStep e.source f g)
    (hnew : ∀ l ∈ e.new, isListItemLine (lstripBlanks (content l)) = true →
      leadingWs (content l) ≠ leadingWs (content (lineAt e.source g.start))) :
    stepFrame u e.target (e.span f) seg = .ok (some (e.span g)) := by
  have haway : ∀ i ∈ topListItemStarts e.source f.start f.stop, e.Away i := by
    intro i hi
    rcases hstep.apart i hi with h' | h'
    · exact Or.inl (Nat.lt_of_le_of_lt h' hg.start)
    · exact Or.inr (Nat.le_trans hg.stop h')
  have hstarts := topListItemStarts_pos hf hstep.mem hg.start haway hnew
  obtain ⟨rest, hrest⟩ := lstrip_of_item (mem_topListItemStarts hstep.mem).2.2
  have hopens : opensBody (stripText (lineAt e.source g.start)) = true :=
    opensBody_of_lstrip hrest (by decide) (by decide)
  have hbody := blockBodyIsList_front hf hstep.start hg.start hopens
  have hspan : e.span f = ⟨f.start, e.pos f.stop, f.childIndent, f.isListItem⟩ := by
    rw [span, pos_front hf.start]
  rw [hspan]
  unfold stepFrame at h ⊢
  rw [hidx] at h ⊢
  dsimp only at h ⊢
  rw [hbody, hstarts, instanceBounds_pos haway, List.getElem?_map]
  split at h
  · next hlist =>
    rw [if_pos hlist, Except.ok.inj h]
    rfl
  · cases h

/-- **A path to the edit** leads there in the new lines too. -/
theorem steps_pos (hsteps : Steps u e.source f segs passed t) (hf : Framed e.source f)
    (hsegs : ∀ seg ∈ segs, IsFieldName seg) (hd : ∀ g ∈ passed, DashesNested e.source g)
    (ht : segs ≠ [] → TakesKeys e.source t) (hw : e.Within t.start t.stop) (hi : e.Indented t) :
    Steps u e.target (e.span f) segs (passed.map e.span) (e.span t) := by
  induction hsteps with
  | nil f => exact Steps.nil _
  | @cons f g t seg segs passed hstep hrest ih =>
    have hk := hsegs seg List.mem_cons_self
    have hsegs' : ∀ s ∈ segs, IsFieldName s := fun s hs => hsegs s (List.mem_cons_of_mem _ hs)
    obtain ⟨hg, h1, h2⟩ := framed_of_step hf hk hstep
    obtain ⟨-, h3, h4⟩ := hrest.framed hg hsegs'
    have hgw : e.Within g.start g.stop :=
      ⟨Nat.lt_of_le_of_lt h3 hw.start, Nat.le_trans hw.stop h4⟩
    have hfw : e.Within f.start f.stop :=
      ⟨Nat.lt_of_le_of_lt h1 hgw.start, Nat.le_trans hgw.stop h2⟩
    have hd' : ∀ g ∈ passed, DashesNested e.source g := fun g hg => hd g (List.mem_cons_of_mem _ hg)
    have ht' := ht (List.cons_ne_nil _ _)
    have hroom := room_of_steps hrest hstep hf hk hsegs' hd' ht'
    refine Steps.cons ?_ (ih hg hsegs' hd' (fun _ => ht') hw hi)
    rcases stepFrame_some hf hk hstep with ⟨hnone, hloc, hks⟩ | ⟨hsome, his⟩
    · have hlt := hroom.key hnone
      obtain ⟨last, hlast, hstays⟩ := hi.staysInside hlt
      have hpos := locateKeyBlock_pos hloc hfw hgw (hi.endsChild hlt) hlast hstays
        (child_of_steps hrest hf hks hsegs' hw hi)
      unfold stepFrame
      rw [hnone]
      exact hpos
    · obtain ⟨idx, hidx⟩ := Option.isSome_iff_exists.1 hsome
      refine stepFrame_index_pos hidx hstep hfw hgw his fun l hl hitem heq => ?_
      have hle := hi.le_of_item l hl hitem
      have hlt := hroom.index hsome
      rw [heq] at hle
      omega

end LineEdit

end DeviceBuilder
