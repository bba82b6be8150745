import DeviceBuilder.Properties.HandlerUpserts

/-!
# The removal at a field path

* `pruned_of_pruneFrames`: what the pruning loop takes away.
* `nested_removal`: the handler's block goes, with the mappings above it in which
  nothing else stands; the instance and the items of the lists on the path stay.
-/

namespace DeviceBuilder

open Lines

variable {u : CharTable} {f t : Span} {key text new : Text} {lo hi : ℕ}
  {domain componentId : Text} {segs lines : List Text} {passed frames : List Span}
  {span target : Span} {below : List Span} {intermediates : List Text}

/-! ### What a removal prunes -/

/-- One frame lies inside another. -/
def FrameInside (outer inner : Span) : Prop := outer.start ≤ inner.start ∧ inner.stop ≤ outer.stop

/-- The frames of a path, from the first: each is inside those before it, and each but the first is
an item of a list or the block of a key. -/
theorem frames_of_steps (hsteps : Steps u lines f segs passed t) (hf : Framed lines f)
    (hsegs : ∀ seg ∈ segs, IsFieldName seg) (hpos : 0 < f.childIndent.length) :
    ∃ tail, passed ++ [t] = f :: tail ∧ (f :: tail).Pairwise FrameInside ∧
      ∀ g ∈ f :: tail, 0 < g.childIndent.length ∧ Framed lines g ∧
        (g ∈ tail → g.isListItem = true ∨
          ∃ outer key, IsFieldName key ∧ Framed lines outer ∧ 0 < outer.childIndent.length ∧
            KeyStep lines outer key g) := by
  induction hsteps with
  | nil f =>
    refine ⟨[], rfl, List.pairwise_singleton _ _, fun g hg => ?_⟩
    rw [List.mem_singleton.1 hg]
    exact ⟨hpos, hf, nofun⟩
  | @cons f g t seg segs passed hstep hrest ih =>
    have hk := hsegs seg List.mem_cons_self
    obtain ⟨hg, h1, h2⟩ := framed_of_step hf hk hstep
    have hgpos : 0 < g.childIndent.length := by
      rcases stepFrame_some hf hk hstep with ⟨-, -, hs⟩ | ⟨-, hs⟩
      · exact Nat.lt_of_lt_of_le hpos hs.deeper
      · rw [hs.indent]
        exact Nat.succ_pos _
    obtain ⟨tail, htail, hpair, hall⟩ :=
      ih hg (fun s hs => hsegs s (List.mem_cons_of_mem _ hs)) hgpos
    refine ⟨g :: tail, by rw [List.cons_append, htail],
      List.pairwise_cons.2 ⟨fun x hx => ?_, hpair⟩, fun x hx => ?_⟩
    · rcases List.mem_cons.1 hx with rfl | hx
      · exact ⟨h1, h2⟩
      · obtain ⟨h3, h4⟩ := (List.pairwise_cons.1 hpair).1 x hx
        exact ⟨Nat.le_trans h1 h3, Nat.le_trans h4 h2⟩
    · rcases List.mem_cons.1 hx with rfl | hx
      · refine ⟨hpos, hf, fun hmem => ?_⟩
        rcases List.mem_cons.1 hmem with heq | hmem
        · subst heq
          rcases stepFrame_some hf hk hstep with ⟨-, -, hs⟩ | ⟨-, hs⟩
          · exact Or.inr ⟨_, seg, hk, hf, hpos, hs⟩
          · exact Or.inl hs.isItem
        · exact (hall x (List.mem_cons_of_mem _ hmem)).2.2 hmem
      · refine ⟨(hall x hx).1, (hall x hx).2.1, fun _ => ?_⟩
        rcases List.mem_cons.1 hx with rfl | hx'
        · rcases stepFrame_some hf hk hstep with ⟨-, -, hs⟩ | ⟨-, hs⟩
          · exact Or.inr ⟨f, seg, hk, hf, hpos, hs⟩
          · exact Or.inl hs.isItem
        · exact (hall x hx).2.2 hx'

/-- What is gone with the lines `[start, stop)`, and with the frames pruned around them. -/
structure PrunedFrames (lines : List Text) (start stop : ℕ) (pruned : List Span) (lo hi : ℕ)
    (replacement : Text) : Prop where
  /-- Nothing else stands in a mapping that is pruned, and none of them is a list item. -/
  emptied : ∀ f ∈ pruned, f.isListItem = false ∧ ∀ i, f.start < i → i < f.stop →
    start ≤ i ∧ i < stop ∨ stripText (lineAt lines i) = [] ∨ ∃ g ∈ pruned, g.start = i
  gone : ∀ i, lo ≤ i → i < hi →
    start ≤ i ∧ i < stop ∨ stripText (lineAt lines i) = [] ∨ ∃ g ∈ pruned, g.start = i
  ends : pruned = [] ∧ lo = start ∧ hi = stop ∧ replacement = [] ∨
    ∃ f ∈ pruned, lo = f.start ∧ hi = f.stop
  /-- A dash line is not removed but loses what follows its dash. -/
  dash : ∀ f ∈ pruned,
    startsWith ((lineAt lines f.start).dropWhile Lines.isSpace) ['-', ' '] = true →
      lo = f.start ∧ replacement = bareDash (lineAt lines lo)

theorem pruned_of_pruneFrames {start stop s e : ℕ} {done : List Span} {replacement : Text}
    (hdone : PrunedFrames lines start stop done s e [])
    (hdash : ∀ f ∈ done,
      startsWith ((lineAt lines f.start).dropWhile Lines.isSpace) ['-', ' '] = false)
    (hin : ∀ f ∈ frames, f.start ≤ s ∧ e ≤ f.stop)
    (hpair : frames.Pairwise (fun a b => FrameInside b a))
    (h : pruneFrames lines frames s e = (lo, hi, replacement)) :
    ∃ pruned, pruned <+: frames ∧
      PrunedFrames lines start stop (done ++ pruned) lo hi replacement := by
  induction frames generalizing s e done with
  | nil =>
    cases h
    exact ⟨[], List.prefix_rfl, by rwa [List.append_nil]⟩
  | cons f frames ih =>
    rw [pruneFrames] at h
    split at h
    · cases h
      exact ⟨[], List.nil_prefix, by rwa [List.append_nil]⟩
    · next hgo =>
      rw [Bool.or_eq_true, not_or, Bool.not_eq_true, Bool.not_eq_true, Bool.not_eq_false'] at hgo
      obtain ⟨hitem, hempty⟩ := hgo
      obtain ⟨hfs, hfe⟩ := hin f List.mem_cons_self
      have hmax : max e f.stop = f.stop := Nat.max_eq_right hfe
      rw [hmax] at h
      -- inside the frame there is what was to go before, and blank lines
      have hinner : ∀ i, f.start < i → i < f.stop →
          start ≤ i ∧ i < stop ∨ stripText (lineAt lines i) = [] ∨ ∃ g ∈ done, g.start = i := by
        intro i h1 h2
        by_cases hr : s ≤ i ∧ i < e
        · exact hdone.gone i hr.1 hr.2
        · refine Or.inr (Or.inl ?_)
          unfold DeviceBuilder.emptied at hempty
          have hall := List.all_eq_true.1 hempty i (List.mem_filter.2 ⟨?_, ?_⟩)
          · exact beq_iff_eq.1 hall
          · rw [List.mem_range'_1]
            omega
          · have hb : (decide (s ≤ i) && decide (i < e)) = false := by
              rw [Bool.and_eq_false_iff, decide_eq_false_iff_not, decide_eq_false_iff_not]
              omega
            rw [hb]
            rfl
      have hmem : ∀ {i}, (∃ g ∈ done, g.start = i) → ∃ g ∈ done ++ [f], g.start = i := by
        rintro i ⟨g, hg, rfl⟩
        exact ⟨g, List.mem_append_left _ hg, rfl⟩
      have hempt : ∀ g ∈ done ++ [f], g.isListItem = false ∧ ∀ i, g.start < i → i < g.stop →
          start ≤ i ∧ i < stop ∨ stripText (lineAt lines i) = [] ∨
            ∃ g ∈ done ++ [f], g.start = i := by
        intro g hg
        rcases List.mem_append.1 hg with hg | hg
        · obtain ⟨h1, h2⟩ := hdone.emptied g hg
          exact ⟨h1, fun i h3 h4 => (h2 i h3 h4).imp_right fun h => h.imp_right hmem⟩
        · rw [List.mem_singleton.1 hg]
          exact ⟨hitem, fun i h3 h4 => (hinner i h3 h4).imp_right fun h => h.imp_right hmem⟩
      have hgone : ∀ i, f.start ≤ i → i < f.stop →
          start ≤ i ∧ i < stop ∨ stripText (lineAt lines i) = [] ∨
            ∃ g ∈ done ++ [f], g.start = i := by
        intro i h1 h2
        rcases Nat.lt_or_eq_of_le h1 with h1 | rfl
        · exact (hinner i h1 h2).imp_right fun h => h.imp_right hmem
        · exact Or.inr (Or.inr ⟨f, by simp, rfl⟩)
      split at h
      · next hd =>
        cases h
        refine ⟨[f], by simp, hempt, hgone, Or.inr ⟨f, by simp, rfl, rfl⟩, fun g hg hgd => ?_⟩
        rcases List.mem_append.1 hg with hg | hg
        · rw [hdash g hg] at hgd
          cases hgd
        · rw [List.mem_singleton.1 hg]
          exact ⟨rfl, rfl⟩
      · next hd =>
        have hd' : startsWith ((lineAt lines f.start).dropWhile Lines.isSpace) ['-', ' '] =
            false := by
          simpa using hd
        have hnodash : ∀ g ∈ done ++ [f],
            startsWith ((lineAt lines g.start).dropWhile Lines.isSpace) ['-', ' '] = false := by
          intro g hg
          rcases List.mem_append.1 hg with hg | hg
          · exact hdash g hg
          · rw [List.mem_singleton.1 hg]
            exact hd'
        obtain ⟨hhead, hpair'⟩ := List.pairwise_cons.1 hpair
        have hdone' : PrunedFrames lines start stop (done ++ [f]) f.start f.stop [] :=
          ⟨hempt, hgone, Or.inr ⟨f, by simp, rfl, rfl⟩, fun g hg hgd => by
            rw [hnodash g hg] at hgd
            cases hgd⟩
        obtain ⟨pruned, hpre, hp⟩ := ih hdone' hnodash hhead hpair' h
        refine ⟨f :: pruned, List.cons_prefix_cons.2 ⟨rfl, hpre⟩, ?_⟩
        rw [List.append_assoc] at hp
        exact hp

theorem locateHandlerRange_some {start stop : ℕ} (hf : f.Ok lines)
    (h : locateHandlerRange lines f key = some (start, stop)) :
    f.start ≤ start ∧ stop ≤ f.stop ∧
      keyHeader key f.childIndent (content (lineAt lines start)) = true := by
  unfold locateHandlerRange at h
  obtain ⟨n, hn, h⟩ := Option.map_eq_some_iff.1 h
  cases h
  obtain ⟨hlt, hp, -⟩ := List.findIdx?_eq_some_iff_getElem.1 hn
  have hle := hf.le
  simp only [List.length_drop, List.length_take] at hlt
  simp only [List.getElem_drop, List.getElem_take] at hp
  refine ⟨Nat.le_add_right _ _, childBlockEnd_le, ?_⟩
  rw [lineAt_eq (by omega)]
  exact hp

/-- The opening line of an instance. -/
theorem instance_line (h : locateComponentInstance u lines domain componentId = some f) :
    isListItemLine (lstripBlanks (content (lineAt lines f.start))) = true ∨
      ∃ tail, content (lineAt lines f.start) = domain ++ ':' :: tail := by
  unfold locateComponentInstance at h
  obtain ⟨start, hstart, h⟩ := Option.bind_eq_some_iff.1 h
  obtain ⟨-, tail, ht⟩ := findBlockHeader_some hstart
  dsimp only at h
  split at h
  · have hmem : f ∈ instanceBounds lines
        (topListItemStarts lines start (blockEndIndex u lines start))
        (blockEndIndex u lines start) := by
      split at h
      · next b hb =>
        cases h
        exact List.mem_of_find?_eq_some hb
      · unfold locateIdlessInstance at h
        obtain ⟨idx, -, h⟩ := Option.bind_eq_some_iff.1 h
        obtain ⟨b, hb, h⟩ := Option.bind_eq_some_iff.1 h
        split at h
        · cases h
        · cases h
          exact List.mem_of_getElem? hb
    obtain ⟨⟨a, b⟩, hab, rfl⟩ := List.mem_map.1 hmem
    exact Or.inl (mem_topListItemStarts (List.of_mem_zip hab).1).2.2
  · unfold locateSingletonInstance at h
    dsimp only at h
    split at h
    · cases h
      exact Or.inr ⟨tail, ht⟩
    · cases h

theorem star_split {q : Char → Bool} {k : Pattern} {s : Text} (h : star q k s = true) :
    ∃ a b, s = a ++ b ∧ (∀ c ∈ a, q c = true) ∧ k b = true := by
  induction s with
  | nil => exact ⟨[], [], rfl, nofun, h⟩
  | cons c s ih =>
    rw [Lines.star, Bool.or_eq_true, Bool.and_eq_true] at h
    rcases h with h | ⟨hc, h⟩
    · exact ⟨[], c :: s, rfl, nofun, h⟩
    · obtain ⟨a, b, rfl, ha, hb⟩ := ih h
      refine ⟨c :: a, b, rfl, fun x hx => ?_, hb⟩
      rcases List.mem_cons.1 hx with rfl | hx
      · exact hc
      · exact ha x hx

/-- A key on a dash line stands behind a blank. -/
theorem dashKey_line {s : Text} (h : keyLine dashKeyPrefix key s = true) :
    ∃ c rest, s.dropWhile Lines.isSpace = '-' :: c :: rest ∧ Lines.isSpace c = true := by
  obtain ⟨a, b, rfl, ha, hb⟩ := star_split h
  obtain ⟨r, rfl, hr⟩ := lit_iff.1 hb
  cases r with
  | nil => cases hr
  | cons c rest =>
    rw [plus, Bool.and_eq_true] at hr
    refine ⟨c, rest, ?_, hr.1⟩
    rw [List.dropWhile_append_of_pos ha]
    rfl

theorem dashKey_item {l : Text} (h : keyLine dashKeyPrefix key (content l) = true)
    (hi : isListItemLine (lstripBlanks (content l)) = true) :
    startsWith (l.dropWhile Lines.isSpace) ['-', ' '] = true := by
  obtain ⟨c, rest, hd, -⟩ := dashKey_line h
  obtain ⟨r, hr⟩ := lstrip_of_item hi
  have hdrop : (content l).dropWhile Lines.isSpace = '-' :: r := by
    have hs : leadingWs (content l) ++ lstripBlanks (content l) = content l :=
      List.takeWhile_append_dropWhile ..
    have hb : ∀ c ∈ leadingWs (content l), Lines.isSpace c = true := fun c hc => by
      rw [blanks_leadingWs _ c hc]
      decide
    rw [← hs, List.dropWhile_append_of_pos hb, hr, List.dropWhile_cons_of_neg (by decide)]
  rw [hd] at hdrop
  cases hdrop
  rw [hr] at hi
  rw [← startsWith_dash_content, hd]
  rcases item_tail hi with h0 | ⟨r', h0⟩
  · cases h0
  · cases h0
    rfl

/-- What is left of a dash line is an item at the same indent. -/
theorem bareDash_item (l : Text) :
    isListItemLine (lstripBlanks (content (bareDash l))) = true ∧
      leadingWs (content (bareDash l)) = leadingWs (content l) := by
  obtain ⟨-, he⟩ := content_rest l
  have hb : Blanks (leadingWs (content l)) := blanks_leadingWs _
  have hcont : content (bareDash l) = leadingWs (content l) ++ ['-'] := by
    unfold bareDash
    rw [content, List.rdropWhile]
    have hrest : ∀ c ∈ (l.drop (content l).length).reverse, decide (c ∈ ['\n', '\r']) = true := by
      intro c hc
      rcases he c (List.mem_reverse.1 hc) with rfl | rfl <;> decide
    rw [List.reverse_append, List.dropWhile_append_of_pos hrest, List.reverse_append]
    simp
  rw [hcont, lstripBlanks_indent hb, leadingWs_indent hb]
  exact ⟨rfl, List.append_nil _⟩

/-- In the place of a dash line stands an item at the same indent, without what was behind it. -/
structure StaysItem (lines : List Text) (lo : ℕ) (replacement : Text) : Prop where
  bare : replacement = bareDash (lineAt lines lo)
  item : isListItemLine (lstripBlanks (content replacement)) = true
  indent : leadingWs (content replacement) = leadingWs (content (lineAt lines lo))

theorem staysItem_bareDash (lines : List Text) (lo : ℕ) :
    StaysItem lines lo (bareDash (lineAt lines lo)) :=
  ⟨rfl, (bareDash_item _).1, (bareDash_item _).2⟩

/-- What a removal at a field path takes away: the handler's block, and the mappings above it in
which nothing else stands. The instance and the items of the lists on the path stay. -/
structure RemovesOnly (lines : List Text) (span target : Span) (below : List Span)
    (start stop lo hi : ℕ) (replacement : Text) : Prop where
  pruned : ∃ pruned, pruned <+: (target :: below).dropLast ∧
    PrunedFrames lines start stop pruned lo hi replacement
  bounds : span.start ≤ lo ∧ hi ≤ span.stop
  opening : span.start = lo → StaysItem lines lo replacement
  items : ∀ h ∈ target :: below, h.isListItem = true ∨ h = instanceFrame lines span →
    ∀ first last, (∃ item ∈ instanceBounds lines (topListItemStarts lines first last) last,
        item.start = h.start ∧ item.stop = h.stop) →
      ∀ i ∈ topListItemStarts lines first last,
        i < lo ∨ hi ≤ i ∨ i = lo ∧ StaysItem lines lo replacement

/-- **A removal at a field path** takes the handler's block away and prunes what it empties. -/
theorem nested_removal (hd : IsFieldName domain) (hsegs : ∀ seg ∈ intermediates, IsFieldName seg)
    (hk : IsFieldName key) {diff : YamlDiff}
    (h : removeNestedHandler u text domain componentId intermediates key = some (new, diff)) :
    ∃ span target below start stop lo hi replacement,
      locateComponentInstance u (splitlines text) domain componentId = some span ∧
      descendFieldSegments u (splitlines text) (instanceFrame (splitlines text) span) []
        intermediates = .ok (target, below) ∧
      locateHandlerRange (splitlines text) target key = some (start, stop) ∧
      (new, diff) = spliceLines (splitlines text) lo hi replacement ∧
      RemovesOnly (splitlines text) span target below start stop lo hi replacement := by
  unfold removeNestedHandler at h
  obtain ⟨span, hspan, h⟩ := Option.bind_eq_some_iff.1 h
  obtain ⟨⟨target, below⟩, hdesc, h⟩ := Option.bind_eq_some_iff.1 h
  dsimp only at h
  have hdesc' : descendFieldSegments u (splitlines text) (instanceFrame (splitlines text) span) []
      intermediates = .ok (target, below) := by
    revert hdesc
    cases descendFieldSegments u (splitlines text) (instanceFrame (splitlines text) span) []
      intermediates with
    | error e => exact nofun
    | ok r => exact fun hr => congrArg Except.ok (Option.some.inj hr)
  split at h
  · cases h
  obtain ⟨⟨start, stop⟩, hrange, h⟩ := Option.bind_eq_some_iff.1 h
  dsimp only at h
  rcases hprune : pruneFrames (splitlines text) (target :: below).dropLast start stop with
    ⟨lo, hi, replacement⟩
  rw [hprune] at h
  dsimp only at h
  refine ⟨span, target, below, start, stop, lo, hi, replacement, hspan, hdesc', hrange,
    (Option.some.inj h).symm, ?_⟩
  clear h hdesc
  -- the frames of the path
  have hinst := isInstance_of_locate hd hspan
  obtain ⟨done, rest, passed, hdone, hsteps, hbelow, -, -⟩ := steps_of_descend hdesc'
  rw [List.append_nil] at hbelow
  have hline := instance_line hspan
  have hdnames : ∀ seg ∈ done, IsFieldName seg := fun s hs =>
    hsegs s (hdone ▸ List.mem_append_left _ hs)
  obtain ⟨tail, htail, hpair, hall⟩ := frames_of_steps hsteps hinst.frame.fields.framed hdnames
    (Nat.zero_lt_of_lt hinst.fields.opening)
  generalize splitlines text = lines at *
  have hfirst : (instanceFrame lines span).start = span.start ∧
      (instanceFrame lines span).stop = span.stop := ⟨rfl, rfl⟩
  generalize hroot : instanceFrame lines span = root at *
  have hstack : target :: below = (root :: tail).reverse := by
    rw [← htail, hbelow, List.reverse_append, List.reverse_singleton, List.singleton_append]
  have hdrop : (target :: below).dropLast = tail.reverse := by
    rw [hstack, List.reverse_cons, List.dropLast_concat]
  have htmem : target ∈ root :: tail := by
    rw [← htail]
    exact List.mem_append_right _ (List.mem_singleton_self _)
  have hframed := (hall target htmem).2.1
  obtain ⟨hs1, hs2, hhead⟩ := locateHandlerRange_some hframed.ok hrange
  -- every frame holds the block of the handler
  have hcontains : ∀ f ∈ root :: tail, f.start ≤ start ∧ stop ≤ f.stop := by
    intro f hf
    rw [← htail] at hf hpair
    rcases List.mem_append.1 hf with hf | hf
    · obtain ⟨h1, h2⟩ := (List.pairwise_append.1 hpair).2.2 f hf target (List.mem_singleton_self _)
      omega
    · rw [List.mem_singleton.1 hf]
      exact ⟨hs1, hs2⟩
  have hstart : PrunedFrames lines start stop [] start stop [] :=
    ⟨nofun, fun i h1 h2 => Or.inl ⟨h1, h2⟩, Or.inl ⟨rfl, rfl, rfl, rfl⟩, nofun⟩
  have hrev : tail.reverse.Pairwise (fun a b => FrameInside b a) :=
    List.pairwise_reverse.2 (List.pairwise_cons.1 hpair).2
  rw [hdrop] at hprune
  obtain ⟨pruned, hpre, hpruned⟩ := pruned_of_pruneFrames hstart nofun (fun f hf =>
    hcontains f (List.mem_cons_of_mem _ (List.mem_reverse.1 hf))) hrev hprune
  rw [List.nil_append] at hpruned
  -- what is pruned lies inside the items of the path, and inside the instance
  have hwithin : ∀ h ∈ root :: tail, h.isListItem = true ∨ h = root →
      h.start ≤ lo ∧ hi ≤ h.stop := by
    intro h hh hkind
    rcases hpruned.ends with ⟨-, rfl, rfl, -⟩ | ⟨f, hf, rfl, rfl⟩
    · exact hcontains h hh
    · obtain ⟨q, hq⟩ := hpre
      have hrev' : (pruned ++ (q ++ [root])).Pairwise (fun a b => FrameInside b a) := by
        rw [← List.append_assoc, hq, ← List.reverse_cons]
        exact List.pairwise_reverse.2 hpair
      have hmem : h ∈ q ++ [root] := by
        rcases hkind with hitem | rfl
        · have hh' : h ∈ pruned ++ (q ++ [root]) := by
            rw [← List.append_assoc, hq, ← List.reverse_cons]
            exact List.mem_reverse.2 hh
          rcases List.mem_append.1 hh' with hp | hp
          · rw [(hpruned.emptied h hp).1] at hitem
            cases hitem
          · exact hp
        · exact List.mem_append_right _ (List.mem_singleton_self _)
      exact (List.pairwise_append.1 hrev').2.2 f hf h hmem
  -- a dash line at the front of what is removed loses what follows its dash
  have hdashline : isListItemLine (lstripBlanks (content (lineAt lines lo))) = true →
      StaysItem lines lo replacement := by
    intro hitem
    suffices hbare : replacement = bareDash (lineAt lines lo) from
      hbare ▸ staysItem_bareDash lines lo
    rcases hpruned.ends with ⟨-, rfl, -, -⟩ | ⟨f, hf, rfl, -⟩
    · rw [(header_line hframed.ok.blanks hk hhead).2.2] at hitem
      cases hitem
    · have hft : f ∈ tail := List.mem_reverse.1 (hpre.subset hf)
      rcases (hall f (List.mem_cons_of_mem _ hft)).2.2 hft with hi' | ⟨outer, name, hn, ho, -, hs⟩
      · rw [(hpruned.emptied f hf).1] at hi'
        cases hi'
      · rcases hs.header with ⟨-, -, hdk⟩ | hh
        · exact (hpruned.dash f hf (dashKey_item hdk hitem)).2
        · rw [(header_line ho.ok.blanks hn hh).2.2] at hitem
          cases hitem
  obtain ⟨hb1, hb2⟩ := hwithin root List.mem_cons_self (Or.inr rfl)
  refine ⟨⟨pruned, hdrop ▸ hpre, hpruned⟩, ⟨hfirst.1 ▸ hb1, hfirst.2 ▸ hb2⟩, fun heq => ?_,
    fun h hh hkind first last hitem i hi' => ?_⟩
  · rcases hline with hitem | ⟨tl, ht⟩
    · exact hdashline (heq ▸ hitem)
    · exfalso
      rw [heq] at ht
      obtain ⟨hlead, hstrip, -, -⟩ := name_line hd (':' :: tl)
      have hlead0 : leadingWs (content (lineAt lines lo)) = [] := ht ▸ hlead
      have hno : ∀ {ci name : Text}, Blanks ci → 0 < ci.length → IsFieldName name →
          keyHeader name ci (content (lineAt lines lo)) = true → False := by
        intro ci name hb hp hn hh
        have h1 := (header_line hb hn hh).1
        rw [hlead0] at h1
        rw [← h1] at hp
        cases hp
      rcases hpruned.ends with ⟨-, rfl, -, -⟩ | ⟨f, hf, rfl, -⟩
      · exact hno hframed.ok.blanks (hall target htmem).1 hk hhead
      · have hft : f ∈ tail := List.mem_reverse.1 (hpre.subset hf)
        rcases (hall f (List.mem_cons_of_mem _ hft)).2.2 hft with
          hi' | ⟨outer, name, hn, ho, hop, hs⟩
        · rw [(hpruned.emptied f hf).1] at hi'
          cases hi'
        · rcases hs.header with ⟨-, -, hdk⟩ | hh
          · obtain ⟨c, r, hdw, -⟩ := dashKey_line hdk
            obtain ⟨x, name', hx⟩ := List.exists_cons_of_ne_nil hd.1
            have hxn := hd.2 x (hx ▸ List.mem_cons_self)
            rw [ht, hx, List.cons_append, List.dropWhile_cons_of_neg (by
              rw [isSpace_of_name hxn]
              decide)] at hdw
            exact (ne_of_name hxn).2.2 (List.cons.inj hdw).1
          · exact hno ho.ok.blanks hop hn hh
  · obtain ⟨item, hmem, hi1, hi2⟩ := hitem
    have hh' : h ∈ root :: tail := by
      rw [hstack] at hh
      exact List.mem_reverse.1 hh
    obtain ⟨hw1, hw2⟩ := hwithin h hh' (hkind.imp_right fun h => h.trans hroot)
    obtain ⟨⟨a, b⟩, hab, rfl⟩ := List.mem_map.1 hmem
    dsimp only at hi1 hi2
    obtain ⟨hapart, -⟩ := zip_next_apart (pairwise_topListItemStarts lines first last)
      (fun i hi => (mem_topListItemStarts hi).2.1) hab
    have hdash := (mem_topListItemStarts hi').2.2
    rcases hapart i hi' with h1 | h1
    · rcases Nat.lt_or_eq_of_le (Nat.le_trans h1 (hi1 ▸ hw1)) with h2 | h2
      · exact Or.inl h2
      · exact Or.inr (Or.inr ⟨h2, hdashline (h2 ▸ hdash)⟩)
    · exact Or.inr (Or.inl (Nat.le_trans hw2 (hi2 ▸ h1)))

end DeviceBuilder
