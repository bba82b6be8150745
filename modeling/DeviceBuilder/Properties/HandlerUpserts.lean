import DeviceBuilder.Properties.UpsertedText

/-!
# The upserts of handlers

Each of the three upserts finds its mapping again in the text that it leaves
(`upsert_found`), with the handler in it, so that it changes nothing the second
time, and the removal takes the handler out.

* `inline_upsert`, `subentity_upsert`, `nested_upsert`.
-/

namespace DeviceBuilder

open Lines

variable {u : CharTable} {f g t w : Span} {key name seg ci rendered text new : Text}
  {R lines : List Text} {lo hi : ℕ} {domain componentId : Text} {ref : SubEntityRef}
  {segs : List Text} {passed : List Span} {span target : Span} {below : List Span}
  {intermediates : List Text}

/-! ### The instance -/

/-- A located instance: its fields stand one step behind its opening line at most. -/
structure IsInstance (lines : List Text) (f : Span) : Prop where
  fields : TakesFields lines f
  near : f.childIndent.length ≤ (leadingWs (content (lineAt lines f.start))).length + 2

theorem TakesFields.framed (h : TakesFields lines t) : Framed lines t :=
  ⟨h.ok, Nat.le_of_lt h.opening, fun _ => h.opening⟩

theorem isInstance_of_locate (hd : IsFieldName domain)
    (h : locateComponentInstance u lines domain componentId = some f) : IsInstance lines f := by
  unfold locateComponentInstance at h
  obtain ⟨start, hstart, h⟩ := Option.bind_eq_some_iff.1 h
  obtain ⟨hlt, tail, ht⟩ := findBlockHeader_some hstart
  obtain ⟨hb1, hb2⟩ := blockEndIndex_bounds u hlt
  dsimp only at h
  split at h
  · have hmem : f ∈ instanceBounds lines
        (topListItemStarts lines start (blockEndIndex u lines start))
        (blockEndIndex u lines start) := by
      split at h
      · next b hb =>
        cases h
        exact List.mem_of_find?_eq_some hb
      · unfold locateIdlessInstance at h
        obtain ⟨idx, -, h⟩ := Option.bind_eq_some_iff.1 h
        obtain ⟨b, hb, h⟩ := Option.bind_eq_some_iff.1 h
        split at h
        · cases h
        · cases h
          exact List.mem_of_getElem? hb
    have hstep : IndexStep lines ⟨start, blockEndIndex u lines start, [], false⟩ f :=
      indexStep_of_bounds hb2 hmem
    refine ⟨⟨hstep.framed.ok, hstep.framed.behind hstep.isItem⟩, ?_⟩
    rw [hstep.indent]
  · unfold locateSingletonInstance at h
    dsimp only at h
    split at h
    · cases h
      have hlead : (leadingWs (content (lineAt lines start))).length = 0 := by
        rw [ht, (name_line hd (':' :: tail)).1]
        rfl
      exact ⟨⟨⟨hb1, hb2, blanks_indent⟩, hlead ▸ Nat.succ_pos _⟩, hlead ▸ Nat.le_refl 2⟩
    · cases h

theorem takesFields_of_steps (hsteps : Steps u lines f segs passed t) (hf : Framed lines f)
    (hsegs : ∀ seg ∈ segs, IsFieldName seg) (ht : segs ≠ [] → TakesKeys lines t)
    (hopen : segs = [] →
      (leadingWs (content (lineAt lines f.start))).length < f.childIndent.length) :
    TakesFields lines t := by
  induction hsteps with
  | nil f => exact ⟨hf.ok, hopen rfl⟩
  | @cons f g t seg segs passed hstep hrest ih =>
    have hk := hsegs seg List.mem_cons_self
    have ht' := ht (List.cons_ne_nil _ _)
    refine ih (framed_of_step hf hk hstep).1 (fun s hs => hsegs s (List.mem_cons_of_mem _ hs))
      (fun _ => ht') fun hnil => ?_
    subst hnil
    cases hrest
    rcases stepFrame_some hf hk hstep with ⟨-, -, hg⟩ | ⟨-, hg⟩
    · exact Nat.lt_of_le_of_lt hg.opening (hg.lt hf.ok ht')
    · exact hg.framed.behind hg.isItem

theorem le_of_steps (hsteps : Steps u lines f segs passed t) (hf : Framed lines f)
    (hsegs : ∀ seg ∈ segs, IsFieldName seg) (ht : segs ≠ [] → TakesKeys lines t)
    (hd : ∀ g ∈ passed, DashesNested lines g)
    (hnear : f.childIndent.length ≤ (leadingWs (content (lineAt lines f.start))).length + 2) :
    f.childIndent.length ≤ t.childIndent.length := by
  cases hsteps with
  | nil => exact Nat.le_refl _
  | @cons _ g _ seg segs passed hstep hrest =>
    have hk := hsegs seg List.mem_cons_self
    have hroom := room_of_steps hrest hstep hf hk
      (fun s hs => hsegs s (List.mem_cons_of_mem _ hs))
      (fun h hh => hd h (List.mem_cons_of_mem _ hh)) (ht (List.cons_ne_nil _ _))
    rcases stepFrame_some hf hk hstep with ⟨hnone, -, -⟩ | ⟨hsome, hg⟩
    · exact Nat.le_of_lt (hroom.key hnone)
    · obtain ⟨h1, h2, hitem⟩ := mem_topListItemStarts hg.mem
      have hle := hd f List.mem_cons_self g.start h1 h2 hitem
      have hc := hroom.index hsome
      omega

/-- A line of a handler's block declares no `id`. -/
theorem idAfter_block {l : Text} (hk : IsFieldName key) (hid : key ≠ ['i', 'd'])
    (hbf : Blanks f.childIndent) (hbt : Blanks t.childIndent)
    (hle : f.childIndent.length ≤ t.childIndent.length)
    (h : keyHeader key t.childIndent (content l) = true ∨ endsChild t.childIndent l = false) :
    idAfter f.childIndent (content l) = none := by
  unfold idAfter
  split
  · next hs =>
    exfalso
    obtain ⟨rest, hrest⟩ := List.isPrefixOf_iff_prefix.1 hs
    have hcont : content l = f.childIndent ++ ('i' :: 'd' :: ':' :: rest) := by
      rw [← hrest]
      simp
    have hname : IsFieldName ['i', 'd'] := isFieldName_of_all (List.cons_ne_nil _ _) (by decide)
    obtain ⟨h1, h2, -, h4⟩ := name_line hname (':' :: rest)
    have hlead : leadingWs (content l) = f.childIndent := by
      rw [hcont, leadingWs_indent hbf]
      exact (congrArg (f.childIndent ++ ·) h1).trans (List.append_nil _)
    have hstrip : lstripBlanks (content l) = 'i' :: 'd' :: ':' :: rest := by
      rw [hcont, lstripBlanks_indent hbf]
      exact h2
    rcases h with h | h
    · obtain ⟨tail, ht, -⟩ := keyHeader_iff.1 h
      have hci : f.childIndent = t.childIndent := by
        rw [← hlead, (header_line hbt hk h).1]
      rw [hcont, hci] at ht
      have hkey : 'i' :: 'd' :: ':' :: rest = key ++ ':' :: tail := List.append_cancel_left ht
      have hcolon : ∀ c ∈ key, (c != ':') = true := fun c hc => by
        rw [bne_iff_ne]
        rintro rfl
        have := hk.2 _ hc
        revert this
        decide
      have htake := congrArg (List.takeWhile (· != ':')) hkey
      rw [List.takeWhile_append_of_pos hcolon] at htake
      simp at htake
      exact hid htake.symm
    · have hgap : isGap l = false := isGap_of_lstrip hstrip (by decide)
      have hitem : isListItemLine (lstripBlanks (content l)) = false := by
        rw [hstrip]
        exact h4
      unfold endsChild at h
      rw [hgap, hitem, hlead] at h
      simp only [Bool.not_false, Bool.true_and, Bool.and_true, Bool.or_eq_false_iff,
        decide_eq_false_iff_not, beq_eq_false_iff_ne] at h
      omega
  · rfl

namespace LineEdit

variable {new : List Text}

/-- **The instance of an upsert** is found again around its new lines. -/
theorem locateComponentInstance_upsert (hu : u.isalpha ' ' = false) (hk : IsFieldName key)
    (hid : key ≠ ['i', 'd']) (h : locateComponentInstance u lines domain componentId = some f)
    (hf : f.Ok lines) (hle : f.childIndent.length ≤ t.childIndent.length)
    (hpos : 0 < f.childIndent.length) (hstart : f.start ≤ t.start) (hstop : t.stop ≤ f.stop)
    (hbt : Blanks t.childIndent) (hr : RangeSpec lines t key lo hi)
    {name : Text} (hname : IsFieldName name) (hnid : name ≠ ['i', 'd'])
    (hnew : BlockAt t.childIndent name new) :
    locateComponentInstance u (ofRange lines lo hi new).target domain componentId =
      some ((ofRange lines lo hi new).span f) := by
  have hsource : (ofRange lines lo hi new).source = lines := source_ofRange hr.le
  have hw : (ofRange lines lo hi new).Within t.start t.stop :=
    (within_ofRange hr (Nat.le_trans hstop hf.le)).1
  have hind : (ofRange lines lo hi new).Indented t := indented_of_blockAt hnew hname hbt
  refine locateComponentInstance_pos (hsource.symm ▸ h)
    ⟨Nat.lt_of_le_of_lt hstart hw.start, Nat.le_trans hw.stop hstop⟩ (fun l hl => ?_)
    (fun l hl hi => Nat.le_trans hle (hind.le_of_item l hl hi))
    (fun l hl => idAfter_block hk hid hf.blanks hbt hle (hr.old l hl))
    (fun l hl => idAfter_block hname hnid hf.blanks hbt hle ?_) ?_
  · have hbare : content l = l := content_of_not_break (hnew.bare l hl)
    rw [hbare]
    rcases hnew.indented l hl with rfl | ⟨s, rfl⟩
    · rfl
    · obtain ⟨c, ci, hci⟩ := List.exists_cons_of_ne_nil (List.length_pos_iff.1
        (Nat.lt_of_lt_of_le hpos hle))
      have hc : c = ' ' := hbt c (hci ▸ List.mem_cons_self)
      rw [hci, hc, List.cons_append]
      simp [opensTopLevelBlock, hu]
  · obtain ⟨first, rest, hfr, hh, hrest⟩ := hnew.opening
    have hl' : l ∈ first :: rest := hfr ▸ hl
    rcases List.mem_cons.1 hl' with rfl | hl'
    · left
      rw [content_of_not_break (hnew.bare l hl)]
      exact hh
    · exact Or.inr (hrest l hl')
  · obtain ⟨first, rest, hfr, hh, -⟩ := hnew.opening
    have hbare : content first = first :=
      content_of_not_break (hnew.bare first (hfr ▸ List.mem_cons_self))
    obtain ⟨tail, ht, -⟩ := keyHeader_iff.1 hh
    obtain ⟨x, rest', hx⟩ := List.exists_cons_of_ne_nil hname.1
    have hxn := hname.2 x (hx ▸ List.mem_cons_self)
    obtain ⟨-, hne, hdash⟩ := ne_of_name hxn
    have hstrip : lstripBlanks (content first) = x :: (rest' ++ ':' :: tail) := by
      rw [hbare, ht, lstripBlanks_indent hbt, (name_line hname (':' :: tail)).2.1, hx]
      rfl
    obtain ⟨y, hy⟩ := stripText_of_lstrip hstrip (isSpace_of_name hxn)
    rw [stripText_content] at hy
    refine ⟨first, rest, hfr, opensBody_of_lstrip hstrip (isSpace_of_name hxn) hne, ?_, ?_⟩
    · rw [hy]
      simp [startsWith, List.isPrefixOf, Ne.symm hdash]
    · rw [hy]
      simp [hdash]

end LineEdit

/-! ### Handlers of an instance and of a sub-entity -/

/-- The lines outside `[lo, hi)` are kept; the last of those before gets the terminator that it
lacks where the text ends in it. -/
def KeepsLines (lines : List Text) (lo hi : ℕ) (new : List Text) : Prop :=
  ∃ front rows, new = front ++ (rows ++ lines.drop hi) ∧
    (front = lines.take lo ∨
      isTerminated (lines.take lo).flatten = false ∧
        front.flatten = (lines.take lo).flatten ++ newlineOf lines)

theorem Upserted.keepsLines {front : List Text} (h : Upserted text lo hi R front new) :
    KeepsLines (splitlines text) lo hi (splitlines new) := by
  refine ⟨front, _, h.split, ?_⟩
  have hhead := h.head
  unfold headText at hhead
  dsimp only at hhead
  split at hhead
  · left
    have hcut : Cut front := (h.split ▸ cut_splitlines new).left
    have hcut' : Cut ((splitlines text).take lo) :=
      (List.take_append_drop lo (splitlines text) ▸ cut_splitlines text).left
    rw [← splitlines_of_cut hcut, hhead, splitlines_of_cut hcut']
  · next hn => exact Or.inr ⟨by simpa using hn, hhead⟩

theorem plainBlanks_contents {lines : List Text} (h : PlainBlanks lines) :
    PlainBlanks (lines.map content) := by
  intro l hl hs
  obtain ⟨m, hm, rfl⟩ := List.mem_map.1 hl
  rw [stripText_content] at hs
  rw [content_content]
  exact h m hm hs

/-- What an upsert puts into a frame of an instance, and where the instance and the block are
then. -/
theorem upsert_found (hu : u.isalpha ' ' = false)
    (hloc : locateComponentInstance u (splitlines text) domain componentId = some f)
    (hf : IsInstance ((splitlines text).map content) f) (hst : f.start ≤ t.start)
    (hsp : t.stop ≤ f.stop) (hle : f.childIndent.length ≤ t.childIndent.length)
    (ht : TakesFields ((splitlines text).map content) t) (hk : IsFieldName key)
    (hid : key ≠ ['i', 'd']) (hR : BlockAt t.childIndent key R)
    (hr : RangeSpec ((splitlines text).map content) t key lo hi) :
    ∃ front, Upserted text lo hi R front (spliceLines (splitlines text) lo hi (linesText R)).1 ∧
      locateComponentInstance u
          (splitlines (spliceLines (splitlines text) lo hi (linesText R)).1) domain componentId =
        some ((LineEdit.ofRange ((splitlines text).map content) lo hi R).span f) ∧
      locateHandlerRange (splitlines (spliceLines (splitlines text) lo hi (linesText R)).1)
          ((LineEdit.ofRange ((splitlines text).map content) lo hi R).span t) key =
        some (lo, lo + R.length) := by
  have hstop := hr.stop
  have hfle := hf.fields.ok.le
  have htle := ht.ok.le
  rw [List.length_map] at hfle htle
  obtain ⟨front, hup⟩ : ∃ front, Upserted text lo hi R front
      (spliceLines (splitlines text) lo hi (linesText R)).1 :=
    upserted_spliceLines hr.le (by omega) hR
  have htarget := hup.target hR
  have hpos : 0 < f.childIndent.length := Nat.zero_lt_of_lt hf.fields.opening
  refine ⟨front, hup, ?_, ?_⟩
  · have hbare : locateComponentInstance u ((splitlines text).map content) domain componentId =
        some f := (locateComponentInstance_contents u _ _ _).trans hloc
    have hloc' := LineEdit.locateComponentInstance_upsert hu hk hid hbare hf.fields.ok hle hpos
      hst hsp ht.ok.blanks hr hk hid hR
    rw [← htarget, locateComponentInstance_contents] at hloc'
    exact hloc'
  · rw [← locateHandlerRange_contents, htarget]
    obtain ⟨hw, hlen⟩ : (LineEdit.ofRange ((splitlines text).map content) lo hi R).Within
          t.start t.stop ∧
        (LineEdit.ofRange ((splitlines text).map content) lo hi R).front.length = lo :=
      LineEdit.within_ofRange hr (by rw [List.length_map]; exact htle)
    generalize hE : LineEdit.ofRange ((splitlines text).map content) lo hi R = e at *
    have hback : e.back = ((splitlines text).map content).drop hi := by rw [← hE]; rfl
    have hfront : e.front = ((splitlines text).map content).take lo := by rw [← hE]; rfl
    have hnew : e.new = R := by rw [← hE]; rfl
    have hold : e.front.length + e.old.length = hi := by
      rw [← hE]
      unfold LineEdit.ofRange
      have h1 := hr.le
      simp only [List.length_drop, List.length_take, List.length_map]
      omega
    obtain ⟨k, hk1, hk2⟩ := LineEdit.exists_back hw.stop
    have hkt : t.stop = hi + k := by rw [← hold]; exact hk1
    rw [LineEdit.target, hnew, ← hlen]
    refine locateHandlerRange_block (k := k) ?_ ?_ ?_ ?_ hR ?_
    · show e.pos t.start ≤ e.front.length
      rw [LineEdit.pos_front hw.start]
      exact Nat.le_of_lt hw.start
    · show e.pos t.stop = _
      rw [hk2, hnew]
    · rw [hback, List.length_drop, List.length_map]
      omega
    · intro l hl
      have hl' : l ∈ ((((splitlines text).map content).take lo).drop t.start) := by
        rw [← hfront]
        have h1 : (e.span t).start = t.start := LineEdit.pos_front hw.start
        rw [← h1]
        exact hl
      obtain ⟨i, hi', h1, h2, rfl⟩ := mem_slice hl'
      have hfr := hr.front i h1 h2
      rw [lineAt_eq hi'] at hfr
      exact hfr
    · have hbehind := hr.behind
      have hsub : t.stop - hi = k := by omega
      rw [List.drop_take, hsub, ← hback] at hbehind
      exact hbehind

/-- **The upsert of a handler of an instance** is idempotent, keeps every other line, and is undone
by the removal where it inserted the handler. -/
theorem inline_upsert (hu : u.isalpha ' ' = false) (hd : IsFieldName domain)
    (hk : IsFieldName key) (hid : key ≠ ['i', 'd']) (hr : IsHandlerBlock key rendered)
    (hplain : PlainBlanks (splitlines text)) {diff : YamlDiff}
    (h : upsertInlineHandler u text domain componentId key rendered = some (new, diff)) :
    (upsertInlineHandler u new domain componentId key rendered).map Prod.fst = some new ∧
      (∃ f, locateComponentInstance u (splitlines text) domain componentId = some f ∧
        KeepsLines (splitlines text) (upsertRange (splitlines text) f key).1
          (upsertRange (splitlines text) f key).2 (splitlines new)) ∧
      (removeInlineHandler u text domain componentId key = none →
        (removeInlineHandler u new domain componentId key).map Prod.fst = some text) := by
  obtain ⟨f, hloc, hup⟩ := Option.map_eq_some_iff.1 h
  have hinst : IsInstance ((splitlines text).map content) f :=
    isInstance_of_locate hd ((locateComponentInstance_contents u _ _ _).trans hloc)
  have hR := blockAt_indentBlock hinst.fields.ok.blanks hr
  have hRne : indentBlock rendered f.childIndent ≠ [] := by
    obtain ⟨first, rest, hfr, -⟩ := hR.opening
    rw [hfr]
    exact List.cons_ne_nil _ _
  have hspec := rangeSpec_upsertRange hinst.fields (plainBlanks_contents hplain) key
  rw [upsertRange_contents] at hspec
  have hnew : new = (spliceLines (splitlines text) (upsertRange (splitlines text) f key).1
      (upsertRange (splitlines text) f key).2
      (linesText (indentBlock rendered f.childIndent))).1 := by
    rw [← applyHandlerUpsert_eq _ _ _ _ hRne]
    exact (congrArg Prod.fst hup).symm
  obtain ⟨front, hupd, hloc', hrange⟩ := upsert_found hu hloc hinst (Nat.le_refl _) (Nat.le_refl _)
    (Nat.le_refl _) hinst.fields hk hid hR hspec
  rw [← hnew] at hupd hloc' hrange
  refine ⟨?_, ⟨f, hloc, hupd.keepsLines⟩, fun hnone => ?_⟩
  · unfold upsertInlineHandler
    dsimp only
    rw [hloc', Option.map_some, Option.map_some]
    exact congrArg some (hupd.again (j := 0) hR hR rfl hrange)
  · have hnone' : locateHandlerRange (splitlines text) f key = none := by
      unfold removeInlineHandler at hnone
      dsimp only at hnone
      rw [hloc, Option.bind_some] at hnone
      exact Option.map_eq_none_iff.1 hnone
    have hsame : (upsertRange (splitlines text) f key).2 =
        (upsertRange (splitlines text) f key).1 := by
      rw [upsertRange, hnone']
      rfl
    rw [hsame] at hupd
    unfold removeInlineHandler applyHandlerRemove
    dsimp only
    rw [hloc', Option.bind_some, hrange, Option.map_some, Option.map_some]
    exact congrArg some (hupd.away hR)

theorem takesKeys_contents {lines : List Text} :
    TakesKeys (lines.map content) t ↔ TakesKeys lines t := by
  unfold TakesKeys
  rw [blockBodyIsList_contents]

theorem IsInstance.frame {lines : List Text} (h : IsInstance lines f) :
    IsInstance lines (instanceFrame lines f) :=
  ⟨⟨⟨h.fields.ok.lt, h.fields.ok.le, h.fields.ok.blanks⟩, h.fields.opening⟩, h.near⟩

/-- The frame of an instance, in the lines after an edit behind its opening line. -/
theorem LineEdit.instanceFrame_span {e : LineEdit} (h : f.start < e.front.length) :
    instanceFrame e.target (e.span f) = e.span (instanceFrame e.source f) := by
  have hline := LineEdit.lineAt_pos (e := e) (p := f.start) (Or.inl h)
  rw [LineEdit.pos_front h] at hline
  unfold instanceFrame LineEdit.span
  dsimp only
  rw [LineEdit.pos_front h, hline]

/-- **The upsert of a handler of a sub-entity**, which is a mapping. -/
theorem subentity_upsert (hu : u.isalpha ' ' = false) (hd : IsFieldName ref.parentDomain)
    (hs : IsFieldName ref.subKey) (hk : IsFieldName key) (hid : key ≠ ['i', 'd'])
    (hr : IsHandlerBlock key rendered) (hplain : PlainBlanks (splitlines text))
    (hloc : locateSubentityInstance u (splitlines text) ref = .ok (some t))
    (ht : TakesKeys (splitlines text) t) {diff : YamlDiff}
    (h : upsertSubentityHandler u text ref key rendered = .ok (some (new, diff))) :
    (upsertSubentityHandler u new ref key rendered).map (Option.map Prod.fst) = .ok (some new) ∧
      KeepsLines (splitlines text) (upsertRange (splitlines text) t key).1
        (upsertRange (splitlines text) t key).2 (splitlines new) ∧
      (removeSubentityHandler u text ref key = .ok none →
        (removeSubentityHandler u new ref key).map (Option.map Prod.fst) = .ok (some text)) := by
  -- the instance and its block, in lines without terminators
  obtain ⟨f, hfloc, hblock⟩ : ∃ f,
      locateComponentInstance u (splitlines text) ref.parentDomain ref.parentId = some f ∧
        locateKeyBlock (splitlines text) (instanceFrame (splitlines text) f) ref.subKey =
          .ok (some t) := by
    unfold locateSubentityInstance at hloc
    split at hloc
    · cases hloc
    · next f hf => exact ⟨f, hf, hloc⟩
  have hinst : IsInstance ((splitlines text).map content) f :=
    isInstance_of_locate hd ((locateComponentInstance_contents u _ _ _).trans hfloc)
  have hblock' : locateKeyBlock ((splitlines text).map content)
      (instanceFrame ((splitlines text).map content) f) ref.subKey = .ok (some t) := by
    rw [locateKeyBlock_contents, instanceFrame_contents]
    exact hblock
  have hframed := hinst.frame.fields.framed
  have hstep := keyStep_of_locate hframed hs hblock'
  have ht' : TakesKeys ((splitlines text).map content) t := takesKeys_contents.2 ht
  have hlt := hstep.lt hframed.ok ht'
  have hfields : TakesFields ((splitlines text).map content) t :=
    ⟨hstep.framed.ok, Nat.lt_of_le_of_lt hstep.opening hlt⟩
  have hR := blockAt_indentBlock hfields.ok.blanks hr
  have hRne : indentBlock rendered t.childIndent ≠ [] := by
    obtain ⟨first, rest, hfr, -⟩ := hR.opening
    rw [hfr]
    exact List.cons_ne_nil _ _
  have hspec := rangeSpec_upsertRange hfields (plainBlanks_contents hplain) key
  rw [upsertRange_contents] at hspec
  have hnew : new = (spliceLines (splitlines text) (upsertRange (splitlines text) t key).1
      (upsertRange (splitlines text) t key).2
      (linesText (indentBlock rendered t.childIndent))).1 := by
    rw [← applyHandlerUpsert_eq _ _ _ _ hRne]
    unfold upsertSubentityHandler at h
    simp only [hloc, Except.map, Option.map_some, Except.ok.injEq, Option.some.injEq] at h
    exact (congrArg Prod.fst h).symm
  obtain ⟨front, hupd, hloc', hrange⟩ := upsert_found hu hfloc hinst hstep.start hstep.stop
    (Nat.le_of_lt hlt) hfields hk hid hR hspec
  rw [← hnew] at hupd hloc' hrange
  have htarget := hupd.target hR
  have hsource : (LineEdit.ofRange ((splitlines text).map content)
      (upsertRange (splitlines text) t key).1 (upsertRange (splitlines text) t key).2
      (indentBlock rendered t.childIndent)).source = (splitlines text).map content :=
    LineEdit.source_ofRange hspec.le
  have hw : (LineEdit.ofRange ((splitlines text).map content)
      (upsertRange (splitlines text) t key).1 (upsertRange (splitlines text) t key).2
      (indentBlock rendered t.childIndent)).Within t.start t.stop :=
    (LineEdit.within_ofRange hspec hfields.ok.le).1
  have hnewR : (LineEdit.ofRange ((splitlines text).map content)
      (upsertRange (splitlines text) t key).1 (upsertRange (splitlines text) t key).2
      (indentBlock rendered t.childIndent)).new = indentBlock rendered t.childIndent := rfl
  -- the block is found again
  have hsub : locateSubentityInstance u (splitlines new) ref = .ok (some
      ((LineEdit.ofRange ((splitlines text).map content) (upsertRange (splitlines text) t key).1
        (upsertRange (splitlines text) t key).2 (indentBlock rendered t.childIndent)).span t)) := by
    unfold locateSubentityInstance
    rw [hloc']
    dsimp only
    generalize LineEdit.ofRange ((splitlines text).map content)
      (upsertRange (splitlines text) t key).1 (upsertRange (splitlines text) t key).2
      (indentBlock rendered t.childIndent) = e at *
    have hind : e.Indented t := LineEdit.indented_of_blockAt (hnewR.symm ▸ hR) hk
      hfields.ok.blanks
    have hfw : e.Within f.start f.stop :=
      ⟨Nat.lt_of_le_of_lt hstep.start hw.start, Nat.le_trans hw.stop hstep.stop⟩
    obtain ⟨last, hlast, hstays⟩ := hind.staysInside hlt
    have hchild := LineEdit.child_of_steps (u := u) (e := e) (Steps.nil t)
      (hsource.symm ▸ hframed) (hsource.symm ▸ hstep) nofun hw hind
    have hpos := LineEdit.locateKeyBlock_pos (e := e) (f := instanceFrame e.source f)
      (by rw [hsource]; exact hblock') hfw hw (hind.endsChild hlt) hlast hstays hchild
    rw [← LineEdit.instanceFrame_span hfw.start, ← htarget, locateKeyBlock_contents,
      instanceFrame_contents] at hpos
    exact hpos
  refine ⟨?_, hupd.keepsLines, fun hnone => ?_⟩
  · unfold upsertSubentityHandler
    dsimp only
    rw [hsub]
    exact congrArg (fun x => Except.ok (some x)) (hupd.again (j := 0) hR hR rfl hrange)
  · have hnone' : locateHandlerRange (splitlines text) t key = none := by
      unfold removeSubentityHandler at hnone
      simp only [hloc, Except.map, Option.bind_some, Except.ok.injEq] at hnone
      exact Option.map_eq_none_iff.1 hnone
    have hsame : (upsertRange (splitlines text) t key).2 =
        (upsertRange (splitlines text) t key).1 := by
      rw [upsertRange, hnone']
      rfl
    rw [hsame] at hupd
    unfold removeSubentityHandler applyHandlerRemove
    dsimp only
    rw [hsub]
    simp only [Except.map, Option.bind_some, hrange, Option.map_some]
    rw [hupd.away hR]

/-! ### Handlers at a field path -/

/-- A key under which a handler stands: a field name other than `id`. -/
def IsHandlerKey (key : Text) : Prop := IsFieldName key ∧ key ≠ ['i', 'd']

theorem steps_contents (h : Steps u lines f segs passed t) :
    Steps u (lines.map content) f segs passed t := by
  induction h with
  | nil f => exact Steps.nil f
  | cons hstep _ ih => exact Steps.cons ((stepFrame_contents u _ _ _).trans hstep) ih

theorem dashesNested_contents (h : DashesNested lines f) : DashesNested (lines.map content) f := by
  intro i h1 h2 hitem
  rw [lineAt_map_content, content_content] at hitem ⊢
  rw [lineAt_map_content, content_content]
  exact h i h1 h2 hitem

/-- A key that is not there stands on no line of the frame. -/
theorem locateKeyBlock_none (h : locateKeyBlock lines f key = .ok none) :
    (f.isListItem = true →
      keyLine dashKeyPrefix key (content (lineAt lines f.start)) = false ∧
        keyScalar dashKeyPrefix key (content (lineAt lines f.start)) = false) ∧
      ∀ l ∈ (lines.take f.stop).drop f.start, keyHeader key f.childIndent (content l) = false ∧
        keyScalar (lit f.childIndent) key (content l) = false := by
  unfold locateKeyBlock at h
  dsimp only at h
  split at h
  · cases h
  · next h1 =>
    split at h
    · cases h
    · next h2 =>
      split at h
      · next hn =>
        refine ⟨fun hi => ?_, fun l hl => ?_⟩
        · rw [hi, Bool.true_and] at h1 h2
          exact ⟨by simpa using h1, by simpa using h2⟩
        · have hl' := List.findIdx?_eq_none_iff.1 hn l hl
          rwa [Bool.or_eq_false_iff] at hl'
      · split at h <;> cases h

theorem locateHandlerRange_of_missing (h : locateKeyBlock lines f key = .ok none) :
    locateHandlerRange lines f key = none := by
  unfold locateHandlerRange
  rw [Option.map_eq_none_iff, List.findIdx?_eq_none_iff]
  exact fun l hl => ((locateKeyBlock_none h).2 l hl).1

/-- The pruning loop sees contents only, but for a dash line that it rewrites. -/
theorem pruneFrames_contents {frames : List Span} {r : ℕ × ℕ}
    (h : pruneFrames (lines.map content) frames lo hi = (r.1, r.2, [])) :
    pruneFrames lines frames lo hi = (r.1, r.2, []) := by
  induction frames generalizing lo hi with
  | nil => exact h
  | cons f frames ih =>
    have hemptied : emptied (lines.map content) f lo hi = emptied lines f lo hi := by
      unfold emptied
      congr 1
      funext idx
      rw [lineAt_map_content, stripText_content]
    rw [pruneFrames, hemptied, lineAt_map_content, startsWith_dash_content] at h
    rw [pruneFrames]
    split at h
    · next hstop =>
      rw [if_pos hstop]
      exact h
    · next hgo =>
      rw [if_neg hgo]
      split at h
      · have hbare := congrArg (fun x => x.2.2) h
        dsimp only at hbare
        unfold bareDash at hbare
        have hlen := congrArg List.length hbare
        simp only [List.length_append, List.length_cons, List.length_nil] at hlen
        omega
      · next hdash =>
        rw [if_neg hdash]
        exact ih h

theorem emptied_eq_false {i : ℕ} (h1 : f.start < i) (h2 : i < f.stop) (h3 : ¬ (lo ≤ i ∧ i < hi))
    (hs : stripText (lineAt lines i) ≠ []) : emptied lines f lo hi = false := by
  unfold emptied
  rw [List.all_eq_false]
  refine ⟨i, List.mem_filter.2 ⟨?_, ?_⟩, by simpa using hs⟩
  · rw [List.mem_range'_1]
    omega
  · have hb : (decide (lo ≤ i) && decide (i < hi)) = false := by
      rw [Bool.and_eq_false_iff, decide_eq_false_iff_not, decide_eq_false_iff_not]
      omega
    rw [hb]
    rfl

/-- The mapping at the end of a path stays when the handler in it goes: it is the instance or an
item, or something else stands in it. -/
def MappingSurvives (lines : List Text) (target : Span) (below : List Span) : Prop :=
  below = [] ∨ target.isListItem = true ∨
    ∃ i, target.start < i ∧ i < target.stop ∧ stripText (lineAt lines i) ≠ []

/-- What an upsert at a field path splices in, and where. -/
theorem upsertNestedHandler_some
    (hspan : locateComponentInstance u (splitlines text) domain componentId = some span)
    (hdesc : descendFieldSegments u (splitlines text) (instanceFrame (splitlines text) span) []
      intermediates = .ok (target, below)) {diff : YamlDiff}
    (h : upsertNestedHandler u text domain componentId intermediates key rendered =
      .ok (some (new, diff))) :
    (∀ seg ∈ intermediates.drop below.length, u.int? seg = none) ∧
      new = (applyHandlerUpsert (splitlines text) target
        ((intermediates.drop below.length).head?.getD key)
        (wrapSegments (intermediates.drop below.length) rendered)).1 := by
  unfold upsertNestedHandler at h
  dsimp only at h
  rw [hspan] at h
  simp only [hdesc, Except.map, Except.ok.injEq] at h
  cases hdr : intermediates.drop below.length with
  | nil =>
    rw [hdr] at h
    exact ⟨nofun, (congrArg Prod.fst (Option.some.inj h)).symm⟩
  | cons seg rest =>
    rw [hdr] at h
    dsimp only at h
    split at h
    · cases h
    · next hany =>
      refine ⟨fun s hs => ?_, (congrArg Prod.fst (Option.some.inj h)).symm⟩
      cases hi : u.int? s with
      | none => rfl
      | some n => exact absurd (List.any_eq_true.2 ⟨s, hs, by rw [hi]; rfl⟩) hany

/-- The handler is nowhere at the path before an upsert that inserts it. -/
theorem locateHandlerRange_of_absent
    (hspan : locateComponentInstance u (splitlines text) domain componentId = some span)
    (hdesc : descendFieldSegments u (splitlines text) (instanceFrame (splitlines text) span) []
      intermediates = .ok (target, below))
    (hmiss : ∀ seg rest, intermediates.drop below.length = seg :: rest →
      locateKeyBlock (splitlines text) target seg = .ok none)
    (hlen : intermediates.drop below.length = [] → below.length = intermediates.length)
    (h : removeNestedHandler u text domain componentId intermediates key = none) :
    locateHandlerRange (splitlines text) target
      ((intermediates.drop below.length).head?.getD key) = none := by
  cases hdr : intermediates.drop below.length with
  | cons seg rest => exact locateHandlerRange_of_missing (hmiss seg rest hdr)
  | nil =>
    unfold removeNestedHandler at h
    dsimp only at h
    rw [hspan, Option.bind_eq_bind, Option.bind_some, hdesc] at h
    simp only [Except.toOption, Option.bind_eq_bind, Option.bind_some, hlen hdr, ne_eq,
      not_true_eq_false, if_false] at h
    cases hr : locateHandlerRange (splitlines text) target key with
    | none => exact hr
    | some r =>
      rw [hr] at h
      cases h

/-- **The upsert of a handler at a field path**, into a mapping whose frames are laid out as in
block style. -/
theorem nested_upsert (hu : u.isalpha ' ' = false) (hd : IsFieldName domain)
    (hsegs : ∀ seg ∈ intermediates, IsHandlerKey seg) (hk : IsHandlerKey key)
    (hr : IsHandlerBlock key rendered) (hplain : PlainBlanks (splitlines text))
    (hspan : locateComponentInstance u (splitlines text) domain componentId = some span)
    (hdesc : descendFieldSegments u (splitlines text) (instanceFrame (splitlines text) span) []
      intermediates = .ok (target, below))
    (htake : below ≠ [] → TakesKeys (splitlines text) target)
    (hnest : ∀ g ∈ below, DashesNested (splitlines text) g) {diff : YamlDiff}
    (h : upsertNestedHandler u text domain componentId intermediates key rendered =
      .ok (some (new, diff))) :
    (upsertNestedHandler u new domain componentId intermediates key rendered).map
        (Option.map Prod.fst) = .ok (some new) ∧
      KeepsLines (splitlines text)
        (upsertRange (splitlines text) target
          ((intermediates.drop below.length).head?.getD key)).1
        (upsertRange (splitlines text) target
          ((intermediates.drop below.length).head?.getD key)).2 (splitlines new) ∧
      (removeNestedHandler u text domain componentId intermediates key = none →
        MappingSurvives (splitlines text) target below →
        (removeNestedHandler u new domain componentId intermediates key).map Prod.fst =
          some text) := by
  obtain ⟨hint, hnew⟩ := upsertNestedHandler_some hspan hdesc h
  obtain ⟨done, rest, passed, hdone, hsteps, hbelow, hplen, hstop⟩ := steps_of_descend hdesc
  rw [List.append_nil] at hbelow
  have hblen : below.length = done.length := by
    rw [hbelow, List.length_reverse, hplen]
  have hdrop : intermediates.drop below.length = rest := by
    rw [hdone, hblen, List.drop_left]
  rw [hdrop] at hint hnew ⊢
  have hnames : ∀ seg ∈ intermediates, IsFieldName seg := fun s hs => (hsegs s hs).1
  have hdnames : ∀ seg ∈ done, IsFieldName seg := fun s hs =>
    hnames s (hdone ▸ List.mem_append_left _ hs)
  have hrest : ∀ seg ∈ rest, IsHandlerKey seg := fun s hs =>
    hsegs s (hdone ▸ List.mem_append_right _ hs)
  have hname : IsHandlerKey (rest.head?.getD key) := by
    cases rest with
    | nil => exact hk
    | cons s _ => exact hrest s List.mem_cons_self
  -- the frames, in lines without terminators
  have hinst : IsInstance ((splitlines text).map content) span :=
    isInstance_of_locate hd ((locateComponentInstance_contents u _ _ _).trans hspan)
  have hframed := hinst.frame.fields.framed
  have hsteps' : Steps u ((splitlines text).map content)
      (instanceFrame ((splitlines text).map content) span) done passed target := by
    rw [instanceFrame_contents]
    exact steps_contents hsteps
  have htake' : done ≠ [] → TakesKeys ((splitlines text).map content) target := fun hne =>
    takesKeys_contents.2 (htake fun hb => hne (List.length_eq_zero_iff.1 (by
      rw [← hblen, hb]
      rfl)))
  have hnest' : ∀ g ∈ passed, DashesNested ((splitlines text).map content) g := fun g hg =>
    dashesNested_contents (hnest g (hbelow ▸ List.mem_reverse.2 hg))
  obtain ⟨-, hst, hsp⟩ := hsteps'.framed hframed hdnames
  have hfields := takesFields_of_steps hsteps' hframed hdnames htake' fun _ =>
    hinst.fields.opening
  have hle := le_of_steps hsteps' hframed hdnames htake' hnest' hinst.near
  -- what is spliced in
  have hblock : IsHandlerBlock (rest.head?.getD key) (wrapSegments rest rendered) :=
    isHandlerBlock_wrapSegments hk.1 (fun s hs => (hrest s hs).1) hr
  have hR := blockAt_indentBlock hfields.ok.blanks hblock
  have hRne : indentBlock (wrapSegments rest rendered) target.childIndent ≠ [] := by
    obtain ⟨first, rs, hfr, -⟩ := hR.opening
    rw [hfr]
    exact List.cons_ne_nil _ _
  have hspec := rangeSpec_upsertRange hfields (plainBlanks_contents hplain) (rest.head?.getD key)
  rw [upsertRange_contents] at hspec
  rw [applyHandlerUpsert_eq _ _ _ _ hRne] at hnew
  obtain ⟨front, hupd, hloc', -⟩ := upsert_found hu hspan hinst hst hsp hle hfields hname.1
    hname.2 hR hspec
  rw [← hnew] at hupd hloc'
  have htarget := hupd.target hR
  generalize hlo : (upsertRange (splitlines text) target (rest.head?.getD key)).1 = lo at *
  generalize hhi : (upsertRange (splitlines text) target (rest.head?.getD key)).2 = hi at *
  generalize hRR : indentBlock (wrapSegments rest rendered) target.childIndent = R at *
  have hsource : (LineEdit.ofRange ((splitlines text).map content) lo hi R).source =
      (splitlines text).map content := LineEdit.source_ofRange hspec.le
  obtain ⟨hw, hflen⟩ : (LineEdit.ofRange ((splitlines text).map content) lo hi R).Within
        target.start target.stop ∧
      (LineEdit.ofRange ((splitlines text).map content) lo hi R).front.length = lo :=
    LineEdit.within_ofRange hspec hfields.ok.le
  generalize hE : LineEdit.ofRange ((splitlines text).map content) lo hi R = e at *
  have hnewR : e.new = R := by rw [← hE]; rfl
  have hfront : e.front = ((splitlines text).map content).take lo := by rw [← hE]; rfl
  have hback : e.back = ((splitlines text).map content).drop hi := by rw [← hE]; rfl
  have hind : e.Indented target := LineEdit.indented_of_blockAt (hnewR.symm ▸ hR) hname.1
    hfields.ok.blanks
  have hfw : span.start < e.front.length := Nat.lt_of_le_of_lt hst hw.start
  -- the way to the mapping, and from there to the handler
  have hway : Steps u e.target (e.span (instanceFrame e.source span)) done (passed.map e.span)
      (e.span target) := by
    refine LineEdit.steps_pos ?_ ?_ hdnames ?_ ?_ hw hind
    · rw [hsource]
      exact hsteps'
    · rw [hsource]
      exact hframed
    · rw [hsource]
      exact hnest'
    · rw [hsource]
      exact htake'
  have htstart : (e.span target).start = target.start := LineEdit.pos_front hw.start
  obtain ⟨k, hk1, hk2⟩ := LineEdit.exists_back hw.stop
  have hold : e.front.length + e.old.length = hi := by
    have h1 := hspec.le
    have h2 := hspec.stop
    have h3 := hfields.ok.le
    rw [← hE]
    unfold LineEdit.ofRange
    simp only [List.length_drop, List.length_take] at h3 ⊢
    omega
  have hmiss : ∀ s r, rest = s :: r →
      locateKeyBlock ((splitlines text).map content) target s = .ok none := by
    intro s r hsr
    have hs := hstop s r hsr
    unfold stepFrame at hs
    rw [hint s (hsr ▸ List.mem_cons_self)] at hs
    rw [locateKeyBlock_contents]
    exact hs
  have hfrontline : lineAt e.front target.start =
      lineAt ((splitlines text).map content) target.start := by
    rw [← hsource, LineEdit.source, LineEdit.lineAt_front hw.start]
  have hfrontmem : ∀ l ∈ e.front.drop target.start,
      ∃ i, target.start ≤ i ∧ i < lo ∧ i < ((splitlines text).map content).length ∧
        l = lineAt ((splitlines text).map content) i := by
    intro l hl
    rw [hfront] at hl
    obtain ⟨i, hi', h1, h2, rfl⟩ := mem_slice hl
    exact ⟨i, h1, h2, hi', (lineAt_eq hi').symm⟩
  obtain ⟨passed', w, frames, hway', hplen', hrange, hwR, hwb, hframes, hprune⟩ :=
    steps_created (u := u) hk.1 hr (B := e.back) (k := k) (by
      have h3 := hfields.ok.le
      rw [hback, List.length_drop]
      omega) (fun s hs => ⟨(hrest s hs).1, hint s hs⟩) (A := e.front) (R := R)
      (f := e.span target) hRR.symm hfields.ok.blanks (by rw [htstart]; exact hw.start)
      (by
        show e.pos target.stop = _
        rw [hk2, hnewR])
      (by
        have hbehind := hspec.behind
        have hsub : target.stop - hi = k := by omega
        rw [List.drop_take, hsub, ← hback] at hbehind
        exact hbehind)
      (fun hnil l hl => by
        rw [htstart] at hl
        obtain ⟨i, h1, h2, -, rfl⟩ := hfrontmem l hl
        have hfr := hspec.front i h1 h2
        rw [hnil] at hfr
        exact hfr)
      (fun s hs => by
        obtain ⟨s', r, hsr⟩ := List.exists_cons_of_ne_nil (l := rest) (by
          rintro rfl
          cases hs)
        rw [hsr] at hs
        cases hs
        obtain ⟨hdash, hlines⟩ := locateKeyBlock_none (hmiss s r hsr)
        refine ⟨fun hi => ?_, fun l hl => ?_⟩
        · rw [htstart, hfrontline]
          exact hdash hi
        · rw [htstart] at hl
          obtain ⟨i, h1, h2, h3, rfl⟩ := hfrontmem l hl
          refine hlines _ ?_
          have h4 := hspec.le
          have h5 := hspec.stop
          rw [lineAt_eq h3]
          refine List.mem_drop_iff_getElem.2 ⟨i - target.start, ?_, ?_⟩
          · rw [List.length_take]
            omega
          · rw [List.getElem_take]
            congr 1
            omega)
  have htgt : e.front ++ (R ++ e.back) = e.target := by
    rw [LineEdit.target, hnewR]
  rw [htgt] at hway' hrange hprune
  have hdesc' : descendFieldSegments u (splitlines new) (instanceFrame (splitlines new)
      (e.span span)) [] intermediates =
        .ok (w, passed'.reverse ++ ((passed.map e.span).reverse ++ [])) := by
    rw [← descendFieldSegments_contents, ← instanceFrame_contents, htarget,
      LineEdit.instanceFrame_span hfw, hdone, descendFieldSegments_of_steps hway]
    have hlast := descendFieldSegments_of_steps hway' ((passed.map e.span).reverse ++ []) []
    simp only [List.append_nil] at hlast ⊢
    exact hlast
  have hlen : (passed'.reverse ++ ((passed.map e.span).reverse ++ [])).length =
      intermediates.length := by
    simp only [List.length_append, List.length_reverse, List.length_map, List.length_nil, hplen,
      hplen', hdone]
    omega
  rw [← htarget, locateHandlerRange_contents, hflen] at hrange
  refine ⟨?_, hupd.keepsLines, fun hnone hsurv => ?_⟩
  · unfold upsertNestedHandler
    dsimp only
    rw [hloc']
    dsimp only
    rw [hdesc']
    have hnil : intermediates.drop (passed'.reverse ++ ((passed.map e.span).reverse ++ [])).length =
        [] := List.drop_eq_nil_of_le (Nat.le_of_eq hlen.symm)
    simp only [Except.map, hnil, Option.map_some]
    have hw' : BlockAt w.childIndent key (R.drop rest.length) := hwR ▸ blockAt_indentBlock hwb hr
    rw [hupd.again hR hw' hwR.symm hrange]
  · have habsent : locateHandlerRange (splitlines text) target (rest.head?.getD key) = none := by
      have := locateHandlerRange_of_absent hspan hdesc
        (fun s r hsr => by
          rw [← locateKeyBlock_contents]
          exact hmiss s r (hdrop ▸ hsr))
        (fun hnil => by
          rw [hdrop] at hnil
          rw [hdone, hnil, List.append_nil, hblen]) hnone
      rwa [hdrop] at this
    have hsame : hi = lo := by
      rw [← hlo, ← hhi, upsertRange, habsent]
      rfl
    rw [hsame] at hupd hold
    have hpruned : pruneFrames (splitlines new)
        (w :: (passed'.reverse ++ ((passed.map e.span).reverse ++ []))).dropLast
        (lo + rest.length) (lo + R.length) = (lo, lo + R.length, []) := by
      refine pruneFrames_contents (r := (lo, lo + R.length)) ?_
      rw [htarget, List.append_nil, ← List.cons_append, hframes, ← hflen]
      cases hp : passed with
      | nil =>
        rw [List.map_nil, List.reverse_nil, List.append_nil, List.dropLast_concat]
        have hp0 := hprune []
        rw [List.append_nil] at hp0
        exact hp0
      | cons g gs =>
        have hne : ((g :: gs).map e.span).reverse ≠ [] := by simp
        rw [List.dropLast_append_of_ne_nil hne, List.append_assoc]
        refine (hprune _).trans ?_
        have hbne : below ≠ [] := by
          rw [hbelow, hp]
          simp
        rw [List.singleton_append, pruneFrames, if_pos]
        rcases hsurv with hb | hb | ⟨i, h1, h2, h3⟩
        · exact absurd hb hbne
        · have hitem : (e.span target).isListItem = true := hb
          rw [hitem, Bool.true_or]
        · have haway : e.Away i := by
            unfold LineEdit.Away
            omega
          have hmono : target.start < e.pos i ∧ e.pos i < e.pos target.stop ∧
              ¬ (e.front.length ≤ e.pos i ∧ e.pos i < e.front.length + R.length) := by
            rcases haway with h | h
            · rw [LineEdit.pos_front h]
              omega
            · obtain ⟨j, hj, hj'⟩ := LineEdit.exists_back h
              rw [hj', hk2, hnewR]
              have := hw.start
              omega
          rw [emptied_eq_false (i := e.pos i) (by rw [htstart]; exact hmono.1) hmono.2.1 hmono.2.2,
            Bool.not_false, Bool.or_true]
          rw [LineEdit.lineAt_pos haway, hsource, lineAt_map_content, stripText_content]
          exact h3
    unfold removeNestedHandler
    dsimp only
    rw [hloc']
    simp only [Option.bind_eq_bind, Option.bind_some]
    rw [hdesc']
    simp only [Except.toOption, Option.bind_some, hlen, ne_eq, not_true_eq_false, if_false,
      hrange, hpruned, Option.map_some]
    rw [hupd.away hR]

end DeviceBuilder
