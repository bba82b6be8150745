import DeviceBuilder.Properties.FieldPaths

/-!
# Handler blocks

* `IsHandlerBlock`: what is rendered for a handler; `blockAt_indentBlock`: its
  lines at an indent.
* `childBlockEnd_block`: the scan for the end of a block finds its last line.
* `steps_created`: the way through mappings that an upsert has created, and back
  when what is below them is removed.
-/

namespace DeviceBuilder

open Lines

variable {u : CharTable} {A R B : List Text} {f g t : Span} {key ci seg rendered : Text}
  {segs : List Text}

/-! ### Handler blocks -/

/-- The lines are the block of a key at an indent. -/
structure BlockAt (ci key : Text) (R : List Text) : Prop where
  opening : ∃ first rest, R = first :: rest ∧ keyHeader key ci first = true ∧
    ∀ s ∈ rest, endsChild ci s = false
  last : ∃ init last, R = init ++ [last] ∧ staysInside ci last = true
  indented : ∀ r ∈ R, r = [] ∨ ∃ s, r = ci ++ s
  bare : ∀ r ∈ R, ∀ c ∈ r, isBreak c = false

/-- A rendered handler: the header line of its key in the first column, and lines that stay in
its block, up to the last. -/
def IsHandlerBlock (key rendered : Text) : Prop :=
  ∃ first rest, (splitlines rendered).map dropTerminator = first :: rest ∧
    keyHeader key [] first = true ∧ (∀ s ∈ rest, endsChild [] s = false) ∧
    ∀ last, (first :: rest).getLast? = some last → staysInside [] last = true

/-- Lines without terminators, seen as lines of a block. -/
theorem endsChild_indent (hb : Blanks ci) {s : Text} (hs : ∀ c ∈ s, isBreak c = false)
    (h : endsChild [] s = false) : endsChild ci (ci ++ s) = false := by
  have hbr : ∀ c ∈ ci ++ s, isBreak c = false := by
    intro c hc
    rcases List.mem_append.1 hc with hc | hc
    · rw [hb c hc]
      rfl
    · exact hs c hc
  unfold endsChild isGap at h ⊢
  dsimp only at h ⊢
  rw [content_of_not_break hs] at h
  rw [content_of_not_break hbr, lstripBlanks_indent hb, leadingWs_indent hb, List.length_append]
  rw [Bool.and_eq_false_iff] at h ⊢
  refine h.imp_right fun h => ?_
  rw [Bool.or_eq_false_iff, Bool.and_eq_false_iff] at h ⊢
  refine ⟨by simp, h.2.imp_left fun h0 => ?_⟩
  rw [beq_eq_false_iff_ne] at h0 ⊢
  rw [List.length_nil] at h0
  omega

theorem staysInside_indent (hb : Blanks ci) {s : Text} (hs : ∀ c ∈ s, isBreak c = false)
    (h : staysInside [] s = true) : staysInside ci (ci ++ s) = true := by
  have hbr : ∀ c ∈ ci ++ s, isBreak c = false := by
    intro c hc
    rcases List.mem_append.1 hc with hc | hc
    · rw [hb c hc]
      rfl
    · exact hs c hc
  unfold staysInside at h ⊢
  dsimp only at h ⊢
  rw [content_of_not_break hs] at h
  rw [content_of_not_break hbr, lstripBlanks_indent hb, leadingWs_indent hb, List.length_append]
  rw [Bool.and_eq_true, Bool.or_eq_true, decide_eq_true_eq] at h ⊢
  refine ⟨h.1, h.2.imp_right fun h0 => ?_⟩
  rw [List.length_nil] at h0
  omega

theorem not_break_of_mem_bare {rendered s : Text}
    (h : s ∈ (splitlines rendered).map dropTerminator) : ∀ c ∈ s, isBreak c = false := by
  obtain ⟨l, hl, rfl⟩ := List.mem_map.1 h
  rcases (cut_splitlines rendered).ended_or hl with hl | hl
  · exact dropTerminator_of_ended hl
  · rw [dropTerminator_self hl]
    exact hl.2

/-- **A rendered handler, indented**, is a block at that indent. -/
theorem blockAt_indentBlock (hb : Blanks ci) {rendered : Text} (h : IsHandlerBlock key rendered) :
    BlockAt ci key (indentBlock rendered ci) := by
  obtain ⟨first, rest, hl, hh, hr, hlast⟩ := h
  have hbare : ∀ s ∈ (splitlines rendered).map dropTerminator, ∀ c ∈ s, isBreak c = false :=
    fun s hs => not_break_of_mem_bare hs
  have hind : indentBlock rendered ci =
      (first :: rest).map fun line => if line = [] then [] else ci ++ line := by
    rw [← hl, List.map_map]
    rfl
  have hfirst : first ≠ [] := by
    rintro rfl
    obtain ⟨tail, ht, -⟩ := keyHeader_iff.1 hh
    exact absurd (congrArg List.length ht) (by simp)
  have hline : ∀ s ∈ first :: rest, endsChild [] s = false →
      endsChild ci (if s = [] then [] else ci ++ s) = false := by
    intro s hs hends
    split
    · rfl
    · exact endsChild_indent hb (hbare s (hl ▸ hs)) hends
  refine ⟨⟨_, _, hind, ?_, fun s hs => ?_⟩, ?_, fun r hr => ?_, fun r hr =>
    indentBlock_no_break hb hr⟩
  · obtain ⟨tail, ht, htail⟩ := keyHeader_iff.1 hh
    show keyHeader key ci (if first = [] then [] else ci ++ first) = true
    rw [if_neg hfirst]
    exact keyHeader_iff.2 ⟨tail, by rw [ht]; rfl, htail⟩
  · obtain ⟨s, hmem, rfl⟩ := List.mem_map.1 hs
    exact hline s (List.mem_cons_of_mem _ hmem) (hr s hmem)
  · obtain ⟨init, last, hil⟩ := exists_last (List.cons_ne_nil first rest)
    have hstays := hlast last (by rw [hil, List.getLast?_concat])
    have hne : last ≠ [] := by
      rintro rfl
      cases hstays
    refine ⟨init.map fun line => if line = [] then [] else ci ++ line, ci ++ last, ?_,
      staysInside_indent hb (hbare last (hl ▸ hil ▸ by simp)) hstays⟩
    rw [hind, hil, List.map_append, List.map_singleton, if_neg hne]
  · rw [hind] at hr
    obtain ⟨s, -, rfl⟩ := List.mem_map.1 hr
    split
    · exact Or.inl rfl
    · exact Or.inr ⟨s, rfl⟩

/-! ### Where a block ends -/

theorem pullBack_over {keep : Text → Bool} {start stop last : ℕ} (hs : start < last)
    (hl : last ≤ stop) (hgap : ∀ i, last ≤ i → i < stop → keep (lineAt lines i) = false)
    (hkeep : last = start + 1 ∨ keep (lineAt lines (last - 1)) = true) :
    pullBack keep lines start stop = last := by
  induction stop with
  | zero => omega
  | succ e ih =>
    rw [pullBack]
    rcases Nat.lt_or_eq_of_le hl with hlt | rfl
    · have hk := hgap e (by omega) (Nat.lt_succ_self e)
      have hse : start < e := by omega
      rw [hk]
      simp only [hse, decide_true, Bool.not_false, Bool.and_self, if_true]
      exact ih (by omega) fun i h1 h2 => hgap i h1 (by omega)
    · rcases hkeep with h | h
      · have hse : ¬ start < e := by omega
        simp [hse]
      · rw [Nat.add_sub_cancel] at h
        simp [h]

theorem firstIn_hit {p : Text → Bool} {start stop : ℕ} (hl : stop ≤ lines.length)
    (h : firstIn p lines start stop < stop) :
    p (lineAt lines (firstIn p lines start stop)) = true := by
  unfold firstIn at h ⊢
  split
  · next n hn =>
    obtain ⟨hlt, hp, -⟩ := List.findIdx?_eq_some_iff_getElem.1 hn
    simp only [List.length_drop, List.length_take] at hlt
    simp only [List.getElem_drop, List.getElem_take] at hp
    rw [lineAt_eq (by omega)]
    exact hp
  · next hn =>
    rw [hn] at h
    exact absurd h (Nat.lt_irrefl _)

/-- Lines behind a block: none of them is in it, up to the line that ends it. -/
def GapBehind (ci : Text) (ls : List Text) : Prop :=
  ∃ gap rest, ls = gap ++ rest ∧ (∀ l ∈ gap, staysInside ci l = false) ∧
    ∀ l, rest.head? = some l → endsChild ci l = true

theorem childBlockEnd_block {k : ℕ} (hk : k ≤ B.length) (hR : BlockAt ci key R)
    (hB : GapBehind ci (B.take k)) :
    childBlockEnd (A ++ (R ++ B)) A.length (A.length + R.length + k) ci =
      A.length + R.length := by
  obtain ⟨first, rest, hfr, -, hrest⟩ := hR.opening
  obtain ⟨init, last, hil, hstays⟩ := hR.last
  obtain ⟨gap, tail, hgt, hgap, htail⟩ := hB
  have hRpos : 0 < R.length := by
    rw [hfr]
    exact Nat.succ_pos _
  have hlen : A.length + R.length + k ≤ (A ++ (R ++ B)).length := by
    rw [List.length_append, List.length_append]
    omega
  have hback : ∀ j, lineAt (A ++ (R ++ B)) (A.length + R.length + j) = lineAt B j := fun j =>
    LineEdit.lineAt_back A R B j
  have hlow : A.length + R.length ≤ firstIn (endsChild ci) (A ++ (R ++ B)) (A.length + 1)
      (A.length + R.length + k) := by
    by_contra hlt
    have hhit : endsChild ci (lineAt (A ++ (R ++ B)) (firstIn (endsChild ci) (A ++ (R ++ B))
        (A.length + 1) (A.length + R.length + k))) = true := firstIn_hit hlen (by omega)
    have hge : A.length + 1 ≤ firstIn (endsChild ci) (A ++ (R ++ B)) (A.length + 1)
        (A.length + R.length + k) := le_firstIn (by omega)
    generalize firstIn (endsChild ci) (A ++ (R ++ B)) (A.length + 1) (A.length + R.length + k) = n
      at *
    obtain ⟨m, rfl⟩ := Nat.exists_eq_add_of_le hge
    have hm : m < rest.length := by
      rw [hfr, List.length_cons] at hlt
      omega
    have hline : lineAt (A ++ (R ++ B)) (A.length + 1 + m) = rest[m] := by
      have hin : A.length + 1 + m < (A ++ (R ++ B)).length := by omega
      rw [lineAt_eq hin, List.getElem_append_right (by omega)]
      simp only [hfr]
      have hsub : A.length + 1 + m - A.length = m + 1 := by omega
      rw [List.getElem_append_left (by rw [List.length_cons]; omega)]
      simp only [hsub, List.getElem_cons_succ]
    rw [hline, hrest _ (List.getElem_mem hm)] at hhit
    cases hhit
  unfold childBlockEnd
  refine pullBack_over (by omega) hlow (fun i h1 h2 => ?_) ?_
  · obtain ⟨j, rfl⟩ := Nat.exists_eq_add_of_le h1
    have hle : firstIn (endsChild ci) (A ++ (R ++ B)) (A.length + 1) (A.length + R.length + k) ≤
        A.length + R.length + k := firstIn_le
    have hjk : j < k := by omega
    have hlenk : (B.take k).length = k := by
      rw [List.length_take]
      omega
    have hget : ∀ n (hn : n < (B.take k).length), lineAt B n = (B.take k)[n] := by
      intro n hn
      rw [lineAt_eq (by omega), List.getElem_take]
    rw [hback]
    by_cases hj : j < gap.length
    · rw [hget j (by omega)]
      simp only [hgt]
      rw [List.getElem_append_left hj]
      exact hgap _ (List.getElem_mem hj)
    · -- the line that ends the block would have been found before
      exfalso
      have hlens := congrArg List.length hgt
      rw [List.length_take, List.length_append] at hlens
      have hgk : gap.length < k := by omega
      have hfirst : A.length + R.length + gap.length < firstIn (endsChild ci) (A ++ (R ++ B))
          (A.length + 1) (A.length + R.length + k) := by omega
      have hbefore : endsChild ci (lineAt (A ++ (R ++ B)) (A.length + R.length + gap.length)) =
          false := firstIn_before (by omega) hfirst (by omega)
      rw [hback, hget _ (by omega)] at hbefore
      obtain ⟨l, tail, rfl⟩ := List.exists_cons_of_ne_nil (l := tail) (by
        rintro rfl
        rw [List.length_nil] at hlens
        omega)
      simp only [hgt] at hbefore
      rw [List.getElem_append_right (Nat.le_refl _)] at hbefore
      simp only [Nat.sub_self, List.getElem_cons_zero] at hbefore
      rw [htail l rfl] at hbefore
      cases hbefore
  · right
    have hlast : A.length + R.length - 1 = A.length + init.length + 0 := by
      rw [hil, List.length_append, List.length_singleton]
      omega
    have hline := LineEdit.lineAt_back A init ([last] ++ B) 0
    rw [hlast, hil, List.append_assoc, hline]
    exact hstays

/-! ### Blocks below created mappings -/

theorem BlockAt.deep (h : BlockAt ci key R) (hk : IsFieldName key) (hb : Blanks ci) :
    ∀ l ∈ R, isGap l = true ∨ ci.length ≤ (leadingWs (content l)).length := by
  intro l hl
  obtain ⟨first, rest, hfr, hh, hrest⟩ := h.opening
  rw [hfr] at hl
  rcases List.mem_cons.1 hl with rfl | hl
  · have hbare : content l = l := content_of_not_break (h.bare l (hfr ▸ List.mem_cons_self))
    right
    rw [(header_line hb hk (hbare.symm ▸ hh)).1]
  · have hends := hrest l hl
    cases hg : isGap l with
    | true => exact Or.inl rfl
    | false =>
      right
      simp only [endsChild, hg, Bool.not_false, Bool.true_and, Bool.or_eq_false_iff,
        decide_eq_false_iff_not] at hends
      omega

theorem BlockAt.endsChild (h : BlockAt ci key R) (hk : IsFieldName key) (hb : Blanks ci)
    {outer : Text} (hlt : outer.length < ci.length) : ∀ l ∈ R, endsChild outer l = false :=
  fun l hl => endsChild_of_deeper (h.deep hk hb l hl) hlt

/-- A block of the emitter below created mappings is a block of the first of them. -/
theorem isHandlerBlock_wrapSegments (hk : IsFieldName key) (hs : ∀ seg ∈ segs, IsFieldName seg)
    (h : IsHandlerBlock key rendered) :
    IsHandlerBlock (segs.head?.getD key) (wrapSegments segs rendered) := by
  induction segs with
  | nil => exact h
  | cons seg segs ih =>
    have hs' : ∀ s ∈ segs, IsFieldName s := fun s hs' => hs s (List.mem_cons_of_mem _ hs')
    have hblock := blockAt_indentBlock blanks_indent (ih hs')
    have hname : IsFieldName (segs.head?.getD key) := by
      cases segs with
      | nil => exact hk
      | cons s _ => exact hs' s List.mem_cons_self
    obtain ⟨init, last, hil, hstays⟩ := hblock.last
    have hne : last ≠ [] := by
      rintro rfl
      cases hstays
    have hlines := lines_wrapSegments (hs seg List.mem_cons_self) hil
    rw [if_neg hne] at hlines
    refine ⟨_, _, hlines, keyHeader_iff.2 ⟨[], rfl, rfl⟩, ?_, fun l hl => ?_⟩
    · rw [← hil]
      exact hblock.endsChild hname blanks_indent (Nat.succ_pos _)
    · have hlast : l = last := by
        rw [← List.cons_append, List.getLast?_concat] at hl
        exact (Option.some.inj hl).symm
      rw [hlast]
      exact staysInside_of_deeper hstays (Nat.zero_le _)

theorem indentBlock_wrapSegments (hk : IsFieldName key) (hs : ∀ s ∈ seg :: segs, IsFieldName s)
    (h : IsHandlerBlock key rendered) (ci : Text) :
    indentBlock (wrapSegments (seg :: segs) rendered) ci =
      (ci ++ (seg ++ [':'])) ::
        indentBlock (wrapSegments segs rendered) (ci ++ esphomeYamlIndent) := by
  have hs' : ∀ s ∈ segs, IsFieldName s := fun s hs' => hs s (List.mem_cons_of_mem _ hs')
  have hblock := blockAt_indentBlock blanks_indent (isHandlerBlock_wrapSegments hk hs' h)
  obtain ⟨init, last, hil, hstays⟩ := hblock.last
  have hne : last ≠ [] := by
    rintro rfl
    cases hstays
  have hlines := lines_wrapSegments (hs seg List.mem_cons_self) hil
  rw [if_neg hne, ← hil] at hlines
  have hind : ∀ text, indentBlock text ci = ((splitlines text).map dropTerminator).map
      fun line => if line = [] then [] else ci ++ line := fun text => by
    rw [List.map_map]
    rfl
  have hind' : indentBlock (wrapSegments segs rendered) (ci ++ esphomeYamlIndent) =
      (indentBlock (wrapSegments segs rendered) esphomeYamlIndent).map
        fun line => if line = [] then [] else ci ++ line := by
    unfold indentBlock
    rw [List.map_map]
    refine List.map_congr_left fun l _ => ?_
    dsimp only [Function.comp_apply]
    by_cases hl : dropTerminator l = []
    · simp [hl]
    · simp [hl, esphomeYamlIndent]
  rw [hind, hlines, List.map_cons, hind']
  simp

/-- The key is not found in the first lines of a frame. -/
structure FieldMissing (A : List Text) (f : Span) (key : Text) : Prop where
  dash : f.isListItem = true →
    keyLine dashKeyPrefix key (content (lineAt A f.start)) = false ∧
      keyScalar dashKeyPrefix key (content (lineAt A f.start)) = false
  fields : ∀ l ∈ A.drop f.start, keyHeader key f.childIndent (content l) = false ∧
    keyScalar (lit f.childIndent) key (content l) = false

/-- A block in a frame that has no other for its key. -/
theorem locateHandlerRange_block {k : ℕ} (hs : f.start ≤ A.length)
    (hstop : f.stop = A.length + R.length + k) (hk : k ≤ B.length)
    (hA : ∀ l ∈ A.drop f.start, keyHeader key f.childIndent (content l) = false)
    (hR : BlockAt f.childIndent key R) (hB : GapBehind f.childIndent (B.take k)) :
    locateHandlerRange (A ++ (R ++ B)) f key = some (A.length, A.length + R.length) := by
  have hend := childBlockEnd_block (A := A) hk hR hB
  obtain ⟨first, rest, hfr, hh, -⟩ := hR.opening
  have hhead : keyHeader key f.childIndent (content first) = true := by
    rw [content_of_not_break (hR.bare first (hfr ▸ List.mem_cons_self))]
    exact hh
  have hidx : (A.drop f.start ++ (R ++ B.take k)).findIdx? (fun l =>
      keyHeader key f.childIndent (content l)) = some (A.length - f.start) := by
    rw [List.findIdx?_append, List.findIdx?_eq_none_iff.2 hA, hfr, List.cons_append,
      List.findIdx?_cons, hhead, List.length_drop]
    simp
  have hat : f.start + (A.length - f.start) = A.length := by omega
  unfold locateHandlerRange
  rw [hstop, LineEdit.slice_around A R B hs, hidx, Option.map_some, hat, hend]

theorem locateKeyBlock_block {k : ℕ} (hs : f.start < A.length)
    (hstop : f.stop = A.length + R.length + k) (hk : k ≤ B.length) (hA : FieldMissing A f key)
    (hR : BlockAt f.childIndent key R) (hB : GapBehind f.childIndent (B.take k)) :
    ∃ g, locateKeyBlock (A ++ (R ++ B)) f key = .ok (some g) ∧ g.start = A.length ∧
      g.stop = A.length + R.length ∧ g.isListItem = false ∧
      g.childIndent =
        (keyBlockFrame (A ++ (R ++ B)) A.length f.stop f.childIndent).childIndent := by
  have hend := childBlockEnd_block (A := A) hk hR hB
  obtain ⟨first, rest, hfr, hh, -⟩ := hR.opening
  have hhead : keyHeader key f.childIndent (content first) = true := by
    rw [content_of_not_break (hR.bare first (hfr ▸ List.mem_cons_self))]
    exact hh
  have hidx : (A.drop f.start ++ (R ++ B.take k)).findIdx? (fun l =>
      keyHeader key f.childIndent (content l) || keyScalar (lit f.childIndent) key (content l)) =
        some (A.length - f.start) := by
    rw [List.findIdx?_append, List.findIdx?_eq_none_iff.2 fun l hl => by
      rw [(hA.fields l hl).1, (hA.fields l hl).2]; rfl, hfr, List.cons_append,
      List.findIdx?_cons, hhead, List.length_drop]
    simp
  have hat : f.start + (A.length - f.start) = A.length := by omega
  have hfirst : lineAt (A ++ (R ++ B)) f.start = lineAt A f.start := by
    unfold lineAt
    rw [List.getD_append _ _ _ _ hs]
  have hline : lineAt (A ++ (R ++ B)) A.length = first := by
    have h1 := LineEdit.lineAt_back A [] (R ++ B) 0
    rw [hfr] at h1 ⊢
    exact h1
  refine ⟨keyBlockFrame (A ++ (R ++ B)) A.length f.stop f.childIndent, ?_, rfl, ?_, rfl, rfl⟩
  · unfold locateKeyBlock
    dsimp only
    rw [hfirst, if_neg, if_neg, hstop, LineEdit.slice_around A R B (Nat.le_of_lt hs), hidx]
    · dsimp only
      rw [hat, hline, if_pos hhead]
    · intro h
      rw [Bool.and_eq_true] at h
      rw [(hA.dash h.1).2] at h
      cases h.2
    · intro h
      rw [Bool.and_eq_true] at h
      rw [(hA.dash h.1).1] at h
      cases h.2
  · rw [keyBlockFrame_stop, hstop, hend]

theorem keyScalar_of_lt {s : Text} (hb : Blanks ci) (h : (leadingWs s).length < ci.length) :
    keyScalar (lit ci) key s = false := by
  rw [Bool.eq_false_iff]
  intro hk
  obtain ⟨tail, rfl, -⟩ := lit_iff.1 hk
  rw [leadingWs_indent hb, List.length_append] at h
  omega

/-- The header line of a created mapping. -/
theorem created_line (hb : Blanks ci) (hk : IsFieldName seg) :
    content (ci ++ (seg ++ [':'])) = ci ++ (seg ++ [':']) ∧
      leadingWs (ci ++ (seg ++ [':'])) = ci := by
  refine ⟨content_of_not_break fun c hc => ?_, ?_⟩
  · rcases List.mem_append.1 hc with hc | hc
    · rw [hb c hc]
      rfl
    · rcases List.mem_append.1 hc with hc | hc
      · exact not_isBreak_of_name (hk.2 c hc)
      · rw [List.mem_singleton.1 hc]
        rfl
  · rw [leadingWs_indent hb, (name_line hk [':']).1, List.append_nil]

/-- The pruning loop goes past a created mapping that holds nothing but what is removed. -/
theorem pruneFrames_created {lines : List Text} {a stop : ℕ} {inner : Text}
    (hline : lineAt lines a = ci ++ (seg ++ [':'])) (hb : Blanks ci) (hk : IsFieldName seg)
    (frames : List Span) :
    pruneFrames lines (⟨a, stop, inner, false⟩ :: frames) (a + 1) stop =
      pruneFrames lines frames a stop := by
  have hemptied : emptied lines ⟨a, stop, inner, false⟩ (a + 1) stop = true := by
    unfold emptied
    have hnil : ((List.range' (a + 1) (stop - (a + 1))).filter fun idx =>
        !(decide (a + 1 ≤ idx) && decide (idx < stop))) = [] := by
      rw [List.filter_eq_nil_iff]
      intro i hi
      rw [List.mem_range'_1] at hi
      have h1 : a + 1 ≤ i := hi.1
      have h2 : i < stop := by omega
      simp [h1, h2]
    dsimp only
    rw [hnil]
    rfl
  have hdash : startsWith ((lineAt lines a).dropWhile Lines.isSpace) ['-', ' '] = false := by
    have hspace : ∀ c ∈ ci, Lines.isSpace c = true := fun c hc => by
      rw [hb c hc]
      decide
    obtain ⟨x, name, rfl⟩ := List.exists_cons_of_ne_nil hk.1
    have hx := hk.2 x List.mem_cons_self
    rw [hline, List.dropWhile_append_of_pos hspace, List.cons_append,
      List.dropWhile_cons_of_neg (by rw [isSpace_of_name hx]; decide)]
    simp [startsWith, List.isPrefixOf, Ne.symm (ne_of_name hx).2.2]
  rw [pruneFrames]
  simp only [hemptied, hdash, Bool.not_true, Bool.or_self, Bool.false_eq_true, if_false,
    Nat.max_self]

/-- **Created mappings are walked through**: from the mapping they were put in, their keys lead to
the handler below them, and from there the pruning loop goes back to the first of them. -/
theorem steps_created (hk : IsFieldName key) (h : IsHandlerBlock key rendered) {k : ℕ}
    {B : List Text} (hkB : k ≤ B.length) (hs : ∀ seg ∈ segs, IsFieldName seg ∧ u.int? seg = none) :
    ∀ {A R : List Text} {f : Span}, R = indentBlock (wrapSegments segs rendered) f.childIndent →
      Blanks f.childIndent → f.start < A.length → f.stop = A.length + R.length + k →
      GapBehind f.childIndent (B.take k) →
      (segs = [] → ∀ l ∈ A.drop f.start, keyHeader key f.childIndent (content l) = false) →
      (∀ seg, segs.head? = some seg → FieldMissing A f seg) →
      ∃ passed w frames, Steps u (A ++ (R ++ B)) f segs passed w ∧
        passed.length = segs.length ∧
        locateHandlerRange (A ++ (R ++ B)) w key =
          some (A.length + segs.length, A.length + R.length) ∧
        R.drop segs.length = indentBlock rendered w.childIndent ∧ Blanks w.childIndent ∧
        w :: passed.reverse = frames ++ [f] ∧
        ∀ above, pruneFrames (A ++ (R ++ B)) (frames ++ above) (A.length + segs.length)
            (A.length + R.length) =
          pruneFrames (A ++ (R ++ B)) above A.length (A.length + R.length) := by
  induction segs generalizing k with
  | nil =>
    intro A R f hR hb hst hstop hB hmiss _
    have hblock : BlockAt f.childIndent key R := hR ▸ blockAt_indentBlock hb h
    refine ⟨[], f, [], Steps.nil f, rfl, ?_, hR, hb, rfl, fun _ => rfl⟩
    exact locateHandlerRange_block (Nat.le_of_lt hst) hstop hkB (hmiss rfl) hblock hB
  | cons seg segs ih =>
    intro A R f hR hb hst hstop hB _ hmiss
    have hseg := hs seg List.mem_cons_self
    have hs' : ∀ s ∈ segs, IsFieldName s ∧ u.int? s = none := fun s hs'' =>
      hs s (List.mem_cons_of_mem _ hs'')
    have hnames : ∀ s ∈ seg :: segs, IsFieldName s := fun s hs => (by
      rcases List.mem_cons.1 hs with rfl | hs
      · exact hseg.1
      · exact (hs' s hs).1)
    have hblock : BlockAt f.childIndent seg R :=
      hR ▸ blockAt_indentBlock hb (isHandlerBlock_wrapSegments hk hnames h)
    obtain ⟨g, hloc, hgs, hgstop, hgi, hgc⟩ :=
      locateKeyBlock_block hst hstop hkB (hmiss seg rfl) hblock hB
    rw [indentBlock_wrapSegments hk hnames h] at hR
    generalize hR' : indentBlock (wrapSegments segs rendered)
      (f.childIndent ++ esphomeYamlIndent) = R' at hR
    have hb' : Blanks (f.childIndent ++ esphomeYamlIndent) := hb.append blanks_indent
    have hblock' : BlockAt (f.childIndent ++ esphomeYamlIndent) (segs.head?.getD key) R' :=
      hR' ▸ blockAt_indentBlock hb' (isHandlerBlock_wrapSegments hk
        (fun s hs => (hs' s hs).1) h)
    have hname : IsFieldName (segs.head?.getD key) := by
      cases segs with
      | nil => exact hk
      | cons s _ => exact (hs' s List.mem_cons_self).1
    obtain ⟨hcont, hlead⟩ := created_line hb hseg.1
    have hline : lineAt (A ++ (R ++ B)) A.length = f.childIndent ++ (seg ++ [':']) := by
      have h1 := LineEdit.lineAt_back A [] (R ++ B) 0
      rw [hR] at h1 ⊢
      exact h1
    -- the first child of the created mapping is the next header
    have hci : g.childIndent = f.childIndent ++ esphomeYamlIndent := by
      obtain ⟨first, rest, hfr, hh, -⟩ := hblock'.opening
      have hbare : content first = first :=
        content_of_not_break (hblock'.bare first (hfr ▸ List.mem_cons_self))
      obtain ⟨hl1, hl2, -⟩ := header_line hb' hname (hbare.symm ▸ hh)
      have hend := childBlockEnd_block (A := A) hkB hblock hB
      have hslice := LineEdit.slice_around (s := A.length + 1)
        (A ++ [f.childIndent ++ (seg ++ [':'])]) R' B (by simp) 0
      rw [hgc, keyBlockFrame_childIndent, hstop, hend, hR]
      have hA : A ++ ((f.childIndent ++ (seg ++ [':'])) :: R' ++ B) =
          A ++ [f.childIndent ++ (seg ++ [':'])] ++ (R' ++ B) := by simp
      have hlen : A.length + ((f.childIndent ++ (seg ++ [':'])) :: R').length =
          (A ++ [f.childIndent ++ (seg ++ [':'])]).length + R'.length + 0 := by
        simp only [List.length_append, List.length_cons, List.length_nil]
        omega
      rw [hA, hlen, hslice, List.drop_eq_nil_of_le (by simp), hfr]
      rw [List.nil_append, List.cons_append, List.find?_cons_of_pos (by rw [hl2]; rfl)]
      exact hl1
    have hg : g = ⟨A.length, A.length + R.length, f.childIndent ++ esphomeYamlIndent, false⟩ := by
      show (⟨g.start, g.stop, g.childIndent, g.isListItem⟩ : Span) = _
      rw [hgs, hgstop, hci, hgi]
    subst hg
    have hlenR : R.length = R'.length + 1 := by
      rw [hR, List.length_cons]
    have hlines : A ++ (R ++ B) = (A ++ [f.childIndent ++ (seg ++ [':'])]) ++ (R' ++ B) := by
      rw [hR]
      simp
    have hlt : (leadingWs (content (f.childIndent ++ (seg ++ [':'])))).length <
        (f.childIndent ++ esphomeYamlIndent).length := by
      rw [hcont, hlead, List.length_append]
      exact Nat.lt_add_of_pos_right (by decide)
    have hdrop : (A ++ [f.childIndent ++ (seg ++ [':'])]).drop A.length =
        [f.childIndent ++ (seg ++ [':'])] := List.drop_left
    obtain ⟨passed, w, frames, hsteps, hplen, hrange, hwR, hwb, hframes, hprune⟩ :=
      ih (k := 0) (Nat.zero_le _) hs' (A := A ++ [f.childIndent ++ (seg ++ [':'])]) (R := R')
        (f := ⟨A.length, A.length + R.length, f.childIndent ++ esphomeYamlIndent, false⟩)
        hR'.symm hb' (by simp) (by
          dsimp only
          rw [List.length_append, List.length_singleton, hlenR]
          omega) ⟨[], [], rfl, nofun, nofun⟩
        (fun _ l hl => by
          rw [hdrop, List.mem_singleton] at hl
          rw [hl]
          exact keyHeader_of_lt hb' hlt)
        (fun s _ => ⟨nofun, fun l hl => by
          rw [hdrop, List.mem_singleton] at hl
          rw [hl]
          exact ⟨keyHeader_of_lt hb' hlt, keyScalar_of_lt hb' hlt⟩⟩)
    have hstart : (A ++ [f.childIndent ++ (seg ++ [':'])]).length + segs.length =
        A.length + (seg :: segs).length := by
      simp only [List.length_append, List.length_cons, List.length_nil]
      omega
    have hstop' : (A ++ [f.childIndent ++ (seg ++ [':'])]).length + R'.length =
        A.length + R.length := by
      simp only [List.length_append, List.length_cons, List.length_nil]
      omega
    rw [← hlines, hstart, hstop'] at hrange
    rw [← hlines] at hsteps
    refine ⟨f :: passed, w, frames ++ [⟨A.length, A.length + R.length,
      f.childIndent ++ esphomeYamlIndent, false⟩], Steps.cons ?_ hsteps, by
        rw [List.length_cons, hplen, List.length_cons], hrange, ?_, hwb, ?_, fun above => ?_⟩
    · unfold stepFrame
      rw [hseg.2]
      exact hloc
    · rw [hR, List.length_cons, List.drop_succ_cons]
      exact hwR
    · rw [List.reverse_cons, ← List.cons_append, hframes]
    · have hp := hprune (⟨A.length, A.length + R.length, f.childIndent ++ esphomeYamlIndent,
        false⟩ :: above)
      rw [← hlines, hstart, hstop'] at hp
      rw [List.append_assoc]
      refine hp.trans ?_
      have hlen1 : (A ++ [f.childIndent ++ (seg ++ [':'])]).length = A.length + 1 := by simp
      rw [hlen1]
      exact pruneFrames_created hline hb hseg.1 above

end DeviceBuilder
