import DeviceBuilder.Properties.HandlerBlocks

/-!
# The text of an upsert

* `upsertRange`: the lines that an upsert replaces; `RangeSpec`: what is around
  them.
* `Upserted`: the lines of the text after it. Splicing in what is there changes
  nothing (`Upserted.again`), and taking inserted lines out gives the old text
  (`Upserted.away`).
-/

namespace DeviceBuilder

open Lines

variable {u : CharTable} {lines R : List Text} {f t w : Span} {key ci rendered text : Text}
  {lo hi : ℕ}

/-! ### Text around new lines -/

variable {front back init : List Text} {last : Text} {open_ : Bool}

theorem isTerminated_concat (init : List Text) {last : Text} (h : last ≠ []) :
    isTerminated (init ++ [last]).flatten = isTerminated last := by
  rw [List.flatten_append, List.flatten_singleton, isTerminated, isTerminated,
    List.getLast?_append_of_ne_nil _ h]

theorem isTerminated_flatten (h : ∀ l ∈ front, Ended l) : isTerminated front.flatten = true := by
  rcases List.eq_nil_or_concat front with rfl | ⟨a, l, rfl⟩
  · rfl
  · rw [List.concat_eq_append] at h ⊢
    have hl : Ended l := h l (by simp)
    rw [isTerminated_concat _ hl.ne_nil]
    exact isTerminated_of_ended (m := []) hl

theorem flatten_ne_nil {l : Text} {ls : List Text} (h : Cut (l :: ls)) : (l :: ls).flatten ≠ [] :=
  fun h0 => h.head_ne_nil (List.append_eq_nil_iff.1 h0).1

/-- The new lines end the text in the same way when they are spliced in again. -/
theorem openEnded_rowsOf (hl : last ≠ []) (hb : ∀ c ∈ last, isBreak c = false) (hB : Cut back)
    (ho : open_ = true → back = []) :
    openEnded (front ++ (rowsOf open_ (init ++ [last]) ++ back))
      (front.length + (rowsOf open_ (init ++ [last])).length) = open_ := by
  have hdrop : (front ++ (rowsOf open_ (init ++ [last]) ++ back)).drop
      (front.length + (rowsOf open_ (init ++ [last])).length) = back := by
    rw [← List.append_assoc, ← List.length_append, List.drop_left]
  unfold openEnded
  rw [hdrop]
  cases back with
  | cons m ms =>
    have hne := flatten_ne_nil hB
    cases open_ with
    | true => cases ho rfl
    | false =>
      rw [beq_eq_false_iff_ne.2 hne]
      rfl
  | nil =>
    rw [rowsOf_concat, if_neg hl]
    cases open_ with
    | true =>
      have hu : isTerminated last = false := not_isTerminated_of_unended (m := []) ⟨hl, hb⟩
      simp [List.getLast?_append, hu]
    | false =>
      have hu : isTerminated (last ++ ['\n']) = true := isTerminated_append_of_break rfl
      simp [List.getLast?_append, hu]

/-- Lines that are spliced in where they are. -/
theorem spliceLines_same (hf : ∀ l ∈ front, Ended l) (hl : last ≠ [])
    (hb : ∀ r ∈ init ++ [last], ∀ c ∈ r, isBreak c = false) (hne : (init ++ [last]).head? ≠ some [])
    (hB : Cut back) (ho : open_ = true → back = []) :
    (spliceLines (front ++ (rowsOf open_ (init ++ [last]) ++ back)) front.length
        (front.length + (rowsOf open_ (init ++ [last])).length) (linesText (init ++ [last]))).1 =
      (front ++ (rowsOf open_ (init ++ [last]) ++ back)).flatten := by
  have hopen : openEnded (front ++ (rowsOf open_ (init ++ [last]) ++ back))
      (front.length + (rowsOf open_ (init ++ [last])).length) = open_ :=
    openEnded_rowsOf hl (hb last (by simp)) hB ho
  have hdrop : (front ++ (rowsOf open_ (init ++ [last]) ++ back)).drop
      (front.length + (rowsOf open_ (init ++ [last])).length) = back := by
    rw [← List.append_assoc, ← List.length_append, List.drop_left]
  have hhead : headText (front ++ (rowsOf open_ (init ++ [last]) ++ back)) front.length =
      front.flatten := by
    unfold headText
    rw [List.take_left]
    dsimp only
    rw [if_pos (isTerminated_flatten hf)]
  obtain ⟨first, rest, hfr⟩ : ∃ first rest, init ++ [last] = first :: rest :=
    List.exists_cons_of_ne_nil (by simp)
  rw [hfr] at hb hne hopen hdrop hhead ⊢
  rw [spliceLines_linesText _ _ _ (fun h => hne (by rw [h]; rfl)) hb, hopen, hdrop, hhead]
  simp

/-- Lines that are taken out. -/
theorem spliceLines_away (hl : last ≠ []) (hb : ∀ c ∈ last, isBreak c = false) (hB : Cut back)
    (ho : open_ = true → back = []) :
    (spliceLines (front ++ (rowsOf open_ (init ++ [last]) ++ back)) front.length
        (front.length + (rowsOf open_ (init ++ [last])).length) []).1 =
      (if open_ then withoutTerminator front.flatten else front.flatten) ++ back.flatten := by
  have hopen : openEnded (front ++ (rowsOf open_ (init ++ [last]) ++ back))
      (front.length + (rowsOf open_ (init ++ [last])).length) = open_ :=
    openEnded_rowsOf hl hb hB ho
  have hdrop : (front ++ (rowsOf open_ (init ++ [last]) ++ back)).drop
      (front.length + (rowsOf open_ (init ++ [last])).length) = back := by
    rw [← List.append_assoc, ← List.length_append, List.drop_left]
  have hnil : withoutTerminator [] = [] := rfl
  unfold spliceLines
  dsimp only
  rw [hnil, if_pos rfl, hopen, hdrop, List.take_left]

theorem drop_of_openEnded {text : Text} {stop : ℕ} (h : openEnded (splitlines text) stop = true) :
    (splitlines text).drop stop = [] := by
  have hB : Cut ((splitlines text).drop stop) :=
    (List.take_append_drop stop (splitlines text) ▸ cut_splitlines text).right
  cases hd : (splitlines text).drop stop with
  | nil => rfl
  | cons m ms =>
    rw [openEnded, hd, Bool.and_eq_true, beq_iff_eq] at h
    exact absurd h.1 (flatten_ne_nil (hd ▸ hB))

/-- The head of an insertion is the text up to there: a terminator it gets goes away with the
inserted lines. -/
theorem headText_insert (text : Text) (at_ : ℕ) :
    (if openEnded (splitlines text) at_ then withoutTerminator (headText (splitlines text) at_)
      else headText (splitlines text) at_) ++ ((splitlines text).drop at_).flatten = text := by
  have hcut := cut_splitlines text
  have htext := splitlines_flatten text
  have hdrop : openEnded (splitlines text) at_ = true → (splitlines text).drop at_ = [] :=
    drop_of_openEnded
  generalize splitlines text = lines at *
  have hsplit : (lines.take at_).flatten ++ (lines.drop at_).flatten = text := by
    rw [← List.flatten_append, List.take_append_drop, htext]
  cases ho : openEnded lines at_ with
  | true =>
    have hd := hdrop ho
    have htake : lines.take at_ = lines := by
      have := List.take_append_drop at_ lines
      rwa [hd, List.append_nil] at this
    rw [openEnded, Bool.and_eq_true, Bool.not_eq_true'] at ho
    rcases List.eq_nil_or_concat lines with rfl | ⟨a, l, rfl⟩
    · cases ho.2
    · rw [List.concat_eq_append] at *
      have hl : isTerminated l = false := by simpa using ho.2
      have hu : Unended l := by
        refine (hcut.ended_or (List.mem_append_right a (List.mem_singleton_self l))).resolve_left
          fun h => ?_
        have ht := isTerminated_of_ended (m := []) h
        rw [List.nil_append, hl] at ht
        cases ht
      have hhead : headText (a ++ [l]) at_ = text ++ newlineOf (a ++ [l]) := by
        unfold headText
        dsimp only
        rw [htake, isTerminated_concat _ hu.1, hl, htext]
        rfl
      rw [if_pos rfl, hd, List.flatten_nil, List.append_nil, hhead]
      obtain ⟨x, c, hxc⟩ : ∃ x c, l = x ++ [c] := by
        rcases List.eq_nil_or_concat l with h | ⟨x, c, h⟩
        · exact absurd h hu.1
        · exact ⟨x, c, by rw [h, List.concat_eq_append]⟩
      have hc : isBreak c = false := hu.2 c (by rw [hxc]; simp)
      have hlast : text.getLast? = some c := by
        rw [← htext, hxc, List.flatten_append, List.flatten_singleton, ← List.append_assoc,
          List.getLast?_concat]
      have hr : text.getLast? ≠ some '\r' := by
        rw [hlast]
        rintro h
        cases h
        cases hc
      unfold newlineOf withoutTerminator removeSuffix
      split
      · have hn : text ++ ['\r', '\n'] = (text ++ ['\r']) ++ ['\n'] := by simp
        rw [hn]
        simp
      · simp [hr]
  | false =>
    rw [if_neg Bool.false_ne_true]
    have hterm : isTerminated (lines.take at_).flatten = true := by
      cases hd : lines.drop at_ with
      | cons m ms =>
        refine isTerminated_flatten fun l hl => ?_
        refine Cut.ended (b := m :: ms) ?_ (List.cons_ne_nil _ _) hl
        rw [← hd, List.take_append_drop]
        exact hcut
      | nil =>
        have htake : lines.take at_ = lines := by
          have := List.take_append_drop at_ lines
          rwa [hd, List.append_nil] at this
        rw [openEnded, hd] at ho
        rw [htake]
        rcases List.eq_nil_or_concat lines with rfl | ⟨a, l, rfl⟩
        · rfl
        · rw [List.concat_eq_append] at *
          have hlne : l ≠ [] := by
            rcases hcut.ended_or (List.mem_append_right a (List.mem_singleton_self l)) with h | h
            · exact h.ne_nil
            · exact h.1
          rw [isTerminated_concat _ hlne]
          simpa using ho
    unfold headText
    dsimp only
    rw [if_pos hterm, hsplit]

/-! ### The lines an upsert replaces -/

/-- The lines that an upsert replaces: the handler's block, or none behind the last line of the
mapping that is not blank. -/
def upsertRange (lines : List Text) (f : Span) (key : Text) : ℕ × ℕ :=
  (locateHandlerRange lines f key).getD
    (trimTrailingBlanks lines f.start f.stop, trimTrailingBlanks lines f.start f.stop)

theorem applyHandlerUpsert_eq (lines : List Text) (f : Span) (key rendered : Text)
    (h : indentBlock rendered f.childIndent ≠ []) :
    applyHandlerUpsert lines f key rendered =
      spliceLines lines (upsertRange lines f key).1 (upsertRange lines f key).2
        (linesText (indentBlock rendered f.childIndent)) := by
  unfold applyHandlerUpsert upsertRange locateHandlerRange
  dsimp only
  rw [joinLines_newline _ h]
  cases ((lines.take f.stop).drop f.start).findIdx? fun l =>
    keyHeader key f.childIndent (content l) <;> rfl

theorem locateHandlerRange_contents (lines : List Text) (f : Span) (key : Text) :
    locateHandlerRange (lines.map content) f key = locateHandlerRange lines f key := by
  unfold locateHandlerRange
  have hcomp : (fun l => keyHeader key f.childIndent (content l)) ∘ content =
      fun l => keyHeader key f.childIndent (content l) := funext fun l => by
    rw [Function.comp_apply, content_content]
  rw [slice_map, List.findIdx?_map, hcomp]
  congr 1
  funext n
  rw [childBlockEnd_contents]

theorem upsertRange_contents (lines : List Text) (f : Span) (key : Text) :
    upsertRange (lines.map content) f key = upsertRange lines f key := by
  unfold upsertRange
  rw [locateHandlerRange_contents, trimTrailingBlanks_contents]

/-- Blank lines hold nothing but blanks. -/
def PlainBlanks (lines : List Text) : Prop :=
  ∀ l ∈ lines, stripText l = [] → lstripBlanks (content l) = []

/-- A mapping into which handlers can be put: its fields stand behind its opening line. -/
structure TakesFields (lines : List Text) (t : Span) : Prop where
  ok : t.Ok lines
  opening : (leadingWs (content (lineAt lines t.start))).length < t.childIndent.length

/-- What is around the lines that an upsert replaces. -/
structure RangeSpec (lines : List Text) (t : Span) (key : Text) (lo hi : ℕ) : Prop where
  start : t.start < lo
  le : lo ≤ hi
  stop : hi ≤ t.stop
  front : ∀ i, t.start ≤ i → i < lo → keyHeader key t.childIndent (content (lineAt lines i)) = false
  old : ∀ l ∈ (lines.take hi).drop lo, keyHeader key t.childIndent (content l) = true ∨
    endsChild t.childIndent l = false
  behind : GapBehind t.childIndent ((lines.take t.stop).drop hi)

theorem rangeSpec_of_some (ht : TakesFields lines t) {lo hi : ℕ}
    (h : locateHandlerRange lines t key = some (lo, hi)) : RangeSpec lines t key lo hi := by
  obtain ⟨⟨hlt, hle, hb⟩, hopen⟩ := ht
  unfold locateHandlerRange at h
  obtain ⟨n, hn, h⟩ := Option.map_eq_some_iff.1 h
  cases h
  obtain ⟨hnlt, hp, hbefore⟩ := List.findIdx?_eq_some_iff_getElem.1 hn
  simp only [List.length_drop, List.length_take] at hnlt
  have hfront : ∀ i, t.start ≤ i → i < t.start + n →
      keyHeader key t.childIndent (content (lineAt lines i)) = false := by
    intro i h1 h2
    obtain ⟨j, rfl⟩ := Nat.exists_eq_add_of_le h1
    have hj := hbefore j (by omega)
    simp only [List.getElem_drop, List.getElem_take] at hj
    rw [lineAt_eq (by omega)]
    simpa using hj
  have hhead : keyHeader key t.childIndent (content (lineAt lines (t.start + n))) = true := by
    simp only [List.getElem_drop, List.getElem_take] at hp
    rw [lineAt_eq (by omega)]
    exact hp
  have hn0 : 0 < n := by
    rcases Nat.eq_zero_or_pos n with rfl | h
    · rw [Nat.add_zero, keyHeader_of_lt hb hopen] at hhead
      cases hhead
    · exact h
  have hlo : t.start + n < t.stop := by omega
  have hE1 : t.start + n < childBlockEnd lines (t.start + n) t.stop t.childIndent :=
    lt_childBlockEnd hlo
  have hE2 : childBlockEnd lines (t.start + n) t.stop t.childIndent ≤ t.stop := childBlockEnd_le
  have hends : ∀ i, t.start + n < i →
      i < childBlockEnd lines (t.start + n) t.stop t.childIndent →
      endsChild t.childIndent (lineAt lines i) = false := fun i => endsChild_inside hle
  have hgap : ∀ i, childBlockEnd lines (t.start + n) t.stop t.childIndent ≤ i →
      i < firstIn (endsChild t.childIndent) lines (t.start + n + 1) t.stop →
      staysInside t.childIndent (lineAt lines i) = false := fun i h1 h2 => pullBack_after h1 h2
  have hEF : childBlockEnd lines (t.start + n) t.stop t.childIndent ≤
      firstIn (endsChild t.childIndent) lines (t.start + n + 1) t.stop := pullBack_le
  have hFle : firstIn (endsChild t.childIndent) lines (t.start + n + 1) t.stop ≤ t.stop :=
    firstIn_le
  have hhit : firstIn (endsChild t.childIndent) lines (t.start + n + 1) t.stop < t.stop →
      endsChild t.childIndent (lineAt lines
        (firstIn (endsChild t.childIndent) lines (t.start + n + 1) t.stop)) = true :=
    firstIn_hit hle
  generalize childBlockEnd lines (t.start + n) t.stop t.childIndent = hi at *
  generalize firstIn (endsChild t.childIndent) lines (t.start + n + 1) t.stop = F at *
  refine ⟨by omega, Nat.le_of_lt hE1, hE2, hfront, fun l hl => ?_, ?_⟩
  · obtain ⟨i, hi', h1, h2, rfl⟩ := mem_slice hl
    rw [← lineAt_eq hi']
    rcases Nat.lt_or_eq_of_le h1 with h1 | rfl
    · exact Or.inr (hends i h1 h2)
    · exact Or.inl hhead
  · refine ⟨(lines.take F).drop hi, (lines.take t.stop).drop F, slice_split lines hEF hFle,
      fun l hl => ?_, fun l hl => ?_⟩
    · obtain ⟨i, hi', h1, h2, rfl⟩ := mem_slice hl
      rw [← lineAt_eq hi']
      exact hgap i h1 h2
    · rcases Nat.lt_or_eq_of_le hFle with hlt' | rfl
      · have hFlen : F < (lines.take t.stop).length := by
          rw [List.length_take]
          omega
        rw [List.drop_eq_getElem_cons hFlen, List.head?_cons, List.getElem_take] at hl
        rw [← Option.some.inj hl, ← lineAt_eq (by omega)]
        exact hhit hlt'
      · rw [List.drop_eq_nil_of_le (by rw [List.length_take]; omega)] at hl
        cases hl

theorem rangeSpec_of_none (ht : TakesFields lines t) (hplain : PlainBlanks lines)
    (h : locateHandlerRange lines t key = none) :
    RangeSpec lines t key (trimTrailingBlanks lines t.start t.stop)
      (trimTrailingBlanks lines t.start t.stop) := by
  obtain ⟨⟨hlt, hle, hb⟩, hopen⟩ := ht
  have hstart : t.start < trimTrailingBlanks lines t.start t.stop := lt_pullBack hlt
  have hstop : trimTrailingBlanks lines t.start t.stop ≤ t.stop := pullBack_le
  have hblank : ∀ i, trimTrailingBlanks lines t.start t.stop ≤ i → i < t.stop →
      stripText (lineAt lines i) = [] := fun i h1 h2 => by
    simpa using pullBack_after h1 h2
  generalize trimTrailingBlanks lines t.start t.stop = at_ at *
  refine ⟨hstart, Nat.le_refl _, hstop, fun i h1 h2 => ?_, fun l hl => ?_, ?_⟩
  · unfold locateHandlerRange at h
    have hnone := List.findIdx?_eq_none_iff.1 (Option.map_eq_none_iff.1 h)
    have hi : i < lines.length := by omega
    rw [lineAt_eq hi]
    refine hnone _ (List.mem_drop_iff_getElem.2 ⟨i - t.start, ?_, ?_⟩)
    · rw [List.length_take]
      omega
    · rw [List.getElem_take]
      congr 1
      omega
  · rw [List.drop_eq_nil_of_le (by rw [List.length_take]; omega)] at hl
    cases hl
  · refine ⟨(lines.take t.stop).drop at_, [], by rw [List.append_nil], fun l hl => ?_, nofun⟩
    obtain ⟨i, hi, h1, h2, rfl⟩ := mem_slice hl
    have hs := hblank i h1 h2
    rw [lineAt_eq hi] at hs
    unfold staysInside
    rw [hplain _ (List.getElem_mem hi) hs]
    rfl

theorem rangeSpec_upsertRange (ht : TakesFields lines t) (hplain : PlainBlanks lines)
    (key : Text) :
    RangeSpec lines t key (upsertRange lines t key).1 (upsertRange lines t key).2 := by
  unfold upsertRange
  cases h : locateHandlerRange lines t key with
  | none => exact rangeSpec_of_none ht hplain h
  | some r =>
    obtain ⟨lo, hi⟩ := r
    exact rangeSpec_of_some ht h

namespace LineEdit

/-- The edit that puts lines in the place of others. -/
def ofRange (lines : List Text) (lo hi : ℕ) (new : List Text) : LineEdit :=
  ⟨lines.take lo, (lines.take hi).drop lo, new, lines.drop hi⟩

variable {new : List Text}

theorem source_ofRange (h : lo ≤ hi) : (ofRange lines lo hi new).source = lines := by
  have hsplit := slice_split lines (Nat.zero_le lo) h
  rw [List.drop_zero, List.drop_zero] at hsplit
  unfold source ofRange
  dsimp only
  rw [← List.append_assoc, ← hsplit, List.take_append_drop]

theorem within_ofRange (hr : RangeSpec lines t key lo hi) (hle : t.stop ≤ lines.length) :
    (ofRange lines lo hi new).Within t.start t.stop ∧
      (ofRange lines lo hi new).front.length = lo := by
  have h1 := hr.start
  have h2 := hr.le
  have h3 := hr.stop
  have hlen : (lines.take lo).length = lo := by
    rw [List.length_take]
    omega
  refine ⟨⟨?_, ?_⟩, hlen⟩
  · show t.start < (lines.take lo).length
    omega
  · show (lines.take lo).length + ((lines.take hi).drop lo).length ≤ t.stop
    rw [hlen, List.length_drop, List.length_take]
    omega

/-- A handler's block at the indent of a mapping's fields. -/
theorem indented_of_blockAt {e : LineEdit} (h : BlockAt t.childIndent key e.new)
    (hk : IsFieldName key) (hb : Blanks t.childIndent) : e.Indented t := by
  obtain ⟨first, rest, hfr, hh, -⟩ := h.opening
  have hbare : content first = first :=
    content_of_not_break (h.bare first (hfr ▸ List.mem_cons_self))
  obtain ⟨h1, h2, h3⟩ := header_line hb hk (hbare.symm ▸ hh)
  obtain ⟨init, last, hil, hstays⟩ := h.last
  exact ⟨⟨first, rest, hfr, h2, h1, h3⟩, h.deep hk hb,
    ⟨last, by rw [hil, List.getLast?_concat], hstays⟩⟩

end LineEdit

/-! ### The text after an upsert -/

theorem BlockAt.head_ne_nil (h : BlockAt ci key R) :
    ∃ first rest, R = first :: rest ∧ first ≠ [] := by
  obtain ⟨first, rest, hfr, hh, -⟩ := h.opening
  refine ⟨first, rest, hfr, ?_⟩
  rintro rfl
  obtain ⟨tail, ht, -⟩ := keyHeader_iff.1 hh
  have hlen := congrArg List.length ht
  simp only [List.length_nil, List.length_append, List.length_cons] at hlen
  omega

theorem BlockAt.last_ne_nil (h : BlockAt ci key R) :
    ∃ init last, R = init ++ [last] ∧ last ≠ [] := by
  obtain ⟨init, last, hil, hstays⟩ := h.last
  refine ⟨init, last, hil, ?_⟩
  rintro rfl
  cases hstays

/-- The lines of a text after an upsert. -/
structure Upserted (text : Text) (lo hi : ℕ) (R front : List Text) (new : Text) : Prop where
  split : splitlines new = front ++ (rowsOf (openEnded (splitlines text) hi) R ++
    (splitlines text).drop hi)
  head : front.flatten = headText (splitlines text) lo
  ended : ∀ l ∈ front, Ended l
  contents : front.map content = ((splitlines text).take lo).map content
  length : front.length = lo

theorem upserted_spliceLines (hlo : lo ≤ hi) (hhi : hi ≤ (splitlines text).length)
    (hR : BlockAt ci key R) :
    ∃ front, Upserted text lo hi R front (spliceLines (splitlines text) lo hi (linesText R)).1 := by
  obtain ⟨first, rest, hfr, hne⟩ := hR.head_ne_nil
  obtain ⟨front, hl, hf, -, he, hc⟩ := lines_spliceLines text lo hi hne (hfr ▸ hR.bare)
  rw [← hfr] at hl
  refine ⟨front, hl, hf, he, hc, ?_⟩
  have hlen := congrArg List.length hc
  rw [List.length_map, List.length_map, List.length_take] at hlen
  omega

variable {front : List Text} {new : Text}

theorem Upserted.target (h : Upserted text lo hi R front new) (hR : BlockAt ci key R) :
    (splitlines new).map content =
      (LineEdit.ofRange ((splitlines text).map content) lo hi R).target := by
  obtain ⟨init, last, hil, hne⟩ := hR.last_ne_nil
  have hrows : (rowsOf (openEnded (splitlines text) hi) R).map content = R := by
    rw [hil]
    exact content_rowsOf hne (hil ▸ hR.bare)
  rw [h.split, List.map_append, List.map_append, h.contents, hrows, List.map_take, List.map_drop]
  rfl

theorem rowsOf_append (open_ : Bool) (a : List Text) {b : List Text} (hb : b ≠ []) :
    rowsOf open_ (a ++ b) = a.map (· ++ ['\n']) ++ rowsOf open_ b := by
  obtain ⟨init, last, rfl⟩ := exists_last hb
  rw [← List.append_assoc, rowsOf_concat, rowsOf_concat, List.map_append, List.append_assoc]

theorem length_rowsOf {open_ : Bool} {init : List Text} {last : Text} (hl : last ≠ []) :
    (rowsOf open_ (init ++ [last])).length = (init ++ [last]).length := by
  rw [rowsOf_concat, if_neg hl, List.length_append, List.length_append, List.length_map]
  cases open_ <;> rfl

/-- **An upsert of lines that are there** changes nothing. -/
theorem Upserted.again (h : Upserted text lo hi R front new) (hR : BlockAt ci key R)
    {name rendered' : Text} {j : ℕ} (hR' : BlockAt w.childIndent name (R.drop j))
    (hind : indentBlock rendered' w.childIndent = R.drop j)
    (hrange : locateHandlerRange (splitlines new) w name = some (lo + j, lo + R.length)) :
    (applyHandlerUpsert (splitlines new) w name rendered').1 = new := by
  obtain ⟨init, last, hil, hne⟩ := hR'.last_ne_nil
  obtain ⟨first, rest, hfr, hfne⟩ := hR'.head_ne_nil
  have hjl : j < R.length := by
    by_contra hj
    rw [List.drop_eq_nil_of_le (by omega)] at hfr
    cases hfr
  have hsplit : R = R.take j ++ (init ++ [last]) := by
    rw [← hil, List.take_append_drop]
  have hrows : rowsOf (openEnded (splitlines text) hi) R =
      (R.take j).map (· ++ ['\n']) ++ rowsOf (openEnded (splitlines text) hi) (init ++ [last]) := by
    conv_lhs => rw [hsplit]
    exact rowsOf_append _ _ (by simp)
  have hlines : splitlines new = (front ++ (R.take j).map (· ++ ['\n'])) ++
      (rowsOf (openEnded (splitlines text) hi) (init ++ [last]) ++ (splitlines text).drop hi) := by
    rw [h.split, hrows]
    simp
  have hlen : (front ++ (R.take j).map (· ++ ['\n'])).length = lo + j := by
    rw [List.length_append, List.length_map, List.length_take, h.length]
    omega
  have hlen' : (rowsOf (openEnded (splitlines text) hi) (init ++ [last])).length =
      R.length - j := by
    rw [length_rowsOf hne, ← hil, List.length_drop]
  have hended : ∀ l ∈ front ++ (R.take j).map (· ++ ['\n']), Ended l := by
    intro l hl
    rcases List.mem_append.1 hl with hl | hl
    · exact h.ended l hl
    · obtain ⟨r, hr, rfl⟩ := List.mem_map.1 hl
      exact ⟨r, hR.bare r (List.mem_of_mem_take hr), Or.inr ⟨'\n', rfl, rfl⟩⟩
  have hB : Cut ((splitlines text).drop hi) :=
    (List.take_append_drop hi (splitlines text) ▸ cut_splitlines text).right
  have hhead : (init ++ [last]).head? ≠ some [] := by
    rw [← hil, hfr, List.head?_cons]
    exact fun h => hfne (Option.some.inj h)
  have hsame := spliceLines_same hended hne (hil ▸ hR'.bare) hhead hB
    (fun ho => drop_of_openEnded ho)
  rw [hlen, hlen', ← hlines, splitlines_flatten] at hsame
  have hstop : lo + j + (R.length - j) = lo + R.length := by omega
  rw [hstop, ← hil] at hsame
  rw [applyHandlerUpsert_eq _ _ _ _ (by rw [hind, hfr]; exact List.cons_ne_nil _ _), upsertRange,
    hrange, hind]
  exact hsame

/-- **Inserted lines that are taken out** leave the text as it was. -/
theorem Upserted.away (h : Upserted text lo lo R front new) (hR : BlockAt ci key R) :
    (spliceLines (splitlines new) lo (lo + R.length) []).1 = text := by
  obtain ⟨init, last, hil, hne⟩ := hR.last_ne_nil
  have hB : Cut ((splitlines text).drop lo) :=
    (List.take_append_drop lo (splitlines text) ▸ cut_splitlines text).right
  have hlen : (rowsOf (openEnded (splitlines text) lo) (init ++ [last])).length = R.length := by
    rw [length_rowsOf hne, ← hil]
  have hnone : openEnded (splitlines text) lo = true → (splitlines text).drop lo = [] :=
    drop_of_openEnded
  have hbare : ∀ c ∈ last, isBreak c = false := hR.bare last (hil ▸ by simp)
  have haway := @spliceLines_away front _ init last _ hne hbare hB hnone
  rw [hlen, h.length, ← hil, ← h.split] at haway
  rw [haway, h.head]
  exact headText_insert text lo

end DeviceBuilder
