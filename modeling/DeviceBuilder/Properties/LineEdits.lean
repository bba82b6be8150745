import DeviceBuilder.Properties.LineContents
import Mathlib.Data.List.Find
import Mathlib.Data.List.GetD
import Mathlib.Tactic.SplitIfs

/-!
# Lines around an edit

Some lines give way to others (`LineEdit`). What a scan finds outside of them
it finds again, at the position that the edit moves it to (`LineEdit.pos`).

* `firstIn_pos`, `pullBack_pos`, `childBlockEnd_pos`, `blockEndIndex_pos`,
  `topListItemStarts_pos`: the scans.
* `locateComponentInstance_pos`: the instance around an edit is found again.
-/

namespace DeviceBuilder

open Lines

/-! ### Lines around an edit -/

/-- Lines of which those of `old` have given way to those of `new`. -/
structure LineEdit where
  front : List Text
  old : List Text
  new : List Text
  back : List Text

namespace LineEdit

variable {e : LineEdit} {p s t : ℕ} {u : CharTable} {f : Span}

def source (e : LineEdit) : List Text := e.front ++ (e.old ++ e.back)

def target (e : LineEdit) : List Text := e.front ++ (e.new ++ e.back)

/-- Where a line outside the edit is in the new lines. -/
def pos (e : LineEdit) (p : ℕ) : ℕ :=
  if p < e.front.length then p else p + e.new.length - e.old.length

/-- The position of a line outside the edit, or of the end of the lines. -/
def Away (e : LineEdit) (p : ℕ) : Prop :=
  p < e.front.length ∨ e.front.length + e.old.length ≤ p

/-- The edit is behind the first line of the span. -/
structure Within (e : LineEdit) (s t : ℕ) : Prop where
  start : s < e.front.length
  stop : e.front.length + e.old.length ≤ t

theorem pos_front (h : p < e.front.length) : e.pos p = p := if_pos h

theorem exists_back (h : e.front.length + e.old.length ≤ p) :
    ∃ k, p = e.front.length + e.old.length + k ∧ e.pos p = e.front.length + e.new.length + k := by
  obtain ⟨k, rfl⟩ := Nat.exists_eq_add_of_le h
  refine ⟨k, rfl, ?_⟩
  have hle : ¬ e.front.length + e.old.length + k < e.front.length := by omega
  rw [pos, if_neg hle]
  omega

theorem lineAt_front {rest : List Text} (h : p < e.front.length) :
    lineAt (e.front ++ rest) p = lineAt e.front p := by
  unfold lineAt
  rw [List.getD_append _ _ _ _ h]

theorem lineAt_back (a b c : List Text) (k : ℕ) :
    lineAt (a ++ (b ++ c)) (a.length + b.length + k) = lineAt c k := by
  have h1 : a.length + b.length + k - a.length = b.length + k := by omega
  have h2 : b.length + k - b.length = k := by omega
  unfold lineAt
  rw [List.getD_append_right _ _ _ _ (by omega), h1, List.getD_append_right _ _ _ _ (by omega), h2]

/-- A line outside the edit stays what it was. -/
theorem lineAt_pos (h : e.Away p) : lineAt e.target (e.pos p) = lineAt e.source p := by
  rcases h with h | h
  · rw [pos_front h, target, source, lineAt_front h, lineAt_front h]
  · obtain ⟨k, rfl, hk⟩ := exists_back h
    rw [hk, target, source, lineAt_back, lineAt_back]

theorem slice_around (a b c : List Text) (hs : s ≤ a.length) (k : ℕ) :
    ((a ++ (b ++ c)).take (a.length + b.length + k)).drop s = a.drop s ++ (b ++ c.take k) := by
  rw [Nat.add_assoc, List.take_length_add_append, List.take_length_add_append,
    List.drop_append_of_le_length hs]

theorem slice_front (a rest : List Text) (ht : t ≤ a.length) :
    ((a ++ rest).take t).drop s = (a.take t).drop s := by
  rw [List.take_append_of_le_length ht]

theorem slice_back (a b c : List Text) (j k : ℕ) :
    ((a ++ (b ++ c)).take (a.length + b.length + k)).drop (a.length + b.length + j) =
      (c.take k).drop j := by
  rw [Nat.add_assoc _ _ k, Nat.add_assoc _ _ j, List.take_length_add_append,
    List.take_length_add_append, ← List.drop_drop, List.drop_left, ← List.drop_drop,
    List.drop_left]

/-! ### The scans -/

/-- A scan that finds nothing before the end of the edit finds the same line behind it. -/
theorem firstIn_pos {q : Text → Bool} (hs : s ≤ e.front.length)
    (ht : e.front.length + e.old.length ≤ t) (hnew : ∀ l ∈ e.new, q l = false)
    (h : e.front.length + e.old.length ≤ firstIn q e.source s t) :
    firstIn q e.target s (e.pos t) = e.pos (firstIn q e.source s t) := by
  obtain ⟨k, rfl, hk⟩ := exists_back ht
  obtain ⟨j, hj, hj'⟩ := exists_back h
  rw [hj', hk]
  rw [hj] at h
  clear hk hj' ht
  have hnone : e.new.findIdx? q = none := List.findIdx?_eq_none_iff.2 hnew
  unfold firstIn source target at *
  rw [slice_around _ _ _ hs] at hj ⊢
  rw [List.findIdx?_append, List.findIdx?_append] at hj ⊢
  rw [hnone]
  cases hf : (e.front.drop s).findIdx? q with
  | some n =>
    have hlt := (List.findIdx?_eq_some_iff_getElem.1 hf).1
    rw [hf] at hj
    simp only [Option.some_or, List.length_drop] at hj hlt
    omega
  | none =>
    cases ho : e.old.findIdx? q with
    | some n =>
      have hlt := (List.findIdx?_eq_some_iff_getElem.1 ho).1
      rw [hf, ho] at hj
      simp only [Option.none_or, Option.some_or, Option.map_some, List.length_drop] at hj
      omega
    | none =>
      rw [hf, ho] at hj
      cases hb : (e.back.take k).findIdx? q with
      | some n =>
        rw [hb] at hj
        simp only [Option.none_or, Option.map_some, List.length_drop] at hj ⊢
        omega
      | none =>
        rw [hb] at hj
        simp only [Option.none_or, Option.map_none] at hj ⊢
        omega

/-- A scan that goes back to the end of the edit or less far does so in the new lines. -/
theorem pullBack_pos {keep : Text → Bool} (hs : s < e.front.length)
    (ht : e.front.length + e.old.length ≤ t) {last : Text} (hlast : e.new.getLast? = some last)
    (hkeep : keep last = true) (h : e.front.length + e.old.length ≤ pullBack keep e.source s t) :
    pullBack keep e.target s (e.pos t) = e.pos (pullBack keep e.source s t) := by
  obtain ⟨k, rfl, hk⟩ := exists_back ht
  obtain ⟨j, hj, hj'⟩ := exists_back h
  rw [hj', hk]
  clear hk hj' ht h
  induction k with
  | zero =>
    have hle : pullBack keep e.source s (e.front.length + e.old.length + 0) ≤
        e.front.length + e.old.length + 0 := pullBack_le
    obtain rfl : j = 0 := by omega
    obtain ⟨init, hinit⟩ := List.getLast?_eq_some_iff.1 hlast
    have hlen : e.front.length + e.new.length + 0 = e.front.length + init.length + 1 := by
      rw [hinit, List.length_append]
      rfl
    have hline : lineAt e.target (e.front.length + init.length) = last := by
      have hb := lineAt_back e.front init ([last] ++ e.back) 0
      rw [target, hinit, List.append_assoc]
      exact hb
    rw [hlen, pullBack, hline, hkeep]
    simp
  | succ k ih =>
    have hsrc : lineAt e.source (e.front.length + e.old.length + k) = lineAt e.back k :=
      lineAt_back _ _ _ k
    have htgt : lineAt e.target (e.front.length + e.new.length + k) = lineAt e.back k :=
      lineAt_back _ _ _ k
    have h1 : s < e.front.length + e.old.length + k := by omega
    have h2 : s < e.front.length + e.new.length + k := by omega
    rw [← Nat.add_assoc, pullBack, hsrc] at hj
    rw [← Nat.add_assoc, pullBack, htgt]
    cases hk : keep (lineAt e.back k) with
    | true =>
      simp only [hk, Bool.not_true, Bool.and_false, Bool.false_eq_true, if_false] at hj ⊢
      omega
    | false =>
      simp only [hk, Bool.not_false, Bool.and_true, decide_eq_true_eq, h1, h2, if_true] at hj ⊢
      exact ih hj

theorem Within.away_start (h : e.Within s t) : e.Away s := Or.inl h.start

theorem pos_source_length (e : LineEdit) : e.pos e.source.length = e.target.length := by
  obtain ⟨k, hk, hk'⟩ := exists_back (e := e) (p := e.source.length) (by
    simp only [source, List.length_append]
    omega)
  rw [hk']
  simp only [source, target, List.length_append] at hk ⊢
  omega

theorem childBlockEnd_pos {outer last : Text} (hs : s < e.front.length)
    (ht : e.front.length + e.old.length ≤ t) (hnew : ∀ l ∈ e.new, endsChild outer l = false)
    (hlast : e.new.getLast? = some last) (hkeep : staysInside outer last = true)
    (h : e.front.length + e.old.length ≤ childBlockEnd e.source s t outer) :
    childBlockEnd e.target s (e.pos t) outer = e.pos (childBlockEnd e.source s t outer) := by
  have hfirst : e.front.length + e.old.length ≤
      firstIn (endsChild outer) e.source (s + 1) t := Nat.le_trans h pullBack_le
  unfold childBlockEnd at h ⊢
  rw [firstIn_pos hs ht hnew hfirst, pullBack_pos hs hfirst hlast hkeep h]

theorem findBlockHeader_pos {key : Text} (h : findBlockHeader e.source key = some p)
    (hp : p < e.front.length) : findBlockHeader e.target key = some p := by
  unfold findBlockHeader source target at *
  rw [List.findIdx?_append] at h ⊢
  cases hf : e.front.findIdx? fun l => keyHeader key [] (content l) with
  | some n =>
    rw [hf] at h
    exact h
  | none =>
    rw [hf, Option.none_or] at h
    obtain ⟨n, -, rfl⟩ := Option.map_eq_some_iff.1 h
    omega

theorem blockEndIndex_pos (hs : s < e.front.length)
    (hnew : ∀ l ∈ e.new, opensTopLevelBlock u (content l) = false)
    (h : e.front.length + e.old.length ≤ blockEndIndex u e.source s) :
    blockEndIndex u e.target s = e.pos (blockEndIndex u e.source s) := by
  have hlen : e.front.length + e.old.length ≤ e.source.length := by
    simp only [source, List.length_append]
    omega
  unfold blockEndIndex at h ⊢
  rw [← pos_source_length, firstIn_pos hs hlen hnew h]

/-- A body that opens in front of the edit. -/
theorem blockBodyIsList_front (hw : e.Within s t) (hs : s < p) (hp : p < e.front.length)
    (hc : opensBody (stripText (lineAt e.source p)) = true) :
    blockBodyIsList e.target s (e.pos t) = blockBodyIsList e.source s t := by
  obtain ⟨k, rfl, hk⟩ := exists_back hw.stop
  have hmem : stripText (lineAt e.source p) ∈ (e.front.drop (s + 1)).map stripText := by
    rw [source, lineAt_front hp, lineAt_eq hp]
    refine List.mem_map_of_mem (List.mem_drop_iff_getElem.2 ⟨p - (s + 1), by omega, ?_⟩)
    congr 1
    omega
  have hsome : (((e.front.drop (s + 1)).map stripText).find?
      fun s => !(s == [] || startsWith s ['#'])).isSome = true := by
    rw [List.find?_isSome]
    exact ⟨_, hmem, hc⟩
  obtain ⟨x, hx⟩ := Option.isSome_iff_exists.1 hsome
  unfold blockBodyIsList
  rw [hk, source, target, slice_around _ _ _ hw.start, slice_around _ _ _ hw.start]
  simp only [List.map_append, List.find?_append, hx, Option.some_or]

/-- A body that is no list does not become one by a line that opens no item. -/
theorem blockBodyIsList_new (hw : e.Within s t) (h : blockBodyIsList e.source s t = false)
    {first : Text} {rest : List Text} (hnew : e.new = first :: rest)
    (hc : opensBody (stripText first) = true) (hd : startsWith (stripText first) ['-', ' '] = false)
    (hd' : (stripText first == ['-']) = false) :
    blockBodyIsList e.target s (e.pos t) = false := by
  obtain ⟨k, rfl, hk⟩ := exists_back hw.stop
  unfold blockBodyIsList at h ⊢
  rw [source, slice_around _ _ _ hw.start] at h
  rw [hk, target, slice_around _ _ _ hw.start]
  simp only [List.map_append, List.find?_append] at h ⊢
  cases hf : ((e.front.drop (s + 1)).map stripText).find?
      fun s => !(s == [] || startsWith s ['#']) with
  | some x =>
    rw [hf] at h
    exact h
  | none =>
    have hfirst : (e.new.map stripText).find? (fun s => !(s == [] || startsWith s ['#'])) =
        some (stripText first) := by
      rw [hnew, List.map_cons, List.find?_cons_of_pos]
      exact hc
    rw [hfirst]
    simp only [Option.none_or, Option.some_or, hd, hd', Bool.or_false]

/-! ### The items of a list -/

theorem range'_around (a b k : ℕ) (hs : s < a) :
    List.range' (s + 1) (a + b + k - (s + 1)) =
      List.range' (s + 1) (a - (s + 1)) ++ (List.range' a b ++ List.range' (a + b) k) := by
  have h1 : List.range' a (b + k) = List.range' a b ++ List.range' (a + b) k := by
    rw [← List.range'_append_1]
  have h2 : s + 1 + (a - (s + 1)) = a := by omega
  have h3 : a + b + k - (s + 1) = a - (s + 1) + (b + k) := by omega
  rw [← h1, h3, ← List.range'_append_1, h2]

theorem filter_around {q : ℕ → Bool} (a b k : ℕ) (hs : s < a)
    (hq : ∀ i, a ≤ i → i < a + b → q i = false) :
    (List.range' (s + 1) (a + b + k - (s + 1))).filter q =
      (List.range' (s + 1) (a - (s + 1))).filter q ++ (List.range' (a + b) k).filter q := by
  have hnil : (List.range' a b).filter q = [] := by
    rw [List.filter_eq_nil_iff]
    intro i hi
    rw [List.mem_range'_1] at hi
    rw [hq i hi.1 hi.2]
    exact Bool.false_ne_true
  rw [range'_around a b k hs, List.filter_append, List.filter_append, hnil, List.nil_append]

/-- **The items of a list around an edit** that neither holds one of them nor brings one. -/
theorem topListItemStarts_pos (hw : e.Within s t) {f : ℕ}
    (hf : f ∈ topListItemStarts e.source s t) (hff : f < e.front.length)
    (hold : ∀ i ∈ topListItemStarts e.source s t, e.Away i)
    (hnew : ∀ l ∈ e.new, isListItemLine (lstripBlanks (content l)) = true →
      leadingWs (content l) ≠ leadingWs (content (lineAt e.source f))) :
    topListItemStarts e.target s (e.pos t) = (topListItemStarts e.source s t).map e.pos := by
  obtain ⟨k, rfl, hk⟩ := exists_back hw.stop
  rw [hk]
  have hlines : ∀ i, i < e.front.length → lineAt e.target i = lineAt e.source i := fun i hi => by
    rw [target, source, lineAt_front hi, lineAt_front hi]
  obtain ⟨first, rest, hdash⟩ : ∃ first rest,
      dashLines e.source s (e.front.length + e.old.length + k) = first :: rest := by
    cases hd : dashLines e.source s (e.front.length + e.old.length + k) with
    | nil =>
      rw [topListItemStarts, hd] at hf
      cases hf
    | cons first rest => exact ⟨first, rest, rfl⟩
  rw [topListItemStarts_eq hdash] at hf hold ⊢
  have hind : leadingWs (content (lineAt e.source f)) =
      leadingWs (content (lineAt e.source first)) := by
    have hq := (List.mem_filter.1 hf).2
    rw [opensItem, Bool.and_eq_true, beq_iff_eq] at hq
    exact hq.2
  rw [hind] at hnew
  -- the first dash line stands in front of the edit, so the new lines have the same
  have hfirst : first < e.front.length := by
    have hsorted : (dashLines e.source s (e.front.length + e.old.length + k)).Pairwise (· < ·) :=
      List.Pairwise.filter _ List.pairwise_lt_range'
    have hmem : f ∈ dashLines e.source s (e.front.length + e.old.length + k) := by
      obtain ⟨hr, hq⟩ := List.mem_filter.1 hf
      rw [opensItem, Bool.and_eq_true] at hq
      exact List.mem_filter.2 ⟨hr, hq.1⟩
    rw [hdash] at hsorted hmem
    rcases List.mem_cons.1 hmem with rfl | hmem
    · exact hff
    · have := (List.pairwise_cons.1 hsorted).1 f hmem
      omega
  obtain ⟨rest', hdash'⟩ : ∃ rest',
      dashLines e.target s (e.front.length + e.new.length + k) = first :: rest' := by
    have hsrc := hdash
    unfold dashLines at hsrc ⊢
    rw [range'_around _ _ _ hw.start, List.filter_append] at hsrc ⊢
    have hsame : ∀ i ∈ List.range' (s + 1) (e.front.length - (s + 1)),
        isListItemLine (lstripBlanks (content (lineAt e.target i))) =
          isListItemLine (lstripBlanks (content (lineAt e.source i))) := fun i hi => by
      rw [List.mem_range'_1] at hi
      rw [hlines i (by have := hw.start; omega)]
    rw [List.filter_congr hsame]
    cases hfr : (List.range' (s + 1) (e.front.length - (s + 1))).filter
        (fun i => isListItemLine (lstripBlanks (content (lineAt e.source i)))) with
    | nil =>
      rw [hfr, List.nil_append] at hsrc
      have hmem : first ∈ (List.range' e.front.length e.old.length ++
          List.range' (e.front.length + e.old.length) k) :=
        (List.mem_filter.1 (hsrc ▸ List.mem_cons_self)).1
      rw [List.mem_append, List.mem_range'_1, List.mem_range'_1] at hmem
      omega
    | cons x xs =>
      rw [hfr, List.cons_append] at hsrc
      cases hsrc
      exact ⟨_, rfl⟩
  rw [topListItemStarts_eq hdash', hlines first hfirst]
  generalize leadingWs (content (lineAt e.source first)) = indent at *
  have hq : ∀ i, e.front.length ≤ i → i < e.front.length + e.old.length →
      opensItem e.source indent i = false := by
    intro i h1 h2
    rw [Bool.eq_false_iff]
    intro hi
    have haway := hold i (List.mem_filter.2 ⟨?_, hi⟩)
    · rcases haway with h | h <;> omega
    · rw [List.mem_range'_1]
      have := hw.start
      omega
  have hq' : ∀ i, e.front.length ≤ i → i < e.front.length + e.new.length →
      opensItem e.target indent i = false := by
    intro i h1 h2
    rw [Bool.eq_false_iff]
    intro hi
    rw [opensItem, Bool.and_eq_true, beq_iff_eq] at hi
    have hmem : lineAt e.target i ∈ e.new := by
      unfold lineAt target
      rw [List.getD_append_right _ _ _ _ h1, List.getD_append _ _ _ _ (by omega),
        List.getD_eq_getElem _ _ (by omega)]
      exact List.getElem_mem _
    exact hnew _ hmem hi.1 hi.2
  rw [filter_around _ _ _ hw.start hq,
    filter_around _ _ _ hw.start hq', List.map_append]
  congr 1
  · have hsame : ∀ i ∈ List.range' (s + 1) (e.front.length - (s + 1)),
        opensItem e.target indent i = opensItem e.source indent i := fun i hi => by
      rw [List.mem_range'_1] at hi
      rw [opensItem, opensItem, hlines i (by have := hw.start; omega)]
    rw [List.filter_congr hsame]
    refine ((List.map_congr_left fun i hi => ?_).trans (List.map_id _)).symm
    have hr := (List.mem_filter.1 hi).1
    rw [List.mem_range'_1] at hr
    exact pos_front (by have := hw.start; omega)
  · rw [List.range'_eq_map_range, List.range'_eq_map_range, List.filter_map, List.filter_map,
      List.map_map]
    have hsame : opensItem e.target indent ∘ (e.front.length + e.new.length + ·) =
        opensItem e.source indent ∘ (e.front.length + e.old.length + ·) := funext fun i => by
      simp only [Function.comp_apply, opensItem, target, source, lineAt_back]
    rw [hsame]
    refine List.map_congr_left fun i _ => ?_
    obtain ⟨j, hj, hj'⟩ := exists_back (e := e) (p := e.front.length + e.old.length + i) (by omega)
    rw [Function.comp_apply, hj']
    omega

/-! ### Instances -/

/-- A span of the old lines, in the new ones. -/
def span (e : LineEdit) (f : Span) : Span :=
  { f with start := e.pos f.start, stop := e.pos f.stop }

theorem instanceBounds_pos {starts : List ℕ} (h : ∀ i ∈ starts, e.Away i) :
    instanceBounds e.target (starts.map e.pos) (e.pos t) =
      (instanceBounds e.source starts t).map e.span := by
  have hzip : (starts.map e.pos).zip ((starts.map e.pos).drop 1 ++ [e.pos t]) =
      (starts.zip (starts.drop 1 ++ [t])).map fun i => (e.pos i.1, e.pos i.2) := by
    rw [← List.map_drop, ← List.map_singleton (f := e.pos), ← List.map_append, List.zip_map]
    rfl
  unfold instanceBounds
  rw [hzip, List.map_map, List.map_map]
  refine List.map_congr_left ?_
  rintro ⟨a, b⟩ hab
  have ha := h a (List.of_mem_zip hab).1
  simp only [Function.comp_apply, childIndentOf, lineAt_pos ha, span]

/-- An instance apart from the edit, or around one that neither holds nor brings an `id:` line. -/
theorem instanceDeclaredId_pos {ci : Text}
    (h : t < e.front.length ∨ e.front.length + e.old.length ≤ s ∨ e.Within s t) (hst : s < t)
    (hold : ∀ l ∈ e.old, idAfter ci (content l) = none)
    (hnew : ∀ l ∈ e.new, idAfter ci (content l) = none) :
    instanceDeclaredId e.target (e.pos s) (e.pos t) ci =
      instanceDeclaredId e.source s t ci := by
  have haway : e.Away s := by
    rcases h with h | h | h
    · exact Or.inl (by omega)
    · exact Or.inr h
    · exact Or.inl h.start
  have hids : ((e.target.take (e.pos t)).drop (e.pos s)).findSome? (fun l =>
        idAfter ci (content l)) =
      ((e.source.take t).drop s).findSome? (fun l => idAfter ci (content l)) := by
    rcases h with h | h | h
    · rw [pos_front h, pos_front (by omega), target, source, slice_front _ _ (by omega),
        slice_front _ _ (by omega)]
    · obtain ⟨j, rfl, hj⟩ := exists_back h
      obtain ⟨k, rfl, hk⟩ := exists_back (e := e) (p := t) (by omega)
      rw [hj, hk, target, source, slice_back, slice_back]
    · obtain ⟨k, rfl, hk⟩ := exists_back h.stop
      have hs := h.start
      rw [pos_front hs, hk, target, source, slice_around _ _ _ (Nat.le_of_lt hs),
        slice_around _ _ _ (Nat.le_of_lt hs), List.findSome?_append, List.findSome?_append,
        List.findSome?_append, List.findSome?_append, List.findSome?_eq_none_iff.2 hold,
        List.findSome?_eq_none_iff.2 hnew]
  unfold instanceDeclaredId
  rw [lineAt_pos haway, hids]

/-- **The instance around an edit** is found again. -/
theorem locateComponentInstance_pos {domain componentId : Text}
    (h : locateComponentInstance u e.source domain componentId = some f)
    (hw : e.Within f.start f.stop)
    (hopen : ∀ l ∈ e.new, opensTopLevelBlock u (content l) = false)
    (hlead : ∀ l ∈ e.new, isListItemLine (lstripBlanks (content l)) = true →
      f.childIndent.length ≤ (leadingWs (content l)).length)
    (hold : ∀ l ∈ e.old, idAfter f.childIndent (content l) = none)
    (hnew : ∀ l ∈ e.new, idAfter f.childIndent (content l) = none)
    (hfirst : ∃ first rest, e.new = first :: rest ∧ opensBody (stripText first) = true ∧
      startsWith (stripText first) ['-', ' '] = false ∧ (stripText first == ['-']) = false) :
    locateComponentInstance u e.target domain componentId = some (e.span f) := by
  unfold locateComponentInstance at h ⊢
  obtain ⟨d, hd, h⟩ := Option.bind_eq_some_iff.1 h
  dsimp only at h
  split at h
  · next hlist =>
    generalize hE : blockEndIndex u e.source d = E at *
    have hbounds : ∀ b ∈ instanceBounds e.source (topListItemStarts e.source d E) E,
        b.start ∈ topListItemStarts e.source d E ∧ b.start < b.stop ∧ b.stop ≤ E ∧
        (∀ i ∈ topListItemStarts e.source d E, i ≤ b.start ∨ b.stop ≤ i) ∧
        (b.stop ∈ topListItemStarts e.source d E ∨ b.stop = E) ∧
        b.childIndent = childIndentOf e.source b.start := by
      intro b hb
      obtain ⟨⟨x, y⟩, hxy, rfl⟩ := List.mem_map.1 hb
      have hp := pairwise_topListItemStarts e.source d E
      have hs : ∀ i ∈ topListItemStarts e.source d E, i < E := fun i hi =>
        (mem_topListItemStarts hi).2.1
      obtain ⟨h1, h2, h3⟩ := mem_zip_next hp hs hxy
      obtain ⟨h4, h5⟩ := zip_next_apart hp hs hxy
      exact ⟨h1, h2, h3, h4, h5, rfl⟩
    have hmem : f ∈ instanceBounds e.source (topListItemStarts e.source d E) E := by
      split at h
      · next b hb =>
        cases h
        exact List.mem_of_find?_eq_some hb
      · unfold locateIdlessInstance at h
        obtain ⟨idx, -, h⟩ := Option.bind_eq_some_iff.1 h
        obtain ⟨b, hb, h⟩ := Option.bind_eq_some_iff.1 h
        split at h
        · cases h
        · cases h
          exact List.mem_of_getElem? hb
    obtain ⟨hfs, hflt, hfE, hfa, -, hfc⟩ := hbounds f hmem
    have hdf := (mem_topListItemStarts hfs).1
    have hdw : e.Within d E := ⟨by have := hw.start; omega, by have := hw.stop; omega⟩
    have haway : ∀ i ∈ topListItemStarts e.source d E, e.Away i := by
      intro i hi
      rcases hfa i hi with h' | h'
      · exact Or.inl (by have := hw.start; omega)
      · exact Or.inr (by have := hw.stop; omega)
    have hindent : ∀ i ∈ topListItemStarts e.source d E,
        childIndentOf e.source i = f.childIndent := by
      intro i hi
      rw [hfc, childIndentOf, childIndentOf, ← leadingWs_content_eq, leadingWs_items hi hfs,
        leadingWs_content_eq]
    have hstarts : topListItemStarts e.target d (e.pos E) =
        (topListItemStarts e.source d E).map e.pos := by
      refine topListItemStarts_pos hdw hfs hw.start haway fun l hl hi heq => ?_
      have hle := hlead l hl hi
      rw [hfc, childIndentOf, List.length_append, ← leadingWs_content_eq, heq] at hle
      have : 0 < esphomeYamlIndent.length := by decide
      omega
    have hbody : opensBody (stripText (lineAt e.source f.start)) = true := by
      obtain ⟨rest, hrest⟩ := lstrip_of_item (mem_topListItemStarts hfs).2.2
      exact opensBody_of_lstrip hrest (by decide) (by decide)
    have hend : blockEndIndex u e.target d = e.pos E := by
      rw [blockEndIndex_pos hdw.start hopen (by have := hw.stop; omega), hE]
    have hbs : ∀ b ∈ instanceBounds e.source (topListItemStarts e.source d E) E,
        instanceDeclaredId e.target (e.span b).start (e.span b).stop (e.span b).childIndent =
          instanceDeclaredId e.source b.start b.stop b.childIndent := by
      intro b hb
      obtain ⟨hs, hlt, hle, -, hstop, hci⟩ := hbounds b hb
      have hci' : b.childIndent = f.childIndent := hci.trans (hindent _ hs)
      refine instanceDeclaredId_pos ?_ hlt (hci' ▸ hold) (hci' ▸ hnew)
      rcases haway _ hs with h1 | h1
      · rcases hstop with h2 | h2
        · rcases haway _ h2 with h2 | h2
          · exact Or.inl h2
          · exact Or.inr (Or.inr ⟨h1, h2⟩)
        · exact Or.inr (Or.inr ⟨h1, h2 ▸ hdw.stop⟩)
      · exact Or.inr (Or.inl h1)
    rw [findBlockHeader_pos hd hdw.start]
    dsimp only [Option.bind_some, bind]
    rw [hend, blockBodyIsList_front hdw hdf hw.start hbody, if_pos hlist, hstarts,
      instanceBounds_pos haway, List.find?_map]
    have hfind : (instanceBounds e.source (topListItemStarts e.source d E) E).find?
          ((fun b => instanceDeclaredId e.target b.start b.stop b.childIndent ==
            some componentId) ∘ e.span) =
        (instanceBounds e.source (topListItemStarts e.source d E) E).find?
          (fun b => instanceDeclaredId e.source b.start b.stop b.childIndent ==
            some componentId) := by
      refine List.find?_congr fun b hb => ?_
      rw [Function.comp_apply, hbs b hb]
    rw [hfind]
    split at h
    · next b hb =>
      cases h
      rw [hb]
      rfl
    · next hb =>
      rw [hb]
      unfold locateIdlessInstance at h ⊢
      obtain ⟨idx, hidx, h⟩ := Option.bind_eq_some_iff.1 h
      obtain ⟨b, hb, h⟩ := Option.bind_eq_some_iff.1 h
      dsimp only [Option.map_none]
      rw [hidx]
      dsimp only [Option.bind_some, bind]
      rw [List.getElem?_map, hb]
      dsimp only [Option.bind_some, Option.map_some]
      rw [hbs b (List.mem_of_getElem? hb)]
      split at h
      · cases h
      · next hnone =>
        cases h
        rw [if_neg hnone]
  · next hlist =>
    unfold locateSingletonInstance at h
    dsimp only at h
    split at h
    · next hid =>
      cases h
      obtain ⟨first, rest, hn, h1, h2, h3⟩ := hfirst
      have hend : blockEndIndex u e.target d = e.pos (blockEndIndex u e.source d) :=
        blockEndIndex_pos hw.start hopen hw.stop
      have hbody : blockBodyIsList e.target d (e.pos (blockEndIndex u e.source d)) = false :=
        blockBodyIsList_new hw (by simpa using hlist) hn h1 h2 h3
      have hlt : d < blockEndIndex u e.source d := by
        have h1 := hw.start
        have h2 := hw.stop
        dsimp only at h1 h2
        omega
      have hdecl : instanceDeclaredId e.target (e.pos d) (e.pos (blockEndIndex u e.source d))
            esphomeYamlIndent =
          instanceDeclaredId e.source d (blockEndIndex u e.source d) esphomeYamlIndent :=
        instanceDeclaredId_pos (Or.inr (Or.inr hw)) hlt hold hnew
      rw [pos_front hw.start] at hdecl
      rw [findBlockHeader_pos hd hw.start]
      dsimp only [Option.bind_some, bind]
      rw [hend, hbody, if_neg Bool.false_ne_true]
      unfold locateSingletonInstance
      dsimp only
      rw [hdecl, if_pos hid, span, pos_front hw.start]
    · cases h

end LineEdit

end DeviceBuilder
