import DeviceBuilder.Properties.HandlerKeys
import Mathlib.Data.List.TakeWhile

/-!
# The locators see contents

None of the locators looks at the terminators of the lines: each leads to the
same place in the lines without them. With that come the lines that open the
body of a block, and the items of a list.
-/

namespace DeviceBuilder

open Lines

variable {u : CharTable} {lines : List Text}

/-! ### The locators see contents only -/

theorem content_content (l : Text) : content (content l) = content l := by
  unfold content
  exact List.rdropWhile_idempotent _ _

theorem lineAt_map_content (lines : List Text) (i : ℕ) :
    lineAt (lines.map content) i = content (lineAt lines i) := by
  unfold lineAt
  rw [List.getD_eq_getElem?_getD, List.getD_eq_getElem?_getD, List.getElem?_map]
  cases lines[i]? <;> rfl

theorem slice_map {α β : Type*} (f : α → β) (l : List α) (a b : ℕ) :
    ((l.map f).take b).drop a = ((l.take b).drop a).map f := by
  rw [List.map_drop, List.map_take]

theorem firstIn_map {p : Text → Bool} (hp : ∀ l, p (content l) = p l) (lines : List Text)
    (start stop : ℕ) : firstIn p (lines.map content) start stop = firstIn p lines start stop := by
  unfold firstIn
  rw [slice_map, List.findIdx?_map]
  have hcomp : p ∘ content = p := funext hp
  rw [hcomp]

theorem pullBack_map {keep : Text → Bool} (hk : ∀ l, keep (content l) = keep l)
    (lines : List Text) (start stop : ℕ) :
    pullBack keep (lines.map content) start stop = pullBack keep lines start stop := by
  induction stop with
  | zero => rfl
  | succ e ih => rw [pullBack, pullBack, lineAt_map_content, hk, ih]

theorem stripText_content (l : Text) : stripText (content l) = stripText l := by
  obtain ⟨hl, he⟩ := content_rest l
  generalize l.drop (content l).length = e at hl he
  have hspace : ∀ c ∈ e, Lines.isSpace c = true := fun c hc => by
    rcases he c hc with rfl | rfl <;> rfl
  conv_rhs => rw [hl]
  generalize content l = s
  have hfront : (s ++ e).dropWhile Lines.isSpace = s.dropWhile Lines.isSpace ++
      (if s.dropWhile Lines.isSpace = [] then [] else e) := by
    rw [List.dropWhile_append]
    cases hd : s.dropWhile Lines.isSpace with
    | nil =>
      rw [List.dropWhile_eq_nil_iff.2 hspace]
      rfl
    | cons c cs => rfl
  unfold stripText
  rw [hfront]
  split
  · rw [List.append_nil]
  · rw [List.rdropWhile, List.rdropWhile, List.reverse_append, List.dropWhile_append,
      List.dropWhile_eq_nil_iff.2 (fun c hc => hspace c (List.mem_reverse.1 hc))]
    rfl

theorem leadingWs_content_eq (l : Text) : leadingWs (content l) = leadingWs l := by
  obtain ⟨hl, he⟩ := content_rest l
  generalize l.drop (content l).length = e at hl he
  conv_rhs => rw [hl]
  unfold leadingWs
  rw [List.takeWhile_append]
  split
  · next hall =>
    have hnone : e.takeWhile (· == ' ') = [] := by
      cases e with
      | nil => rfl
      | cons c e =>
        rw [List.takeWhile_cons_of_neg]
        rcases he c List.mem_cons_self with rfl | rfl <;> decide
    rw [hnone, List.append_nil]
    exact (List.takeWhile_prefix _).eq_of_length hall
  · rfl

theorem startsWith_dash_content (l : Text) :
    startsWith ((content l).dropWhile Lines.isSpace) ['-', ' '] =
      startsWith (l.dropWhile Lines.isSpace) ['-', ' '] := by
  obtain ⟨hl, he⟩ := content_rest l
  generalize l.drop (content l).length = e at hl he
  conv_rhs => rw [hl]
  rw [List.dropWhile_append]
  cases hd : (content l).dropWhile Lines.isSpace with
  | nil =>
    have hnil : e.dropWhile Lines.isSpace = [] := List.dropWhile_eq_nil_iff.2 fun c hc => by
      rcases he c hc with rfl | rfl <;> rfl
    rw [hnil]
    rfl
  | cons c cs =>
    show _ = startsWith (c :: cs ++ e) ['-', ' ']
    cases cs with
    | nil =>
      cases e with
      | nil => rfl
      | cons d e =>
        have hne : (' ' == d) = false := by
          rcases he d List.mem_cons_self with rfl | rfl <;> decide
        simp [startsWith, List.isPrefixOf, hne]
    | cons d cs => simp [startsWith, List.isPrefixOf]

theorem findBlockHeader_contents (lines : List Text) (key : Text) :
    findBlockHeader (lines.map content) key = findBlockHeader lines key := by
  unfold findBlockHeader
  rw [List.findIdx?_map]
  have hcomp : (fun l => keyHeader key [] (content l)) ∘ content =
      fun l => keyHeader key [] (content l) := funext fun l => by
    rw [Function.comp_apply, content_content]
  rw [hcomp]

theorem blockEndIndex_contents (u : CharTable) (lines : List Text) (start : ℕ) :
    blockEndIndex u (lines.map content) start = blockEndIndex u lines start := by
  unfold blockEndIndex
  rw [List.length_map, firstIn_map fun l => by rw [content_content]]

theorem isGap_content (l : Text) : isGap (content l) = isGap l := by
  unfold isGap
  rw [content_content]

theorem childBlockEnd_contents (lines : List Text) (start endBound : ℕ) (indent : Text) :
    childBlockEnd (lines.map content) start endBound indent =
      childBlockEnd lines start endBound indent := by
  unfold childBlockEnd
  rw [firstIn_map fun l => by simp only [endsChild, isGap_content, content_content],
    pullBack_map fun l => by simp only [staysInside, content_content]]

theorem trimTrailingBlanks_contents (lines : List Text) (start stop : ℕ) :
    trimTrailingBlanks (lines.map content) start stop = trimTrailingBlanks lines start stop := by
  unfold trimTrailingBlanks
  rw [pullBack_map fun l => by rw [stripText_content]]

theorem topListItemStarts_contents (lines : List Text) (start stop : ℕ) :
    topListItemStarts (lines.map content) start stop = topListItemStarts lines start stop := by
  unfold topListItemStarts dashLines
  simp only [lineAt_map_content, content_content]

theorem blockBodyIsList_contents (lines : List Text) (start stop : ℕ) :
    blockBodyIsList (lines.map content) start stop = blockBodyIsList lines start stop := by
  unfold blockBodyIsList
  rw [slice_map, List.map_map]
  have hcomp : stripText ∘ content = stripText := funext stripText_content
  rw [hcomp]

theorem instanceDeclaredId_contents (lines : List Text) (start stop : ℕ) (ci : Text) :
    instanceDeclaredId (lines.map content) start stop ci =
      instanceDeclaredId lines start stop ci := by
  unfold instanceDeclaredId
  rw [lineAt_map_content, content_content, slice_map, List.findSome?_map]
  have hcomp : (fun l => idAfter ci (content l)) ∘ content = fun l => idAfter ci (content l) :=
    funext fun l => by rw [Function.comp_apply, content_content]
  rw [hcomp]

theorem instanceBounds_contents (lines : List Text) (starts : List ℕ) (stop : ℕ) :
    instanceBounds (lines.map content) starts stop = instanceBounds lines starts stop := by
  unfold instanceBounds childIndentOf
  simp only [lineAt_map_content, leadingWs_content_eq]

theorem locateComponentInstance_contents (u : CharTable) (lines : List Text)
    (domain componentId : Text) :
    locateComponentInstance u (lines.map content) domain componentId =
      locateComponentInstance u lines domain componentId := by
  unfold locateComponentInstance locateSingletonInstance locateIdlessInstance
  simp only [findBlockHeader_contents, blockEndIndex_contents, blockBodyIsList_contents,
    topListItemStarts_contents, instanceBounds_contents, instanceDeclaredId_contents]

theorem instanceFrame_contents (lines : List Text) (span : Span) :
    instanceFrame (lines.map content) span = instanceFrame lines span := by
  unfold instanceFrame
  rw [lineAt_map_content, startsWith_dash_content]

theorem keyBlockFrame_contents (lines : List Text) (start endBound : ℕ) (outer : Text) :
    keyBlockFrame (lines.map content) start endBound outer =
      keyBlockFrame lines start endBound outer := by
  unfold keyBlockFrame
  dsimp only
  rw [childBlockEnd_contents, slice_map, List.find?_map]
  have hcomp : (fun l => !isGap l) ∘ content = fun l => !isGap l :=
    funext fun l => by rw [Function.comp_apply, isGap_content]
  rw [hcomp, Option.map_map]
  have hcomp' : (leadingWs <| content ·) ∘ content = (leadingWs <| content ·) :=
    funext fun l => by rw [Function.comp_apply, content_content]
  rw [hcomp']

theorem locateKeyBlock_contents (lines : List Text) (frame : Span) (key : Text) :
    locateKeyBlock (lines.map content) frame key = locateKeyBlock lines frame key := by
  unfold locateKeyBlock
  dsimp only
  rw [slice_map, List.findIdx?_map]
  have hcomp : (fun l => keyHeader key frame.childIndent (content l) ||
        keyScalar (lit frame.childIndent) key (content l)) ∘ content =
      fun l => keyHeader key frame.childIndent (content l) ||
        keyScalar (lit frame.childIndent) key (content l) := funext fun l => by
    simp only [Function.comp_apply, content_content]
  simp only [hcomp, lineAt_map_content, content_content, keyBlockFrame_contents]

/-- One step of `_descend_field_segments`. -/
def stepFrame (u : CharTable) (lines : List Text) (frame : Span) (seg : Text) :
    Except YamlUpsertNotSupported (Option Span) :=
  match u.int? seg with
  | some idx =>
    .ok (if blockBodyIsList lines frame.start frame.stop then
      (instanceBounds lines (topListItemStarts lines frame.start frame.stop) frame.stop)[idx]?
    else none)
  | none => locateKeyBlock lines frame seg

theorem stepFrame_contents (u : CharTable) (lines : List Text) (frame : Span) (seg : Text) :
    stepFrame u (lines.map content) frame seg = stepFrame u lines frame seg := by
  unfold stepFrame
  rw [blockBodyIsList_contents, topListItemStarts_contents, instanceBounds_contents,
    locateKeyBlock_contents]

theorem descendFieldSegments_cons (lines : List Text) (frame : Span) (below : List Span)
    (seg : Text) (segs : List Text) :
    descendFieldSegments u lines frame below (seg :: segs) =
      match stepFrame u lines frame seg with
      | .error e => .error e
      | .ok none => .ok (frame, below)
      | .ok (some block) => descendFieldSegments u lines block (frame :: below) segs := by
  rw [descendFieldSegments, stepFrame]
  cases u.int? seg with
  | some idx =>
    dsimp only
    split
    · cases (instanceBounds lines (topListItemStarts lines frame.start frame.stop)
        frame.stop)[idx]? <;> rfl
    · rfl
  | none => rfl

theorem descendFieldSegments_contents (u : CharTable) (lines : List Text) (frame : Span)
    (below : List Span) (segs : List Text) :
    descendFieldSegments u (lines.map content) frame below segs =
      descendFieldSegments u lines frame below segs := by
  induction segs generalizing frame below with
  | nil => rfl
  | cons seg segs ih =>
    rw [descendFieldSegments_cons, descendFieldSegments_cons, stepFrame_contents]
    cases stepFrame u lines frame seg with
    | error e => rfl
    | ok block =>
      cases block with
      | none => rfl
      | some block => exact ih block _

/-! ### What opens a body, and an item -/

/-- The line of a body that says whether the body is a list. -/
def opensBody (stripped : Text) : Bool := !(stripped == [] || startsWith stripped ['#'])

theorem stripText_eq_of_lstrip {s rest : Text} {c : Char} (h : lstripBlanks s = c :: rest)
    (hc : Lines.isSpace c = false) : stripText s = (c :: rest).rdropWhile Lines.isSpace := by
  have hb : Blanks (leadingWs s) := blanks_leadingWs s
  have hs : leadingWs s ++ lstripBlanks s = s := List.takeWhile_append_dropWhile ..
  rw [← hs, stripText_indent hb, h, stripText, List.dropWhile_cons_of_neg (by simp [hc])]

theorem stripText_of_lstrip {s rest : Text} {c : Char} (h : lstripBlanks s = c :: rest)
    (hc : Lines.isSpace c = false) : ∃ rest', stripText s = c :: rest' := by
  rw [stripText_eq_of_lstrip h hc]
  cases hr : (c :: rest).rdropWhile Lines.isSpace with
  | nil =>
    rw [List.rdropWhile_eq_nil_iff] at hr
    have hspace := hr c List.mem_cons_self
    rw [hc] at hspace
    cases hspace
  | cons d rest' =>
    obtain ⟨t, ht⟩ := List.rdropWhile_prefix Lines.isSpace (c :: rest)
    rw [hr, List.cons_append] at ht
    cases ht
    exact ⟨rest', rfl⟩

/-- A line of a body that opens with another character than a comment does. -/
theorem opensBody_of_lstrip {l rest : Text} {c : Char} (h : lstripBlanks (content l) = c :: rest)
    (hc : Lines.isSpace c = false) (hne : c ≠ '#') : opensBody (stripText l) = true := by
  obtain ⟨rest', hr⟩ := stripText_of_lstrip h hc
  rw [stripText_content] at hr
  have hne' : ('#' == c) = false := by
    rw [beq_eq_false_iff_ne]
    exact Ne.symm hne
  simp [opensBody, hr, startsWith, List.isPrefixOf, hne']

theorem opensBody_of_gap {l : Text} (h : isGap l = true) : opensBody (stripText l) = false := by
  unfold isGap at h
  dsimp only at h
  rw [Bool.or_eq_true, beq_iff_eq] at h
  rcases h with h | h
  · have hnil : stripText (content l) = [] := stripText_eq_nil_iff.2 fun x hx => by
      have hx' := List.dropWhile_eq_nil_iff.1 h x hx
      rw [beq_iff_eq.1 hx']
      decide
    rw [← stripText_content, hnil]
    rfl
  · obtain ⟨rest, hrest⟩ := List.isPrefixOf_iff_prefix.1 h
    obtain ⟨rest', hr⟩ := stripText_of_lstrip hrest.symm (by decide)
    rw [stripText_content] at hr
    rw [opensBody, hr]
    rfl

theorem lstrip_of_item {s : Text} (h : isListItemLine (lstripBlanks s) = true) :
    ∃ rest, lstripBlanks s = '-' :: rest := by
  unfold isListItemLine startsWith at h
  rw [Bool.or_eq_true] at h
  rcases h with h | h
  · obtain ⟨t, ht⟩ := List.isPrefixOf_iff_prefix.1 h
    exact ⟨_, ht.symm⟩
  · obtain ⟨t, ht⟩ := List.rdropWhile_prefix (· == ' ') (lstripBlanks s)
    rw [eq_of_beq h] at ht
    exact ⟨t, ht.symm⟩

/-- The line opens a list item at an indent. -/
def opensItem (lines : List Text) (indent : Text) (idx : ℕ) : Bool :=
  isListItemLine (lstripBlanks (content (lineAt lines idx))) &&
    leadingWs (content (lineAt lines idx)) == indent

/-- The items of a body are the dash lines at the indent of the first of them. -/
theorem topListItemStarts_eq {lines : List Text} {s t first : ℕ} {rest : List ℕ}
    (h : dashLines lines s t = first :: rest) :
    topListItemStarts lines s t =
      (List.range' (s + 1) (t - (s + 1))).filter
        (opensItem lines (leadingWs (content (lineAt lines first)))) := by
  have hd : (List.range' (s + 1) (t - (s + 1))).filter
      (fun idx => isListItemLine (lstripBlanks (content (lineAt lines idx)))) = first :: rest := h
  unfold topListItemStarts
  rw [h]
  dsimp only
  rw [← hd, List.filter_filter]
  refine List.filter_congr fun idx _ => ?_
  rw [opensItem, Bool.and_comm]

/-! ### Items of a list -/

/-- No item starts inside another, and each ends at a start or where the block does. -/
theorem zip_next_apart {starts : List ℕ} {stop a b : ℕ} (hp : starts.Pairwise (· < ·))
    (hs : ∀ i ∈ starts, i < stop) (h : (a, b) ∈ starts.zip (starts.drop 1 ++ [stop])) :
    (∀ i ∈ starts, i ≤ a ∨ b ≤ i) ∧ (b ∈ starts ∨ b = stop) := by
  induction starts with
  | nil => cases h
  | cons i starts ih =>
    obtain ⟨hi, hp'⟩ := List.pairwise_cons.1 hp
    have hs' : ∀ j ∈ starts, j < stop := fun j hj => hs j (List.mem_cons_of_mem _ hj)
    cases starts with
    | nil =>
      simp only [List.drop_succ_cons, List.drop_zero, List.nil_append, List.zip_cons_cons,
        List.zip_nil_right, List.mem_singleton, Prod.mk.injEq] at h
      obtain ⟨rfl, rfl⟩ := h
      refine ⟨fun j hj => Or.inl ?_, Or.inr rfl⟩
      rw [List.mem_singleton.1 hj]
    | cons j starts =>
      rw [List.drop_succ_cons, List.drop_zero, List.cons_append, List.zip_cons_cons,
        List.mem_cons] at h
      rcases h with h | h
      · cases h
        refine ⟨fun n hn => ?_, Or.inl (List.mem_cons_of_mem _ List.mem_cons_self)⟩
        rcases List.mem_cons.1 hn with rfl | hn
        · exact Or.inl (Nat.le_refl _)
        · rcases List.mem_cons.1 hn with rfl | hn
          · exact Or.inr (Nat.le_refl _)
          · exact Or.inr (Nat.le_of_lt ((List.pairwise_cons.1 hp').1 n hn))
      · obtain ⟨ha, hb⟩ := ih hp' hs' h
        obtain ⟨hm, -, -⟩ := mem_zip_next hp' hs' h
        refine ⟨fun n hn => ?_, hb.imp_left (List.mem_cons_of_mem _)⟩
        rcases List.mem_cons.1 hn with rfl | hn
        · exact Or.inl (Nat.le_of_lt (hi a hm))
        · exact ha n hn

/-- The items of a list share one indent. -/
theorem leadingWs_items {lines : List Text} {s t i j : ℕ} (hi : i ∈ topListItemStarts lines s t)
    (hj : j ∈ topListItemStarts lines s t) :
    leadingWs (content (lineAt lines i)) = leadingWs (content (lineAt lines j)) := by
  unfold topListItemStarts at hi hj
  cases hd : dashLines lines s t with
  | nil =>
    rw [hd] at hi
    cases hi
  | cons first rest =>
    rw [hd] at hi hj
    have h1 := (List.mem_filter.1 hi).2
    have h2 := (List.mem_filter.1 hj).2
    rw [beq_iff_eq] at h1 h2
    rw [h1, h2]

end DeviceBuilder
